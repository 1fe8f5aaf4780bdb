import Admission.Capability
import Admission.Proofs.Json.Fields
import Admission.Proofs.Json.ReadBack

/-!
# Decoding what was written

A structure is read from the object of its fields, whatever their order, and a closed one refuses any further name.
Numbers, texts and dictionaries are read as what they were written for, and so are values of any shape whose names
stand in order.
-/

namespace Admission

variable {α β : Type}

theorem toOption_eq_some {ε : Type} (x : Except ε α) (a : α) : x.toOption = some a ↔ x = .ok a := by
  cases x <;> simp [Except.toOption]

/-! ## Structures -/

namespace Decode

variable {members : List (String × Json)}

theorem mem_ofList {entry : String × Json} (h : entry ∈ (Dict.ofList members).toList) : entry ∈ members := by
  have hget := (Dict.ofList members).get?_of_mem entry.1 entry.2 h
  rw [Dict.get?_ofList] at hget
  obtain ⟨m, hlast, hvalue⟩ := Option.map_eq_some_iff.mp hget
  obtain ⟨hm, hname⟩ := List.mem_filter.mp (List.mem_of_getLast? hlast)
  exact Prod.ext (eq_of_beq hname) hvalue ▸ hm

theorem value?_ofList_iff (format : Format) (hnames : (members.map (·.1)).Nodup) (name : String) (value : Json) :
    Parts.value? ⟨format, (Dict.ofList members).toList⟩ name = some value ↔ (name, value) ∈ members := by
  refine ⟨fun h => mem_ofList ((Dict.ofList members).mem_of_get? name value h), fun hmem => ?_⟩
  refine Dict.get?_ofList_eq members name (some value) fun other => ⟨fun hother => ?_, fun hother => ?_⟩
  · exact congrArg some (congrArg Prod.snd (List.inj_on_of_nodup_map hnames hmem hother rfl))
  · cases hother
    exact hmem

theorem repeats_eq_false (names : List String) (hnames : (members.map (·.1)).Nodup) :
    repeats names members = false := by
  unfold repeats
  rw [List.any_eq_false]
  intro name _
  have hcount : (members.filter fun m => m.1 == name).length = (members.map (·.1)).count name := by
    rw [List.count_eq_countP, List.countP_map, List.countP_eq_length_filter]
    rfl
  rw [hcount, decide_eq_true_eq, Nat.not_lt]
  exact List.nodup_iff_count_le_one.mp hnames name

theorem structured_eq_ok (names : List String) (closed : Bool) (fields : Fields α) (a : α)
    (hnames : (members.map (·.1)).Nodup) (hknown : closed = true → ∀ m ∈ members, m.1 ∈ names)
    (h : ∀ parts : Parts, parts.format = .json →
      (∀ name value, parts.value? name = some value ↔ (name, value) ∈ members) → fields.result? parts = some a) :
    structured names closed fields .json (.obj members) = .ok a := by
  have hunknown : (if closed then firstUnknown? names (Dict.ofList members).toList else none) = none := by
    cases closed with
    | false => rfl
    | true =>
      refine List.findIdx?_eq_none_iff.mpr fun part hpart => ?_
      simpa using hknown rfl part (mem_ofList hpart)
  have hrun := (toOption_eq_some _ a).mp (h ⟨.json, (Dict.ofList members).toList⟩ rfl (value?_ofList_iff .json hnames))
  unfold structured
  simp only [Parts.of?, repeats_eq_false names hnames, Bool.false_eq_true, if_false, hunknown, hrun, surplus]

theorem openStructure_eq_ok (names : List String) (fields : Fields α) (members : List (String × Json)) (a : α)
    (hnames : (members.map (·.1)).Nodup)
    (h : ∀ parts : Parts, parts.format = .json → (∀ m ∈ members, parts.value? m.1 = some m.2) →
      fields.result? parts = some a) :
    openStructure names fields .json (.obj members) = .ok a :=
  structured_eq_ok names false fields a hnames nofun fun parts hformat hvalue =>
    h parts hformat fun m => (hvalue m.1 m.2).mpr

/-- A field by its name, with what is written for it if it is set. -/
abbrev Field := String × Option Json

def Field.member? (field : Field) : Option (String × Json) := field.2.map fun value => (field.1, value)

theorem Field.mem_members {fields : List Field} {m : String × Json} :
    m ∈ fields.filterMap member? ↔ (m.1, some m.2) ∈ fields := by
  simp only [List.mem_filterMap, member?, Option.map_eq_some_iff]
  constructor
  · rintro ⟨⟨_, _⟩, hfield, _, rfl, rfl⟩
    exact hfield
  · exact fun hfield => ⟨_, hfield, m.2, rfl, rfl⟩

theorem Field.names_sublist (fields : List Field) :
    ((fields.filterMap member?).map (·.1)).Sublist (fields.map (·.1)) := by
  induction fields with
  | nil => exact .slnil
  | cons field rest ih =>
    obtain ⟨name, value⟩ := field
    cases value with
    | none => exact ih.cons name
    | some value => exact ih.cons_cons name

theorem structured_fields_eq_ok {names : List String} (closed : Bool) (read : Fields α) (a : α) {fields : List Field}
    (hfields : fields.map (·.1) = names) (hnames : names.Nodup)
    (h : ∀ parts : Parts, parts.format = .json → (∀ field ∈ fields, parts.value? field.1 = field.2) →
      read.result? parts = some a) :
    structured names closed read .json (.obj (fields.filterMap Field.member?)) = .ok a := by
  subst hfields
  have hsublist := Field.names_sublist fields
  refine structured_eq_ok _ closed read a (hsublist.nodup hnames)
    (fun _ m hm => hsublist.subset (List.mem_map_of_mem hm)) fun parts hformat hvalue => h parts hformat ?_
  intro field hfield
  refine Option.ext fun value => ?_
  rw [hvalue, Field.mem_members]
  refine ⟨fun hset => ?_, fun hset => hset ▸ hfield⟩
  exact congrArg Prod.snd (List.inj_on_of_nodup_map hnames hfield hset rfl)

end Decode

/-! ## Single values -/

/-- A finite amount that is read as what it is written as. -/
structure Double.Kept (x : Double) : Prop where
  finite : x.isFinite = true
  exact : Json.numberValue? (Json.floatChars x) = some (.float x)

theorem Json.fitsWord_of_lt {n : Int} (h : -2 ^ 63 ≤ n ∧ n < 2 ^ 63) : fitsWord n = true := by
  have hlow : ((Nat.pow 2 63 : Nat) : Int) = 2 ^ 63 := rfl
  have hhigh : ((Nat.pow 2 64 : Nat) : Int) = 2 ^ 64 := rfl
  unfold fitsWord
  rw [hlow, hhigh, Bool.and_eq_true, decide_eq_true_eq, decide_eq_true_eq]
  omega

theorem Decode.float_eq_ok {x : Double} (h : x.isFinite = true) : float .json (.float x) = .ok x := by
  unfold float
  simp only [h, Bool.not_true, Bool.and_false, Bool.false_eq_true, if_false]

theorem Decode.intWithin_eq_ok {bits : Nat} {n : Int} (h : -2 ^ bits ≤ n ∧ n < 2 ^ bits) :
    intWithin (-Nat.pow 2 bits) (Nat.pow 2 bits) .json (.int n) = .ok n := by
  have hpow : ((Nat.pow 2 bits : Nat) : Int) = 2 ^ bits := Int.natCast_pow 2 bits
  unfold intWithin
  rw [hpow]
  exact if_pos h

theorem Decode.nat_eq_ok {bits n : Nat} (h : n < 2 ^ bits) : nat bits .json (.nat n) = .ok n := by
  have hpow : ((Nat.pow 2 bits : Nat) : Int) = 2 ^ bits := Int.natCast_pow 2 bits
  have hread : intWithin 0 (Nat.pow 2 bits) .json (.int n) = .ok (n : Int) := by
    unfold intWithin
    rw [hpow]
    exact if_pos ⟨Int.natCast_nonneg n, by exact_mod_cast h⟩
  unfold nat Json.nat
  rw [hread]
  rfl

namespace Decode

theorem mapM_map_eq_ok {γ : Type} (write : α → γ) (read : γ → Except Fault α) (l : List α)
    (h : ∀ x ∈ l, read (write x) = .ok x) : (l.map write).mapM read = .ok l := by
  induction l with
  | nil => rfl
  | cons x rest ih =>
    obtain ⟨hx, hrest⟩ := List.forall_mem_cons.mp h
    rw [List.map_cons, List.mapM_cons, hx, ih hrest]
    rfl

theorem listOf_map (write : α → Json) (decode : Decode α) (l : List α)
    (h : ∀ x ∈ l, decode .json (write x) = .ok x) : listOf decode .json (.arr (l.map write)) = .ok l :=
  mapM_map_eq_ok write (decode .json) l h

theorem dictOf_map (write : α → Json) (decode : Decode α) (d : Dict α)
    (h : ∀ entry ∈ d.toList, decode .json (write entry.2) = .ok entry.2) :
    dictOf decode .json (.ofDict (d.map write)) = .ok d := by
  have hsorted : (d.map write).toList.mergeSort (fun m n => m.1 ≤ n.1) = (d.map write).toList :=
    List.mergeSort_of_pairwise ((d.map write).sorted.imp fun hlt => decide_eq_true (le_of_lt hlt))
  have hentries : (d.map write).toList.mapM (fun m => (decode .json m.2).map fun a => (m.1, a)) = .ok d.toList := by
    refine mapM_map_eq_ok (fun entry : String × α => (entry.1, write entry.2)) _ d.toList fun entry hentry => ?_
    rw [h entry hentry]
    rfl
  unfold dictOf Json.ofDict
  simp only [hsorted, hentries]
  exact congrArg Except.ok d.ofList_toList

theorem dictOf_self (decode : Decode Json) (d : Dict Json) (h : ∀ entry ∈ d.toList, decode .json entry.2 = .ok entry.2) :
    dictOf decode .json (.ofDict d) = .ok d := by
  have hsame : d.map (fun j => j) = d := by
    obtain ⟨entries, _⟩ := d
    simp only [Dict.map, List.map_id']
  have hread := dictOf_map (fun j => j) decode d h
  rwa [hsame] at hread

theorem nullable_of_ne_null (decode : Decode α) (format : Format) {value : Json} (h : value ≠ .null) :
    nullable decode format value = (decode format value).map some := by
  unfold nullable
  split
  · exact absurd rfl h
  · rfl

end Decode

/-- A value is written as something that is read as the value, and that is not `null`. -/
structure Faithful (write : β → Json) (decode : Decode β) (x : β) : Prop where
  read : decode .json (write x) = .ok x
  ne_null : write x ≠ .null

namespace Faithful

theorem string (s : String) : Faithful .str .string s := ⟨rfl, nofun⟩

theorem bool (b : Bool) : Faithful .bool .bool b := ⟨rfl, nofun⟩

theorem texts (names : List String) : Faithful .texts (.listOf .string) names :=
  ⟨Decode.listOf_map .str .string names fun _ _ => rfl, nofun⟩

theorem nat {bits n : Nat} (h : n < 2 ^ bits) : Faithful .nat (.nat bits) n := ⟨Decode.nat_eq_ok h, nofun⟩

theorem float {x : Double} (h : x.isFinite = true) : Faithful .float .float x := ⟨Decode.float_eq_ok h, nofun⟩

theorem nullable {write : β → Json} {decode : Decode β} {x : β} (h : Faithful write decode x) :
    Decode.nullable decode .json (write x) = .ok (some x) := by
  rw [Decode.nullable_of_ne_null decode .json h.ne_null, h.read]
  rfl

end Faithful

/-! ## Fields -/

/-- The fields are read as that value. -/
def Fields.Gives (parts : Parts) (fields : Fields α) (a : α) : Prop := fields.result? parts = some a

namespace Fields.Gives

variable {parts : Parts}

theorem map (g : α → β) {fields : Fields α} {a : α} (h : Gives parts fields a) : Gives parts (g <$> fields) (g a) := by
  unfold Gives
  rw [map_result?, h, Option.map_some]

theorem seq {f : Fields (α → β)} {fields : Fields α} {g : α → β} {a : α} (hf : Gives parts f g)
    (h : Gives parts fields a) : Gives parts (f <*> fields) (g a) := by
  unfold Gives
  rw [seq_result?, hf, h]
  rfl

section Json

variable (hformat : parts.format = .json) {name : String}
include hformat

theorem part {decode : Decode α} {value : Json} {a : α} (missing : Option α) (hvalue : parts.value? name = some value)
    (hread : decode .json value = .ok a) : Gives parts (.part name decode missing) a := by
  unfold Gives
  rw [part_result?, hvalue, hformat]
  exact (toOption_eq_some _ a).mpr hread

theorem required {write : β → Json} {decode : Decode β} {x : β} (hvalue : parts.value? name = some (write x))
    (h : Faithful write decode x) : Gives parts (.required name decode) x :=
  part hformat none hvalue h.read

theorem optional {write : β → Json} {decode : Decode β} {field : Option β}
    (hvalue : parts.value? name = field.map write) (h : ∀ x ∈ field, Faithful write decode x) :
    Gives parts (.optional name decode) field := by
  cases field with
  | none =>
    unfold Gives Fields.optional
    rw [part_result?, hvalue]
    rfl
  | some x => exact part hformat _ hvalue (h x rfl).nullable

end Json

end Fields.Gives

end Admission
