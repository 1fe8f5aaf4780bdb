import Admission.Json.Decode
import Admission.Proofs.Dict

/-!
# Reading structures

What a structure is read as depends on the parts with the names of its fields alone. Parts with other
names may be there or not, and faults may be reported in another place.
-/

namespace Admission

variable {α β : Type}

/-! ## Fields -/

def Parts.value? (parts : Parts) (name : String) : Option Json :=
  (parts.named.find? fun entry => entry.1 == name).map (·.2)

/-- What is read from the parts, if there is no fault. -/
def Fields.result? (fields : Fields α) (parts : Parts) : Option α := (fields.run parts).toOption

theorem find?_zipIdx (named : List (String × Json)) (name : String) (start : Nat) :
    ((named.zipIdx start).find? fun entry => entry.1.1 == name).map (·.1) =
      named.find? fun entry => entry.1 == name := by
  induction named generalizing start with
  | nil => rfl
  | cons entry rest ih =>
    rw [List.zipIdx_cons, List.find?_cons, List.find?_cons]
    cases entry.1 == name with
    | true => rfl
    | false => exact ih (start + 1)

namespace Fields

variable (parts : Parts)

theorem part_result? (name : String) (decode : Decode α) (missing : Option α) :
    (part name decode missing).result? parts =
      match parts.value? name with
      | some value => (decode parts.format value).toOption
      | none => missing := by
  have hfind := find?_zipIdx parts.named name 0
  unfold result? part Parts.value?
  rw [← hfind]
  cases hpart : parts.named.zipIdx.find? fun entry => entry.1.1 == name with
  | none =>
    simp only [hpart]
    cases missing <;> rfl
  | some entry =>
    simp only [hpart]
    show (Except.mapError _ (decode parts.format entry.1.2)).toOption =
      (decode parts.format entry.1.2).toOption
    cases decode parts.format entry.1.2 <;> rfl

theorem map_result? (g : α → β) (fields : Fields α) :
    (g <$> fields).result? parts = (fields.result? parts).map g := by
  show ((fields.run parts).map g).toOption = ((fields.run parts).toOption).map g
  cases fields.run parts <;> rfl

theorem seq_result? (f : Fields (α → β)) (fields : Fields α) :
    (f <*> fields).result? parts = (f.result? parts).bind fun g => (fields.result? parts).map g := by
  show (merge (f.run parts) (fields.run parts)).toOption = _
  unfold result?
  cases f.run parts <;> cases fields.run parts <;> rfl

/-- Only the parts with these names count. -/
def Reads (names : List String) (fields : Fields α) : Prop :=
  ∀ parts parts' : Parts, parts.format = parts'.format →
    (∀ name ∈ names, parts.value? name = parts'.value? name) →
    fields.result? parts = fields.result? parts'

variable {names : List String}

theorem Reads.part (name : String) (decode : Decode α) (missing : Option α) (h : name ∈ names) :
    Reads names (.part name decode missing) := by
  intro parts parts' hformat hvalues
  rw [part_result?, part_result?, hformat, hvalues name h]

theorem Reads.map {fields : Fields α} (g : α → β) (h : Reads names fields) :
    Reads names (g <$> fields) := by
  intro parts parts' hformat hvalues
  rw [map_result?, map_result?, h parts parts' hformat hvalues]

theorem Reads.seq {f : Fields (α → β)} {fields : Fields α} (hf : Reads names f)
    (h : Reads names fields) : Reads names (f <*> fields) := by
  intro parts parts' hformat hvalues
  rw [seq_result?, seq_result?, hf parts parts' hformat hvalues, h parts parts' hformat hvalues]

/-- Whatever is read has a property. -/
def Makes (P : α → Prop) (fields : Fields α) : Prop :=
  ∀ parts a, fields.result? parts = some a → P a

theorem Makes.map {P : β → Prop} {fields : Fields α} (g : α → β) (h : ∀ a, P (g a)) :
    Makes P (g <$> fields) := by
  intro parts b hb
  rw [map_result?] at hb
  obtain ⟨a, -, rfl⟩ := Option.map_eq_some_iff.mp hb
  exact h a

theorem Makes.seq {P : β → Prop} {f : Fields (α → β)} {fields : Fields α}
    (hf : Makes (fun g => ∀ a, P (g a)) f) : Makes P (f <*> fields) := by
  intro parts b hb
  rw [seq_result?] at hb
  obtain ⟨g, hg, hb⟩ := Option.bind_eq_some_iff.mp hb
  obtain ⟨a, -, rfl⟩ := Option.map_eq_some_iff.mp hb
  exact hf parts g hg a

end Fields

/-! ## Members -/

/-- Two objects have the same members with these names. -/
def Agree (names : List String) (members members' : List (String × Json)) : Prop :=
  ∀ name ∈ names, (members.filter fun m => m.1 == name) = members'.filter fun m => m.1 == name

namespace Decode

variable {names : List String} {members members' : List (String × Json)}

theorem repeats_congr (h : Agree names members members') :
    repeats names members = repeats names members' := by
  unfold repeats
  rw [Bool.eq_iff_iff, List.any_eq_true, List.any_eq_true]
  constructor
  · rintro ⟨name, hname, htwice⟩
    exact ⟨name, hname, h name hname ▸ htwice⟩
  · rintro ⟨name, hname, htwice⟩
    exact ⟨name, hname, (h name hname).symm ▸ htwice⟩

theorem repeats_filter (p : String × Json → Bool) (h : repeats names members = false) :
    repeats names (members.filter p) = false := by
  unfold repeats at h ⊢
  rw [List.any_eq_false] at h ⊢
  intro name hname htwice
  refine h name hname (decide_eq_true (lt_of_lt_of_le (of_decide_eq_true htwice) ?_))
  exact (List.filter_sublist.filter _).length_le

theorem value?_ofList (format : Format) (members : List (String × Json)) (name : String) :
    Parts.value? ⟨format, (Dict.ofList members).toList⟩ name =
      ((members.filter fun m => m.1 == name).getLast?).map (·.2) :=
  Dict.get?_ofList members name

theorem openStructure_toOption (names : List String) (fields : Fields α) (format : Format) (j : Json) :
    (openStructure names fields format j).toOption =
      (Parts.of? names format j).bind fun parts =>
        if surplus names format j then none else fields.result? parts := by
  unfold openStructure structured Fields.result?
  cases Parts.of? names format j with
  | none => rfl
  | some parts =>
    cases hrun : fields.run parts with
    | error fault => simp [hrun, Except.toOption]
    | ok a => cases surplus names format j <;> simp [hrun, Except.toOption]

theorem openStructure_congr (fields : Fields α) (format : Format) (hfields : fields.Reads names)
    (h : Agree names members members') :
    (openStructure names fields format (.obj members)).toOption =
      (openStructure names fields format (.obj members')).toOption := by
  rw [openStructure_toOption, openStructure_toOption]
  simp only [Parts.of?, repeats_congr h, surplus]
  split
  · rfl
  · refine hfields _ _ rfl fun name hname => ?_
    rw [value?_ofList, value?_ofList, h name hname]

theorem tagged_toOption (tag : String) (structures : List (String × Decode α)) (format : Format)
    (members : List (String × Json)) (a : α) :
    (tagged tag structures format (.obj members)).toOption = some a ↔
      ∃ name entry, (members.filter fun m => m.1 == tag).map (·.2) = [.str name] ∧
        structures.find? (fun entry => entry.1 == name) = some entry ∧
        (entry.2 format (.obj (members.filter fun m => m.1 != tag))).toOption = some a := by
  simp only [tagged]
  split
  · next key name hfilter =>
    rw [hfilter]
    cases hfind : structures.find? fun entry => entry.1 == name with
    | none => simp [hfind, Except.toOption]
    | some entry =>
      obtain ⟨_, decode⟩ := entry
      simp [hfind]
  · next hfilter =>
    constructor
    · intro h
      cases h
    · rintro ⟨name, entry, htag, -, -⟩
      obtain ⟨m, hm, hname⟩ := List.map_eq_singleton_iff.mp htag
      exact absurd (hm.trans (by rw [← hname])) (hfilter m.1 name)

theorem tagged_arr_toOption (tag : String) (structures : List (String × Decode α)) (format : Format)
    (items : List Json) (a : α) :
    (tagged tag structures format (.arr items)).toOption = some a ↔
      ∃ name rest entry, items = .str name :: rest ∧
        structures.find? (fun entry => entry.1 == name) = some entry ∧
        (entry.2 format (.arr rest)).toOption = some a := by
  simp only [tagged]
  split
  · next hitems => cases hitems
  · next name rest hitems =>
    cases hitems
    cases hfind : structures.find? fun entry => entry.1 == name with
    | none => simp [hfind, Except.toOption]
    | some entry =>
      obtain ⟨_, decode⟩ := entry
      simp [hfind]
  · next hitems =>
    constructor
    · intro h
      cases h
    · rintro ⟨name, rest, entry, rfl, -, -⟩
      exact absurd rfl (hitems name rest)

end Decode

/-! ## Items -/

theorem value?_zip (format : Format) (names : List String) (hnames : names.Nodup) (items : List Json)
    (i : Nat) (h : i < names.length) :
    Parts.value? ⟨format, names.zip items⟩ names[i] = items[i]? := by
  induction names generalizing items i with
  | nil => cases h
  | cons name rest ih =>
    obtain ⟨hnew, hrest⟩ := List.nodup_cons.mp hnames
    cases items with
    | nil => rfl
    | cons item items =>
      cases i with
      | zero => simp [Parts.value?]
      | succ i =>
        have hi : i < rest.length := Nat.lt_of_succ_lt_succ h
        have hne : (name == rest[i]) = false :=
          beq_eq_false_iff_ne.mpr fun heq => hnew (heq ▸ List.getElem_mem hi)
        have hskip : Parts.value? ⟨format, (name :: rest).zip (item :: items)⟩ (name :: rest)[i + 1] =
            Parts.value? ⟨format, rest.zip items⟩ rest[i] := by
          simp [Parts.value?, hne]
        rw [hskip, ih hrest items i hi, List.getElem?_cons_succ]

/-! ## Parts of a value -/

namespace Json

theorem areUsable_iff (items : List Json) :
    areUsable items = true ↔ ∀ item ∈ items, item.isUsable = true := by
  induction items with
  | nil => simp [areUsable]
  | cons item rest ih => simp [areUsable, ih]

theorem haveUsable_iff (members : List (String × Json)) :
    haveUsable members = true ↔ ∀ m ∈ members, m.2.isUsable = true := by
  induction members with
  | nil => simp [haveUsable]
  | cons m rest ih => simp [haveUsable, ih]

theorem areWithin_iff (depth : Nat) (items : List Json) :
    areWithin depth items = true ↔ ∀ item ∈ items, item.isWithin depth = true := by
  induction items with
  | nil => simp [areWithin]
  | cons item rest ih => simp [areWithin, ih]

theorem haveWithin_iff (depth : Nat) (members : List (String × Json)) :
    haveWithin depth members = true ↔ ∀ m ∈ members, m.2.isWithin depth = true := by
  induction members with
  | nil => simp [haveWithin]
  | cons m rest ih => simp [haveWithin, ih]

theorem arr_readable (depth : Nat) (items some : List Json) (hsub : ∀ item ∈ some, item ∈ items)
    (h : ((arr items).isWithin depth && (arr items).isUsable) = true) :
    ((arr some).isWithin depth && (arr some).isUsable) = true := by
  rw [Bool.and_eq_true] at h ⊢
  obtain ⟨hwithin, husable⟩ := h
  refine ⟨?_, ?_⟩
  · cases depth with
    | zero => simp [isWithin] at hwithin
    | succ depth =>
      simp only [isWithin, areWithin_iff] at hwithin ⊢
      exact fun item hitem => hwithin item (hsub item hitem)
  · simp only [isUsable, areUsable_iff] at husable ⊢
    exact fun item hitem => husable item (hsub item hitem)

theorem obj_readable (depth : Nat) (members some : List (String × Json))
    (hsub : ∀ m ∈ some, m ∈ members)
    (h : ((obj members).isWithin depth && (obj members).isUsable) = true) :
    ((obj some).isWithin depth && (obj some).isUsable) = true := by
  rw [Bool.and_eq_true] at h ⊢
  obtain ⟨hwithin, husable⟩ := h
  refine ⟨?_, ?_⟩
  · cases depth with
    | zero => simp [isWithin] at hwithin
    | succ depth =>
      simp only [isWithin, haveWithin_iff] at hwithin ⊢
      exact fun m hm => hwithin m (hsub m hm)
  · simp only [isUsable, haveUsable_iff] at husable ⊢
    exact fun m hm => husable m (hsub m hm)

end Json

end Admission
