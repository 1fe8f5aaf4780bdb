import Mathlib
import Admission.Proofs.Shards.Removal

/-!
# A bounded map without pressure is a plain map

As long as no new key meets a full shard, the map answers like one plain map from keys to values, and
holds what that map holds. Only the choice among several least entries may depend on the shards.
-/

namespace Admission

/-- A strict order of values in which values that are not before each other count as equal. -/
structure Measure (ν : Type) where
  before : ν → ν → Bool
  asymm : ∀ a b, before a b = true → before b a = false
  trans : ∀ a b c, before a b = false → before b c = false → before a c = false

def Measure.by {ν τ : Type} [LinearOrder τ] (f : ν → τ) : Measure ν where
  before a b := decide (f a < f b)
  asymm _ _ h := decide_eq_false (lt_asymm (of_decide_eq_true h))
  trans _ _ _ hab hbc := decide_eq_false
    (not_lt_of_ge ((not_lt.mp (of_decide_eq_false hbc)).trans (not_lt.mp (of_decide_eq_false hab))))

inductive MapOp (κ ν ρ : Type) where
  | upsert (key : κ) (init : ν) (f : ν → ρ × ν)
  | modify (key : κ) (f : ν → ρ × ν)
  | insert (key : κ) (value : ν)
  | remove (key : κ)
  | contains (key : κ)
  | removeLeast (measure : Measure ν)
  | removeWhere (meant : ν → Bool)
  | size
  | isEmpty
  | entries

inductive MapAnswer (κ ν ρ : Type) where
  | result (r : ρ)
  | result? (r : Option ρ)
  | value? (v : Option ν)
  | truth (b : Bool)
  | least (entry : Option (κ × ν))
  | entries (entries : List (κ × ν))
  | count (n : Nat)
deriving DecidableEq

variable {κ ν ρ : Type}

inductive MapAnswer.Same : MapAnswer κ ν ρ → MapAnswer κ ν ρ → Prop
  | refl (answer : MapAnswer κ ν ρ) : MapAnswer.Same answer answer
  | entries (one other : List (κ × ν)) (h : one.Perm other) :
    MapAnswer.Same (.entries one) (.entries other)

def MapAnswer.pick? : MapAnswer κ ν ρ → Option (Option (κ × ν))
  | .least entry => some entry
  | _ => none

/-! ## Plain maps -/

/-- The entries are those of the map, each of them once. -/
def Lists (entries : List (κ × ν)) (map : κ → Option ν) : Prop :=
  (entries.map (·.1)).Nodup ∧ ∀ key v, (key, v) ∈ entries ↔ map key = some v

theorem Lists.perm {one other : List (κ × ν)} {map : κ → Option ν} (h : Lists one map)
    (h' : Lists other map) : one.Perm other := by
  apply (List.perm_ext_iff_of_nodup h.1.of_map h'.1.of_map).mpr
  rintro ⟨key, v⟩
  rw [h.2, h'.2]

namespace PlainMap

variable [DecidableEq κ]

/-- What a plain map may answer to an operation, and what it is afterwards. -/
inductive Step (map : κ → Option ν) : MapOp κ ν ρ → MapAnswer κ ν ρ → (κ → Option ν) → Prop
  | upsert (key : κ) (init : ν) (f : ν → ρ × ν) :
    Step map (.upsert key init f) (.result (f ((map key).getD init)).1)
      (Function.update map key (some (f ((map key).getD init)).2))
  | modify (key : κ) (f : ν → ρ × ν) :
    Step map (.modify key f) (.result? ((map key).map fun v => (f v).1))
      (Function.update map key ((map key).map fun v => (f v).2))
  | insert (key : κ) (value : ν) :
    Step map (.insert key value) (.value? (map key)) (Function.update map key (some value))
  | remove (key : κ) : Step map (.remove key) (.value? (map key)) (Function.update map key none)
  | contains (key : κ) : Step map (.contains key) (.truth (map key).isSome) map
  | removeLeast_none (measure : Measure ν) (h : ∀ key, map key = none) :
    Step map (.removeLeast measure) (.least none) map
  -- Any entry may go that no other is before.
  | removeLeast_some (measure : Measure ν) (key : κ) (v : ν) (h : map key = some v)
    (hleast : ∀ other w, map other = some w → measure.before w v = false) :
    Step map (.removeLeast measure) (.least (some (key, v))) (Function.update map key none)
  | removeWhere (meant : ν → Bool) (taken : List (κ × ν))
    (h : Lists taken fun key => (map key).filter meant) :
    Step map (.removeWhere meant) (.entries taken) fun key => (map key).filter fun v => !meant v
  | size (entries : List (κ × ν)) (h : Lists entries map) : Step map .size (.count entries.length) map
  | isEmpty (b : Bool) (h : b = true ↔ ∀ key, map key = none) : Step map .isEmpty (.truth b) map
  | entries (entries : List (κ × ν)) (h : Lists entries map) : Step map .entries (.entries entries) map

inductive Run : (κ → Option ν) → List (MapOp κ ν ρ) → List (MapAnswer κ ν ρ) → (κ → Option ν) → Prop
  | nil (map : κ → Option ν) : Run map [] [] map
  | cons {map next last : κ → Option ν} {op : MapOp κ ν ρ} {answer : MapAnswer κ ν ρ}
    {ops : List (MapOp κ ν ρ)} {answers : List (MapAnswer κ ν ρ)} (first : Step map op answer next)
    (rest : Run next ops answers last) : Run map (op :: ops) (answer :: answers) last

variable {map next next' last last' : κ → Option ν}

theorem Step.unique {op : MapOp κ ν ρ} {answer answer' : MapAnswer κ ν ρ} (h : Step map op answer next)
    (h' : Step map op answer' next') (hpick : answer.pick? = answer'.pick?) :
    answer.Same answer' ∧ next = next' := by
  cases h with
  | upsert | modify | insert | remove | contains =>
    cases h'
    exact ⟨.refl _, rfl⟩
  | removeLeast_none measure hnone =>
    cases h' with
    | removeLeast_none => exact ⟨.refl _, rfl⟩
    | removeLeast_some => cases hpick
  | removeLeast_some measure key v hv hleast =>
    cases h' with
    | removeLeast_none => cases hpick
    | removeLeast_some =>
      cases hpick
      exact ⟨.refl _, rfl⟩
  | removeWhere meant taken ht =>
    cases h' with
    | removeWhere _ taken' ht' => exact ⟨.entries _ _ (ht.perm ht'), rfl⟩
  | size entries hentries =>
    cases h' with
    | size entries' hentries' =>
      rw [(hentries.perm hentries').length_eq]
      exact ⟨.refl _, rfl⟩
  | isEmpty b hb =>
    cases h' with
    | isEmpty b' hb' =>
      rw [Bool.eq_iff_iff.mpr (hb.trans hb'.symm)]
      exact ⟨.refl _, rfl⟩
  | entries entries hentries =>
    cases h' with
    | entries entries' hentries' => exact ⟨.entries _ _ (hentries.perm hentries'), rfl⟩

theorem Run.unique {ops : List (MapOp κ ν ρ)} {answers answers' : List (MapAnswer κ ν ρ)}
    (h : Run map ops answers last) (h' : Run map ops answers' last')
    (hpicks : answers.map MapAnswer.pick? = answers'.map MapAnswer.pick?) :
    List.Forall₂ MapAnswer.Same answers answers' ∧ last = last' := by
  induction h generalizing answers' with
  | nil =>
    cases h'
    exact ⟨.nil, rfl⟩
  | cons first rest ih =>
    cases h' with
    | cons first' rest' =>
      rw [List.map_cons, List.map_cons, List.cons.injEq] at hpicks
      obtain ⟨hsame, rfl⟩ := first.unique first' hpicks.1
      obtain ⟨hrest, rfl⟩ := ih rest' hpicks.2
      exact ⟨.cons hsame hrest, rfl⟩

end PlainMap

/-! ## Maps in shards -/

namespace Shards

variable [DecidableEq κ]

def apply (rank : ν → Option Nat) (m : Shards κ ν) : MapOp κ ν ρ → MapAnswer κ ν ρ × Shards κ ν
  | .upsert key init f => (m.upsert rank key init f).map .result id
  | .modify key f => (m.modify key f).map .result? id
  | .insert key value => (m.insert rank key value).map .value? id
  | .remove key => (m.remove key).map .value? id
  | .contains key => (.truth (m.contains key), m)
  | .removeLeast measure => (m.removeLeast measure.before).map .least id
  | .removeWhere meant => (m.removeWhere meant).map .entries id
  | .size => (.count m.size, m)
  | .isEmpty => (.truth m.isEmpty, m)
  | .entries => (.entries m.toList, m)

def perform (rank : ν → Option Nat) (m : Shards κ ν) :
    List (MapOp κ ν ρ) → List (MapAnswer κ ν ρ) × Shards κ ν
  | [] => ([], m)
  | op :: ops =>
    let (answer, next) := m.apply rank op
    let (answers, last) := next.perform rank ops
    (answer :: answers, last)

def HasRoom (m : Shards κ ν) (key : κ) : Prop :=
  (m.get? key).isSome ∨ (m.keysBeside key).length < m.perShard

/-- The operation adds no new key to a full shard. -/
def Fits (m : Shards κ ν) : MapOp κ ν ρ → Prop
  | .upsert key _ _ | .insert key _ => m.HasRoom key
  | _ => True

/-- No operation adds a new key to a shard that is full by then. -/
def Unpressed (rank : ν → Option Nat) (m : Shards κ ν) : List (MapOp κ ν ρ) → Prop
  | [] => True
  | op :: ops => m.Fits op ∧ (m.apply rank op).2.Unpressed rank ops

instance (m : Shards κ ν) (key : κ) : Decidable (m.HasRoom key) := inferInstanceAs (Decidable (_ ∨ _))

instance (m : Shards κ ν) (op : MapOp κ ν ρ) : Decidable (m.Fits op) :=
  match op with
  | .upsert key _ _ | .insert key _ => inferInstanceAs (Decidable (m.HasRoom key))
  | .modify .. | .remove _ | .contains _ | .removeLeast _ | .removeWhere _ | .size | .isEmpty
  | .entries => isTrue trivial

instance decidableUnpressed (rank : ν → Option Nat) (m : Shards κ ν) :
    (ops : List (MapOp κ ν ρ)) → Decidable (m.Unpressed rank ops)
  | [] => isTrue trivial
  | op :: ops =>
    have := decidableUnpressed rank (m.apply rank op).2 ops
    inferInstanceAs (Decidable (_ ∧ _))

variable (rank : ν → Option Nat) (m : Shards κ ν) (h : m.Sound)

include h

theorem toList_lists : Lists m.toList m.get? :=
  ⟨m.toList_keys_nodup h, m.mem_toList h⟩

theorem get?_upsert (key : κ) (init : ν) (f : ν → ρ × ν) (hroom : m.HasRoom key) :
    (m.upsert rank key init f).2.get? =
      Function.update m.get? key (some (f ((m.get? key).getD init)).2) := by
  have hnone : m.displaced? rank key = none :=
    (m.displaced?_eq_none_iff rank h key).mpr (hroom.imp_right Or.inl)
  funext other
  by_cases he : other = key
  · subst he
    rw [get?_upsert_self _ _ _ _ _ h, Function.update_self]
  · rw [get?_upsert_of_ne _ _ _ _ _ h other he, hnone, Function.update_of_ne he]
    rfl

theorem get?_modify_eq (key : κ) (f : ν → ρ × ν) :
    (m.modify key f).2.get? = Function.update m.get? key ((m.get? key).map fun v => (f v).2) := by
  funext other
  rw [get?_modify m key f h, Function.update_apply]

theorem get?_remove_eq (key : κ) : (m.remove key).2.get? = Function.update m.get? key none := by
  funext other
  rw [get?_remove m h, Function.update_apply]

theorem removeLeast_plain (measure : Measure ν) :
    PlainMap.Step m.get? (.removeLeast measure : MapOp κ ν ρ) (.least (m.removeLeast measure.before).1)
      (m.removeLeast measure.before).2.get? ∧ (m.removeLeast measure.before).2.Sound := by
  unfold removeLeast
  cases hleast : firstLeast? (fun a b : κ × ν => measure.before a.2 b.2) m.toList with
  | none =>
    refine ⟨.removeLeast_none measure ?_, h⟩
    rw [← m.isEmpty_iff h, isEmpty, beq_iff_eq, size_eq_length, List.length_eq_zero_iff]
    by_contra hne
    have hsome := firstLeast?_isSome (fun a b : κ × ν => measure.before a.2 b.2) m.toList hne
    rw [hleast] at hsome
    cases hsome
  | some entry =>
    obtain ⟨key, v⟩ := entry
    refine ⟨?_, m.remove_sound h key⟩
    dsimp only
    rw [m.get?_remove_eq h key]
    apply PlainMap.Step.removeLeast_some
    · exact (m.mem_toList h key v).mp (firstLeast?_mem hleast)
    · intro other w hw
      have hmem := (m.mem_toList h other w).mpr hw
      exact firstLeast?_least _ (fun a b => measure.asymm a.2 b.2) (fun a b c => measure.trans a.2 b.2 c.2)
        m.toList (key, v) hleast (other, w) hmem

theorem apply_plain (op : MapOp κ ν ρ) (hfits : m.Fits op) :
    PlainMap.Step m.get? op (m.apply rank op).1 (m.apply rank op).2.get? ∧ (m.apply rank op).2.Sound := by
  cases op with
  | upsert key init f =>
    refine ⟨?_, m.upsert_sound rank key init f h⟩
    simp only [apply, Prod.map_fst, Prod.map_snd, id_eq]
    rw [m.upsert_fst, m.get?_upsert rank h key init f hfits]
    exact .upsert key init f
  | modify key f =>
    refine ⟨?_, m.modify_sound key f h⟩
    simp only [apply, Prod.map_fst, Prod.map_snd, id_eq]
    rw [m.modify_fst, m.get?_modify_eq h key f]
    exact .modify key f
  | insert key value =>
    refine ⟨?_, m.upsert_sound rank key value (fun _ => ((), value)) h⟩
    have hsnd : (m.insert rank key value).2.get? = Function.update m.get? key (some value) :=
      m.get?_upsert rank h key value (fun _ => ((), value)) hfits
    simp only [apply, Prod.map_fst, Prod.map_snd, id_eq]
    rw [hsnd]
    exact .insert key value
  | remove key =>
    refine ⟨?_, m.remove_sound h key⟩
    simp only [apply, Prod.map_fst, Prod.map_snd, id_eq]
    rw [m.get?_remove_eq h key]
    exact .remove key
  | contains key =>
    refine ⟨?_, h⟩
    have hfound : m.contains key = (m.get? key).isSome := by simp [contains, get?]
    simp only [apply, hfound]
    exact .contains key
  | removeLeast measure => exact m.removeLeast_plain h measure
  | removeWhere meant =>
    refine ⟨?_, m.removeWhere_sound meant h⟩
    have hsnd : (m.removeWhere meant).2.get? = fun key => (m.get? key).filter fun v => !meant v := by
      funext key
      exact m.get?_removeWhere meant h key
    simp only [apply, Prod.map_fst, Prod.map_snd, id_eq]
    rw [hsnd]
    apply PlainMap.Step.removeWhere
    refine ⟨(m.toList_keys_nodup h).sublist (List.filter_sublist.map _), fun key v => ?_⟩
    rw [removeWhere, List.mem_filter, m.mem_toList h, Option.filter_eq_some_iff]
  | size =>
    refine ⟨?_, h⟩
    simp only [apply, size_eq_length]
    exact .size m.toList (m.toList_lists h)
  | isEmpty => exact ⟨.isEmpty _ (m.isEmpty_iff h), h⟩
  | entries => exact ⟨.entries _ (m.toList_lists h), h⟩

theorem perform_plain (ops : List (MapOp κ ν ρ)) (hops : m.Unpressed rank ops) :
    PlainMap.Run m.get? ops (m.perform rank ops).1 (m.perform rank ops).2.get? ∧
      (m.perform rank ops).2.Sound := by
  induction ops generalizing m with
  | nil => exact ⟨.nil _, h⟩
  | cons op ops ih =>
    obtain ⟨hstep, hsound⟩ := m.apply_plain rank h op hops.1
    obtain ⟨hrun, hlast⟩ := ih _ hsound hops.2
    exact ⟨.cons hstep hrun, hlast⟩

end Shards

/-- Where the keys of a map go, how much it holds, and what it gives up first. -/
structure Layout (κ ν : Type) where
  assign : κ → Nat
  capacity : Nat
  count : Nat
  rank : ν → Option Nat

namespace Layout

variable [DecidableEq κ]

def empty (layout : Layout κ ν) : Shards κ ν := Shards.new layout.assign layout.capacity layout.count

def answers (layout : Layout κ ν) (ops : List (MapOp κ ν ρ)) : List (MapAnswer κ ν ρ) :=
  (layout.empty.perform layout.rank ops).1

def contents (layout : Layout κ ν) (ops : List (MapOp κ ν ρ)) : List (κ × ν) :=
  (layout.empty.perform layout.rank ops).2.toList

def Unpressed (layout : Layout κ ν) (ops : List (MapOp κ ν ρ)) : Prop :=
  layout.empty.Unpressed layout.rank ops

instance (layout : Layout κ ν) (ops : List (MapOp κ ν ρ)) : Decidable (layout.Unpressed ops) :=
  inferInstanceAs (Decidable (layout.empty.Unpressed layout.rank ops))

theorem run_plain (layout : Layout κ ν) (ops : List (MapOp κ ν ρ)) (h : layout.Unpressed ops) :
    ∃ last, PlainMap.Run (fun _ => none) ops (layout.answers ops) last ∧
      Lists (layout.contents ops) last := by
  have hsound : layout.empty.Sound := Shards.new_sound layout.assign layout.capacity layout.count
  have hnew : layout.empty.get? = fun _ => none := by
    funext key
    exact Shards.get?_new layout.assign layout.capacity layout.count key
  obtain ⟨hrun, hlast⟩ := layout.empty.perform_plain layout.rank hsound ops h
  rw [hnew] at hrun
  exact ⟨_, hrun, Shards.toList_lists _ hlast⟩

/-- Without pressure the answers and the contents are those of a plain map. Any other layout without
pressure that takes the same entries as the least gives the same answers and holds the same. -/
theorem answers_plain (layout : Layout κ ν) (ops : List (MapOp κ ν ρ)) (h : layout.Unpressed ops) :
    (∃ last, PlainMap.Run (fun _ => none) ops (layout.answers ops) last ∧
      Lists (layout.contents ops) last) ∧
    ∀ other : Layout κ ν, other.Unpressed ops →
      (layout.answers ops).map MapAnswer.pick? = (other.answers ops).map MapAnswer.pick? →
        List.Forall₂ MapAnswer.Same (layout.answers ops) (other.answers ops) ∧
          (layout.contents ops).Perm (other.contents ops) := by
  refine ⟨layout.run_plain ops h, ?_⟩
  intro other hother hpicks
  obtain ⟨last, hrun, hlists⟩ := layout.run_plain ops h
  obtain ⟨last', hrun', hlists'⟩ := other.run_plain ops hother
  obtain ⟨hsame, rfl⟩ := hrun.unique hrun' hpicks
  exact ⟨hsame, hlists.perm hlists'⟩

def spread : Layout Nat Nat := ⟨id, 6, 3, fun _ => some 0⟩
def together : Layout Nat Nat := ⟨fun _ => 0, 3, 1, some⟩

def everyOp : List (MapOp Nat Nat Bool) :=
  [.upsert 4 10 fun n => (n == 10, n + 1), .insert 2 7, .insert 7 30, .insert 2 8, .contains 2,
    .modify 7 (fun n => (n == 30, n + 1)), .removeLeast (.by id), .insert 9 12, .size,
    .removeWhere (· < 12), .remove 7, .isEmpty, .entries]

theorem answers_plain_twoLayouts :
    (spread.Unpressed everyOp ∧ together.Unpressed everyOp) ∧
      (∃ last, PlainMap.Run (fun _ => none) everyOp (spread.answers everyOp) last ∧
        Lists (spread.contents everyOp) last) ∧
      List.Forall₂ MapAnswer.Same (spread.answers everyOp) (together.answers everyOp) ∧
      (spread.contents everyOp).Perm (together.contents everyOp) := by
  have hspread : spread.Unpressed everyOp := by decide
  have htogether : together.Unpressed everyOp := by decide
  obtain ⟨hplain, hsame⟩ := answers_plain spread everyOp hspread
  exact ⟨⟨hspread, htogether⟩, hplain, hsame together htogether (by decide)⟩

end Layout

end Admission
