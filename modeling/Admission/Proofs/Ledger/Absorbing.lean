import Mathlib
import Admission.Proofs.Dict
import Admission.Proofs.Ledger.Step
import Admission.Proofs.Shards.Entries

/-!
# Taking in stored spending

A ledger takes in the rows of a snapshot one by one. As long as none displaces another, every row ends up
as it was with all that is stored under its key taken in, in order.
-/

namespace Admission.Ledger

variable {α : Type} [Amount α]

/-! ## One row -/

variable (l : Ledger α) (key : String) (stored : StoredRow α)

theorem absorbRow_sound (h : l.rows.Sound) : (l.absorbRow key stored).rows.Sound := by
  rw [absorbRow_eq_put]
  exact l.put_sound key _ l.global h

theorem get?_absorbRow_self (h : l.rows.Sound) :
    (l.absorbRow key stored).rows.get? key = some ((l.row key).absorb stored) := by
  rw [absorbRow_eq_put]
  exact l.get?_put_self key _ l.global h

theorem get?_absorbRow_of_ne (other : String) (h : l.rows.Sound) (hne : other ≠ key) :
    (l.absorbRow key stored).rows.get? other =
      if (l.displaced? key).map (·.1) = some other then none else l.rows.get? other := by
  rw [absorbRow_eq_put]
  exact l.get?_put_of_ne key other _ l.global h hne

theorem get?_absorbRow_of_room (h : l.rows.Sound) (hroom : l.displaced? key = none) (other : String)
    (hne : other ≠ key) : (l.absorbRow key stored).rows.get? other = l.rows.get? other := by
  rw [l.get?_absorbRow_of_ne key stored other h hne, hroom, Option.map_none,
    if_neg (Option.some_ne_none other).symm]

theorem index_absorbRow (other : String) :
    (l.absorbRow key stored).rows.index other = l.rows.index other := by
  unfold Shards.index
  rw [absorbRow_eq]
  congr 1
  exact l.rows.count_setShard key _

theorem perShard_absorbRow : (l.absorbRow key stored).rows.perShard = l.rows.perShard := rfl

/-! ## Many rows -/

theorem absorbRows_sound (entries : List (String × StoredRow α)) (h : l.rows.Sound) :
    (l.absorbRows entries).rows.Sound := by
  unfold absorbRows
  induction entries generalizing l with
  | nil => exact h
  | cons entry rest ih => exact ih _ (l.absorbRow_sound entry.1 entry.2 h)

theorem absorbRows_eq (entries : List (String × StoredRow α)) :
    l.absorbRows entries = { l with rows := (l.absorbRows entries).rows } := by
  unfold absorbRows
  induction entries generalizing l with
  | nil => rfl
  | cons entry rest ih => exact ih (l.absorbRow entry.1 entry.2)

theorem index_absorbRows (entries : List (String × StoredRow α)) (key : String) :
    (l.absorbRows entries).rows.index key = l.rows.index key := by
  unfold absorbRows
  induction entries generalizing l with
  | nil => rfl
  | cons entry rest ih => exact (ih _).trans (l.index_absorbRow entry.1 entry.2 key)

theorem perShard_absorbRows (entries : List (String × StoredRow α)) :
    (l.absorbRows entries).rows.perShard = l.rows.perShard := by
  unfold absorbRows
  induction entries generalizing l with
  | nil => rfl
  | cons entry rest ih => exact ih (l.absorbRow entry.1 entry.2)

/-- No row is displaced while rows are taken in. -/
def Roomy (l : Ledger α) : List (String × StoredRow α) → Prop
  | [] => True
  | entry :: rest => l.displaced? entry.1 = none ∧ (l.absorbRow entry.1 entry.2).Roomy rest

instance decidableRoomy (l : Ledger α) : (entries : List (String × StoredRow α)) → Decidable (l.Roomy entries)
  | [] => isTrue trivial
  | entry :: rest =>
    have : Decidable (l.displaced? entry.1 = none) :=
      decidable_of_iff ((l.displaced? entry.1).isNone = true) Option.isNone_iff_eq_none
    have := decidableRoomy (l.absorbRow entry.1 entry.2) rest
    inferInstanceAs (Decidable (_ ∧ _))

/-- What is stored under a key, in order. -/
def storedUnder (key : String) (entries : List (String × StoredRow α)) : List (StoredRow α) :=
  (entries.filter fun entry => entry.1 == key).map (·.2)

omit [Amount α] in
theorem mem_storedUnder (entries : List (String × StoredRow α)) :
    stored ∈ storedUnder key entries ↔ (key, stored) ∈ entries := by
  simp [storedUnder]

omit [Amount α] in
theorem storedUnder_toList (d : Dict (StoredRow α)) : storedUnder key d.toList = (d.get? key).toList := by
  have hlength : (storedUnder key d.toList).length ≤ 1 := by
    have hcount := List.nodup_iff_count_le_one.mp d.keys_nodup key
    rw [Dict.keys, List.count, List.countP_map] at hcount
    rw [storedUnder, List.length_map, ← List.countP_eq_length_filter]
    exact hcount
  have hmem := fun stored => mem_storedUnder key stored d.toList
  rcases hlist : storedUnder key d.toList with _ | ⟨only, _ | _⟩
  · have hnone : d.get? key = none := by
      rw [Option.eq_none_iff_forall_not_mem]
      intro stored hstored
      have hin := (hmem stored).mpr (d.mem_of_get? key stored hstored)
      rw [hlist] at hin
      cases hin
    rw [hnone, Option.toList_none]
  · have hin : only ∈ storedUnder key d.toList := by rw [hlist]; exact List.mem_cons_self
    rw [d.get?_of_mem key only ((hmem only).mp hin), Option.toList_some]
  · rw [hlist] at hlength
    simp at hlength

theorem get?_absorbRows (entries : List (String × StoredRow α)) (h : l.rows.Sound)
    (hroom : l.Roomy entries) :
    (l.absorbRows entries).rows.get? key =
      if storedUnder key entries = [] then l.rows.get? key
      else some ((storedUnder key entries).foldl Row.absorb (l.row key)) := by
  induction entries generalizing l with
  | nil => rfl
  | cons entry rest ih =>
    refine (ih (l.absorbRow entry.1 entry.2) (l.absorbRow_sound _ _ h) hroom.2).trans ?_
    by_cases hkey : entry.1 = key
    · subst hkey
      have hself := l.get?_absorbRow_self entry.1 entry.2 h
      have hunder : storedUnder entry.1 (entry :: rest) = entry.2 :: storedUnder entry.1 rest := by
        simp [storedUnder]
      rw [hunder, if_neg (List.cons_ne_nil _ _), List.foldl_cons, row, hself, Option.getD_some]
      split
      · next hnil => rw [hnil, List.foldl_nil]
      · rfl
    · have hother := l.get?_absorbRow_of_room entry.1 entry.2 h hroom.1 key (Ne.symm hkey)
      have hunder : storedUnder key (entry :: rest) = storedUnder key rest := by
        simp [storedUnder, hkey]
      rw [hunder, row, hother]
      rfl

theorem row_absorbRows (entries : List (String × StoredRow α)) (h : l.rows.Sound)
    (hroom : l.Roomy entries) :
    (l.absorbRows entries).row key = (storedUnder key entries).foldl Row.absorb (l.row key) := by
  rw [row, l.get?_absorbRows key entries h hroom]
  split
  · next hnil =>
    rw [hnil]
    rfl
  · rfl

/-! ## Whole snapshots -/

theorem merge_eq (s : Snapshot α) (hhour : s.resetHour = l.settings.resetHour) :
    l.merge s = .ok ((l.absorbRows s.identities.toList).absorbGlobal s.global) := by
  simp only [merge, hhour, if_true]
  rfl

/-! ## A new ledger -/

/-- Where there is room for a whole snapshot, a new ledger gets its rows and no others. -/
theorem get?_absorbRows_new (assign : String → Nat) (settings : LedgerSettings α) (d : Dict (StoredRow α))
    (hroom : (new assign settings).Roomy d.toList) :
    ((new assign settings).absorbRows d.toList).rows.get? key = (d.get? key).map Row.empty.absorb := by
  have hrow : (new assign settings).row key = .empty := by
    rw [row, new_get?, Option.getD_none]
  rw [get?_absorbRows _ key d.toList (Shards.new_sound _ _ _) hroom, storedUnder_toList, hrow, new_get?]
  cases d.get? key <;> rfl

end Admission.Ledger
