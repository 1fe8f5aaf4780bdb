import Mathlib
import Admission.Proofs.Shards.Entries

/-!
# Taking entries out of a bounded map

A key that is taken out is not found, and every other key is found as before. The least entry is least
over all shards, and the entries that are meant go from all of them.
-/

namespace Admission.Shards

variable {κ ν ρ : Type} [DecidableEq κ]

/-! ## One key -/

theorem remove_sound (m : Shards κ ν) (h : m.Sound) (key : κ) : (m.remove key).2.Sound := by
  refine m.setShard_sound key h _ ?_ ?_
  · exact (h.keys _ (m.shard_mem key h)).sublist (List.filter_sublist.map _)
  · intro slot hs
    exact m.shard_placed key h slot (List.mem_filter.mp hs).1

theorem get?_remove (m : Shards κ ν) (h : m.Sound) (key other : κ) :
    (m.remove key).2.get? other = if other = key then none else m.get? other := by
  by_cases hi : m.index other = m.index key
  · have hsh : m.shard other = m.shard key := by simp only [shard, hi]
    simp only [remove, get?, shard_setShard _ _ h, hi, if_true, hsh, Shard.find?, Shard.without,
      List.find?_filter]
    split
    · next he =>
      rw [Option.map_eq_none_iff, List.find?_eq_none]
      intro slot _
      simp [he]
    · next he =>
      congr 2
      funext slot
      by_cases hk : slot.key = other
      · simp [hk, he]
      · simp [hk]
  · have hne : other ≠ key := fun he => hi (he ▸ rfl)
    simp only [remove, get?, shard_setShard _ _ h, hi, if_false, hne]

/-! ## All that is held -/

omit [DecidableEq κ] in
theorem toList_keys_nodup (m : Shards κ ν) (h : m.Sound) : (m.toList.map (·.1)).Nodup := by
  -- No key stands in two shards, because every key has one of its own.
  have hkeys : m.toList.map (·.1) = m.shards.flatMap fun s => s.slots.map (·.key) := by
    simp [toList, List.map_flatMap, Function.comp_def]
  rw [hkeys, List.nodup_flatMap]
  refine ⟨h.keys, List.pairwise_iff_getElem.mpr fun i j hi hj hlt => ?_⟩
  intro key hleft hright
  obtain ⟨left, hl, rfl⟩ := List.mem_map.mp hleft
  obtain ⟨right, hr, he⟩ := List.mem_map.mp hright
  have hi' := h.placed i _ (List.getElem?_eq_getElem hi) left hl
  have hj' := h.placed j _ (List.getElem?_eq_getElem hj) right hr
  rw [he] at hj'
  omega

omit [DecidableEq κ] in
theorem size_eq_length (m : Shards κ ν) : m.size = m.toList.length := by
  have hfold : ∀ (shards : List (Shard κ ν)) n,
      shards.foldl (fun n s => n + s.slots.length) n = n + (shards.map (·.slots.length)).sum := by
    intro shards
    induction shards with
    | nil => intro n; rfl
    | cons first rest ih =>
      intro n
      rw [List.foldl_cons, ih, List.map_cons, List.sum_cons, Nat.add_assoc]
  rw [size, hfold, toList, List.length_flatMap]
  simp

theorem isEmpty_iff (m : Shards κ ν) (h : m.Sound) : m.isEmpty = true ↔ ∀ key, m.get? key = none := by
  rw [isEmpty, beq_iff_eq, size_eq_length, List.length_eq_zero_iff, List.eq_nil_iff_forall_not_mem]
  constructor
  · intro hnil key
    rw [Option.eq_none_iff_forall_ne_some]
    exact fun v hv => hnil (key, v) ((m.mem_toList h key v).mpr hv)
  · rintro hnone ⟨key, v⟩ hmem
    have hv := (m.mem_toList h key v).mp hmem
    rw [hnone key] at hv
    cases hv

/-! ## The entries that are meant -/

variable (m : Shards κ ν) (meant : ν → Bool)

omit [DecidableEq κ] in
theorem removeWhere_sound (h : m.Sound) : (m.removeWhere meant).2.Sound := by
  have hcount : (m.removeWhere meant).2.count = m.count := by simp [removeWhere, count]
  refine ⟨hcount ▸ h.nonempty, ?_, ?_⟩
  · intro s hs
    obtain ⟨old, ho, rfl⟩ := List.mem_map.mp hs
    exact (h.keys old ho).sublist (List.filter_sublist.map _)
  · intro i s hs slot hslot
    obtain ⟨old, ho, rfl⟩ := Option.map_eq_some_iff.mp ((List.getElem?_map ..).symm.trans hs)
    have hplaced := h.placed i old ho slot (List.mem_filter.mp hslot).1
    rw [← hplaced, index, index, hcount]
    rfl

theorem get?_removeWhere (h : m.Sound) (key : κ) :
    (m.removeWhere meant).2.get? key = (m.get? key).filter fun v => !meant v := by
  have hlisted : ∀ v, (key, v) ∈ (m.removeWhere meant).2.toList ↔
      (key, v) ∈ m.toList ∧ meant v = false := by
    intro v
    simp only [toList, removeWhere, List.mem_flatMap, List.mem_map]
    grind
  apply Option.ext
  intro v
  rw [← mem_toList _ (m.removeWhere_sound meant h), hlisted, mem_toList m h]
  simp

end Admission.Shards
