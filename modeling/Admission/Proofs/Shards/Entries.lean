import Mathlib
import Admission.Proofs.Shards

/-!
# The entries of a bounded map

What is listed is what is found. A shard displaces nothing while it is not full or all in it is pinned, and
where nothing is pinned it never holds more than it has room for.
-/

namespace Admission.Shards

variable {κ ν ρ : Type} [DecidableEq κ]

/-! ## Listing -/

theorem get?_of_mem_shard (m : Shards κ ν) (h : m.Sound) (key : κ) (slot : Slot κ ν)
    (hs : slot ∈ (m.shard key).slots) :
    m.index slot.key = m.index key ∧ m.get? slot.key = some slot.value := by
  have hi := m.shard_placed key h slot hs
  have hsh : m.shard slot.key = m.shard key := by simp only [shard, hi]
  refine ⟨hi, ?_⟩
  rw [get?, hsh, (m.shard key).find?_of_mem (h.keys _ (m.shard_mem key h)) slot hs]
  rfl

theorem mem_toList (m : Shards κ ν) (h : m.Sound) (key : κ) (v : ν) :
    (key, v) ∈ m.toList ↔ m.get? key = some v := by
  unfold toList
  rw [List.mem_flatMap]
  constructor
  · rintro ⟨s, hs, hmem⟩
    obtain ⟨slot, hslot, heq⟩ := List.mem_map.mp hmem
    cases heq
    obtain ⟨i, hi⟩ := List.mem_iff_getElem?.mp hs
    have hshard : m.shard slot.key = s := by
      rw [shard, h.placed i s hi slot hslot, hi, Option.getD_some]
    exact (m.get?_of_mem_shard h slot.key slot (hshard ▸ hslot)).2
  · intro hget
    obtain ⟨slot, hslot, rfl⟩ := Option.map_eq_some_iff.mp hget
    obtain ⟨hmem, rfl⟩ := (m.shard key).find?_key key slot hslot
    exact ⟨_, m.shard_mem slot.key h, List.mem_map_of_mem hmem⟩

/-! ## Room -/

/-- The keys of the shard that a key belongs to. -/
def keysBeside (m : Shards κ ν) (key : κ) : List κ := (m.shard key).slots.map (·.key)

omit [DecidableEq κ] in
theorem keysBeside_nodup (m : Shards κ ν) (h : m.Sound) (key : κ) : (m.keysBeside key).Nodup :=
  h.keys _ (m.shard_mem key h)

theorem mem_keysBeside (m : Shards κ ν) (h : m.Sound) (key other : κ) :
    other ∈ m.keysBeside key ↔ m.index other = m.index key ∧ (m.get? other).isSome := by
  constructor
  · intro ho
    obtain ⟨slot, hs, rfl⟩ := List.mem_map.mp ho
    obtain ⟨hi, hget⟩ := m.get?_of_mem_shard h key slot hs
    exact ⟨hi, by rw [hget]; rfl⟩
  · rintro ⟨hi, hsome⟩
    have hsh : m.shard other = m.shard key := by simp only [shard, hi]
    rw [get?, hsh, Option.isSome_map] at hsome
    obtain ⟨slot, hslot⟩ := Option.isSome_iff_exists.mp hsome
    obtain ⟨hmem, rfl⟩ := (m.shard key).find?_key other slot hslot
    exact List.mem_map_of_mem hmem

omit [DecidableEq κ] in
theorem victim?_eq_none (s : Shard κ ν) (rank : ν → Option Nat) :
    s.victim? rank = none ↔ ∀ slot ∈ s.slots, rank slot.value = none := by
  have hranked : s.slots.filterMap (Shard.ranked rank) = [] ↔ ∀ slot ∈ s.slots, rank slot.value = none := by
    simp [List.filterMap_eq_nil_iff, Shard.ranked]
  rw [← hranked, Shard.victim?, Option.map_eq_none_iff]
  constructor
  · intro hnone
    by_contra hne
    have hsome := firstLeast?_isSome Shard.goesBefore _ hne
    rw [hnone] at hsome
    cases hsome
  · intro hnil
    rw [hnil]
    rfl

theorem displaced?_eq_none_iff (m : Shards κ ν) (rank : ν → Option Nat) (h : m.Sound) (key : κ) :
    m.displaced? rank key = none ↔ (m.get? key).isSome ∨ (m.keysBeside key).length < m.perShard ∨
      ∀ other v, m.index other = m.index key → m.get? other = some v → rank v = none := by
  have hall : (∀ slot ∈ (m.shard key).slots, rank slot.value = none) ↔
      ∀ other v, m.index other = m.index key → m.get? other = some v → rank v = none := by
    constructor
    · intro hslots other v hindex hget
      have hshard : m.shard other = m.shard key := by simp only [shard, hindex]
      obtain ⟨slot, hslot, rfl⟩ := Option.map_eq_some_iff.mp hget
      rw [hshard] at hslot
      exact hslots slot ((m.shard key).find?_key other slot hslot).1
    · intro hkeys slot hslot
      obtain ⟨hindex, hget⟩ := m.get?_of_mem_shard h key slot hslot
      exact hkeys slot.key slot.value hindex hget
  rw [displaced?, Option.map_eq_none_iff, Shard.displaced?, get?, Option.isSome_map, keysBeside,
    List.length_map, ← hall, ← victim?_eq_none, ← or_assoc]
  split
  · next hroom => exact iff_of_true rfl (Or.inl hroom)
  · next hfull => exact (or_iff_right hfull).symm

/-- No shard holds more than its room. -/
def WithinRoom (m : Shards κ ν) : Prop := ∀ s ∈ m.shards, s.slots.length ≤ m.perShard

omit [DecidableEq κ] in
theorem new_withinRoom (assign : κ → Nat) (capacity count : Nat) :
    (Shards.new assign capacity count : Shards κ ν).WithinRoom := by
  intro s hs
  rw [List.eq_of_mem_replicate hs]
  exact Nat.zero_le _

theorem WithinRoom.upsert {m : Shards κ ν} (hroom : m.WithinRoom) (h : m.Sound) (hpos : 0 < m.perShard)
    (rank : ν → Option Nat) (hrank : ∀ key v, m.get? key = some v → (rank v).isSome) (key : κ) (init : ν)
    (f : ν → ρ × ν) : (m.upsert rank key init f).2.WithinRoom := by
  -- A shard in which nothing is pinned gives up an entry rather than grow.
  intro s hs
  rcases List.mem_or_eq_of_mem_set hs with hs | rfl
  · exact hroom s hs
  · refine (m.shard key).upsert_length_le _ _ _ _ _ (hroom _ (m.shard_mem key h)) fun hfull => ?_
    obtain ⟨slot, hslot⟩ := List.exists_mem_of_length_pos (hfull ▸ hpos)
    exact ⟨slot, hslot, hrank slot.key slot.value (m.get?_of_mem_shard h key slot hslot).2⟩

theorem WithinRoom.countP_le {m : Shards κ ν} (hroom : m.WithinRoom) (h : m.Sound) (keys : List κ)
    (hnodup : keys.Nodup) (hfound : ∀ key ∈ keys, (m.get? key).isSome) (i : Nat) :
    (keys.countP fun key => m.index key = i) ≤ m.perShard := by
  rw [List.countP_eq_length_filter]
  cases hkeys : keys.filter (fun key => m.index key = i) with
  | nil => exact Nat.zero_le _
  | cons first rest =>
    rw [← hkeys]
    have hin : ∀ key ∈ keys.filter (fun key => m.index key = i), key ∈ keys ∧ m.index key = i := by
      intro key hkey
      rwa [List.mem_filter, decide_eq_true_eq] at hkey
    have hfirst := (hin first (hkeys ▸ List.mem_cons_self)).2
    have hsub : (keys.filter fun key => m.index key = i).Subperm (m.keysBeside first) := by
      refine (hnodup.filter _).subperm fun key hkey => ?_
      obtain ⟨hmem, hi⟩ := hin key hkey
      exact (mem_keysBeside m h first key).mpr ⟨hi.trans hfirst.symm, hfound key hmem⟩
    refine hsub.length_le.trans ?_
    rw [keysBeside, List.length_map]
    exact hroom _ (m.shard_mem first h)

end Admission.Shards
