import Mathlib
import Admission.Proofs.Shards.PlainMap

/-!
# Stamps and last uses

A slot carries the tick at which its shard was last used for it. Ticks are counted in every shard for
itself, and a use that finds nothing counts too. Still the stamps of a shard are always different, and
in the order in which its entries were last used.
-/

namespace Admission

variable {κ ν ρ : Type}

/-! ## Operations and uses -/

namespace MapOp

def uses? : MapOp κ ν ρ → Option κ
  | upsert key _ _ | modify key _ | insert key _ => some key
  | remove _ | contains _ | removeLeast _ | removeWhere _ | size | isEmpty | entries => none

/-- The key that an operation adds if it is not there. -/
def adds? : MapOp κ ν ρ → Option κ
  | upsert key _ _ | insert key _ => some key
  | modify .. | remove _ | contains _ | removeLeast _ | removeWhere _ | size | isEmpty | entries => none

end MapOp

variable [DecidableEq κ]

/-- How many operations there were up to the last one that used a key; 0 if none did. -/
def lastUse (ops : List (MapOp κ ν ρ)) (key : κ) : Nat :=
  (ops.reverse.dropWhile fun op => op.uses? ≠ some key).length

theorem lastUse_append_singleton (ops : List (MapOp κ ν ρ)) (op : MapOp κ ν ρ) (key : κ) :
    lastUse (ops ++ [op]) key =
      if op.uses? = some key then ops.length + 1 else lastUse ops key := by
  unfold lastUse
  rw [List.reverse_append, List.reverse_singleton, List.singleton_append, List.dropWhile_cons]
  split_ifs with hskip huse huse
  · simp [huse] at hskip
  · rfl
  · simp
  · simp [huse] at hskip

theorem lastUse_le (ops : List (MapOp κ ν ρ)) (key : κ) : lastUse ops key ≤ ops.length := by
  rw [← List.length_reverse]
  exact (List.dropWhile_suffix _).length_le

namespace Shards

def after (m : Shards κ ν) (ops : List ((ν → Option Nat) × MapOp κ ν ρ)) : Shards κ ν :=
  ops.foldl (fun m op => (m.apply op.1 op.2).2) m

theorem after_append_singleton (m : Shards κ ν) (ops : List ((ν → Option Nat) × MapOp κ ν ρ))
    (op : (ν → Option Nat) × MapOp κ ν ρ) :
    m.after (ops ++ [op]) = ((m.after ops).apply op.1 op.2).2 := by
  simp [after]

end Shards

/-! ## One shard -/

namespace Shard

/-- The stamps of a shard are not ahead of its tick, differ, and are in the order of last uses. -/
structure InOrder (s : Shard κ ν) (used : κ → Nat) : Prop where
  bounded : ∀ slot ∈ s.slots, slot.lastUsed ≤ s.tick
  distinct : ∀ a ∈ s.slots, ∀ b ∈ s.slots, a.lastUsed = b.lastUsed → a.key = b.key
  order : ∀ a ∈ s.slots, ∀ b ∈ s.slots, a.lastUsed < b.lastUsed ↔ used a.key < used b.key

/-- The slots after a use of a key: one that is stamped for it, and old ones of other keys. -/
def UseOf (s : Shard κ ν) (key : κ) (s' : Shard κ ν) : Prop :=
  s'.tick = s.tick + 1 ∧ ∀ slot ∈ s'.slots,
    (slot.key = key ∧ slot.lastUsed = s.tick + 1) ∨ (slot ∈ s.slots ∧ slot.key ≠ key)

omit [DecidableEq κ] in
theorem InOrder.sublist {s s' : Shard κ ν} {used : κ → Nat} (h : s.InOrder used)
    (htick : s'.tick = s.tick) (hslots : s'.slots.Sublist s.slots) : s'.InOrder used where
  bounded slot hslot := htick ▸ h.bounded slot (hslots.subset hslot)
  distinct a ha b hb := h.distinct a (hslots.subset ha) b (hslots.subset hb)
  order a ha b hb := h.order a (hslots.subset ha) b (hslots.subset hb)

omit [DecidableEq κ] in
theorem InOrder.congr {s : Shard κ ν} {used used' : κ → Nat} (h : s.InOrder used)
    (hused : ∀ slot ∈ s.slots, used' slot.key = used slot.key) : s.InOrder used' where
  bounded := h.bounded
  distinct := h.distinct
  order a ha b hb := by
    rw [hused a ha, hused b hb]
    exact h.order a ha b hb

omit [DecidableEq κ] in
theorem InOrder.use {s s' : Shard κ ν} {used used' : κ → Nat} {key : κ} (h : s.InOrder used)
    (huse : s.UseOf key s') (hlate : ∀ other, used other < used' key)
    (hused : ∀ other, other ≠ key → used' other = used other) : s'.InOrder used' := by
  obtain ⟨htick, hslots⟩ := huse
  have hbound : ∀ slot ∈ s.slots, slot.lastUsed < s.tick + 1 := fun slot hslot =>
    Nat.lt_succ_of_le (h.bounded slot hslot)
  refine ⟨?_, ?_, ?_⟩
  · intro slot hslot
    rw [htick]
    rcases hslots slot hslot with ⟨-, hstamp⟩ | ⟨hold, -⟩
    · exact hstamp.le
    · exact (hbound slot hold).le
  · intro a ha b hb heq
    rcases hslots a ha with ⟨hkeya, hstampa⟩ | ⟨holda, -⟩ <;>
      rcases hslots b hb with ⟨hkeyb, hstampb⟩ | ⟨holdb, -⟩
    · exact hkeya.trans hkeyb.symm
    · exact absurd (heq.symm.trans hstampa) (hbound b holdb).ne
    · exact absurd (heq.trans hstampb) (hbound a holda).ne
    · exact h.distinct a holda b holdb heq
  · intro a ha b hb
    rcases hslots a ha with ⟨hkeya, hstampa⟩ | ⟨holda, hnea⟩ <;>
      rcases hslots b hb with ⟨hkeyb, hstampb⟩ | ⟨holdb, hneb⟩
    · rw [hkeya, hkeyb, hstampa, hstampb]
      simp
    · rw [hkeya, hstampa, hused _ hneb]
      exact iff_of_false (hbound b holdb).not_gt (hlate b.key).not_gt
    · rw [hkeyb, hstampb, hused _ hnea]
      exact iff_of_true (hbound a holda) (hlate a.key)
    · rw [hused _ hnea, hused _ hneb]
      exact h.order a holda b holdb

omit [DecidableEq κ] in
theorem InOrder.nodup {s : Shard κ ν} {used : κ → Nat} (h : s.InOrder used)
    (hkeys : (s.slots.map (·.key)).Nodup) : (s.slots.map (·.lastUsed)).Nodup := by
  refine hkeys.of_map.map_on fun a ha b hb heq => ?_
  exact List.inj_on_of_nodup_map hkeys ha hb (h.distinct a ha b hb heq)

theorem useOf_touched (s : Shard κ ν) (key : κ) (value : ν) :
    s.UseOf key ⟨s.slots.map (touched key value (s.tick + 1)), s.tick + 1⟩ := by
  refine ⟨rfl, fun slot hslot => ?_⟩
  obtain ⟨old, hold, rfl⟩ := List.mem_map.mp hslot
  unfold touched
  split_ifs with hkey
  · exact Or.inl ⟨rfl, rfl⟩
  · exact Or.inr ⟨hold, hkey⟩

theorem useOf_upsert (s : Shard κ ν) (capacity : Nat) (rank : ν → Option Nat) (key : κ) (init : ν)
    (f : ν → ρ × ν) : s.UseOf key (s.upsert capacity rank key init f).2 := by
  cases hfind : s.find? key with
  | some slot =>
    rw [upsert_of_some _ _ _ _ _ _ slot hfind]
    exact s.useOf_touched key _
  | none =>
    rw [upsert_of_none _ _ _ _ _ _ hfind]
    refine ⟨rfl, fun slot hslot => ?_⟩
    rcases List.mem_append.mp hslot with hold | hnew
    · have hmem := mem_vacate s capacity rank slot hold
      exact Or.inr ⟨hmem, (s.find?_eq_none key).mp hfind slot hmem⟩
    · rw [List.mem_singleton.mp hnew]
      exact Or.inl ⟨rfl, rfl⟩

theorem useOf_modify (s : Shard κ ν) (key : κ) (f : ν → ρ × ν) : s.UseOf key (s.modify key f).2 := by
  cases hfind : s.find? key with
  | some slot =>
    rw [modify_of_some _ _ _ slot hfind]
    exact s.useOf_touched key _
  | none =>
    rw [modify_of_none _ _ _ hfind]
    exact ⟨rfl, fun slot hslot => Or.inr ⟨hslot, (s.find?_eq_none key).mp hfind slot hslot⟩⟩

end Shard

/-! ## The whole map -/

namespace Shards

omit [DecidableEq κ] in
theorem getElem?_index (m : Shards κ ν) (key : κ) (hlt : m.index key < m.shards.length) :
    m.shards[m.index key]? = some (m.shard key) := by
  rw [shard, List.getElem?_eq_getElem hlt, Option.getD_some]

theorem apply_of_uses (m : Shards κ ν) (rank : ν → Option Nat) (op : MapOp κ ν ρ) (key : κ)
    (huses : op.uses? = some key) :
    ∃ s, (m.shard key).UseOf key s ∧ (m.apply rank op).2 = m.setShard key s := by
  cases op with
  | upsert k init f =>
    cases huses
    exact ⟨_, (m.shard _).useOf_upsert m.perShard rank _ init f, rfl⟩
  | modify k f =>
    cases huses
    exact ⟨_, (m.shard _).useOf_modify _ f, rfl⟩
  | insert k value =>
    cases huses
    exact ⟨_, (m.shard _).useOf_upsert m.perShard rank _ value fun _ => ((), value), rfl⟩
  | remove | contains | removeLeast | removeWhere | size | isEmpty | entries => cases huses

theorem apply_of_not_uses (m : Shards κ ν) (rank : ν → Option Nat) (op : MapOp κ ν ρ)
    (huses : op.uses? = none) (i : Nat) (s : Shard κ ν)
    (hs : (m.apply rank op).2.shards[i]? = some s) :
    ∃ old, m.shards[i]? = some old ∧ s.tick = old.tick ∧ s.slots.Sublist old.slots := by
  have hremove : ∀ key, (m.remove key).2.shards[i]? = some s →
      ∃ old, m.shards[i]? = some old ∧ s.tick = old.tick ∧ s.slots.Sublist old.slots := by
    intro key hs
    simp only [remove, setShard, List.getElem?_set] at hs
    split_ifs at hs with hi hlt
    · cases hs
      subst hi
      exact ⟨_, m.getElem?_index key hlt, rfl, List.filter_sublist⟩
    · exact ⟨s, hs, rfl, .refl _⟩
  cases op with
  | upsert | modify | insert => cases huses
  | remove key => exact hremove key hs
  | removeLeast measure =>
    have hleast : (m.removeLeast measure.before).2.shards[i]? = some s := hs
    unfold removeLeast at hleast
    split at hleast
    · exact hremove _ hleast
    · exact ⟨s, hleast, rfl, .refl _⟩
  | removeWhere meant =>
    obtain ⟨old, hold, rfl⟩ := Option.map_eq_some_iff.mp ((List.getElem?_map ..).symm.trans hs)
    exact ⟨old, hold, rfl, List.filter_sublist⟩
  | contains | size | isEmpty | entries => exact ⟨s, hs, rfl, .refl _⟩

theorem apply_sound (m : Shards κ ν) (rank : ν → Option Nat) (op : MapOp κ ν ρ) (h : m.Sound) :
    (m.apply rank op).2.Sound := by
  cases op with
  | upsert key init f => exact m.upsert_sound rank key init f h
  | modify key f => exact m.modify_sound key f h
  | insert key value => exact m.upsert_sound rank key value (fun _ => ((), value)) h
  | remove key => exact m.remove_sound h key
  | removeLeast measure => exact (m.removeLeast_plain h measure (ρ := ρ)).2
  | removeWhere meant => exact m.removeWhere_sound meant h
  | contains | size | isEmpty | entries => exact h

theorem after_sound (m : Shards κ ν) (h : m.Sound) (ops : List ((ν → Option Nat) × MapOp κ ν ρ)) :
    (m.after ops).Sound := by
  induction ops using List.reverseRecOn with
  | nil => exact h
  | append_singleton ops op ih =>
    rw [after_append_singleton]
    exact apply_sound _ op.1 op.2 ih

/-- Every shard stamps its slots in the order of last uses. -/
def InOrder (m : Shards κ ν) (used : κ → Nat) : Prop :=
  ∀ (i : Nat) (s : Shard κ ν), m.shards[i]? = some s → s.InOrder used

omit [DecidableEq κ] in
theorem InOrder.use {m : Shards κ ν} {used used' : κ → Nat} {key : κ} {s : Shard κ ν}
    (h : m.InOrder used) (hm : m.Sound) (huse : (m.shard key).UseOf key s)
    (hlate : ∀ other, used other < used' key) (hused : ∀ other, other ≠ key → used' other = used other) :
    (m.setShard key s).InOrder used' := by
  intro i s' hs'
  simp only [setShard, List.getElem?_set] at hs'
  split_ifs at hs' with hi hlt
  · cases hs'
    exact (h _ _ (m.getElem?_index key (m.index_lt key hm))).use huse hlate hused
  · refine (h i s' hs').congr fun slot hslot => hused slot.key ?_
    rintro rfl
    exact hi (hm.placed i s' hs' slot hslot)

theorem InOrder.apply {m : Shards κ ν} {ops : List (MapOp κ ν ρ)} (h : m.InOrder (lastUse ops))
    (hm : m.Sound) (rank : ν → Option Nat) (op : MapOp κ ν ρ) :
    (m.apply rank op).2.InOrder (lastUse (ops ++ [op])) := by
  cases huses : op.uses? with
  | some key =>
    obtain ⟨s, huse, hnext⟩ := m.apply_of_uses rank op key huses
    rw [hnext]
    apply h.use hm huse
    · intro other
      rw [lastUse_append_singleton, if_pos huses]
      exact Nat.lt_succ_of_le (lastUse_le ops other)
    · intro other hne
      rw [lastUse_append_singleton, huses, if_neg]
      rintro ⟨⟩
      exact hne rfl
  | none =>
    intro i s hs
    obtain ⟨old, hold, htick, hslots⟩ := m.apply_of_not_uses rank op huses i s hs
    refine ((h i old hold).sublist htick hslots).congr fun slot _ => ?_
    rw [lastUse_append_singleton, huses, if_neg (by simp)]

/-- Whatever is done to an empty map, its stamps tell the order of last uses. -/
theorem after_inOrder (assign : κ → Nat) (capacity count : Nat)
    (ops : List ((ν → Option Nat) × MapOp κ ν ρ)) :
    ((new assign capacity count).after ops).InOrder (lastUse (ops.map (·.2))) := by
  induction ops using List.reverseRecOn with
  | nil =>
    intro i s hs
    rw [List.eq_of_mem_replicate (List.mem_of_getElem? hs)]
    exact ⟨by simp, by simp, by simp⟩
  | append_singleton ops op ih =>
    rw [after_append_singleton, List.map_append]
    exact ih.apply (after_sound _ (new_sound assign capacity count) ops) op.1 op.2

/-! ## Reached maps -/

def Reached (m : Shards κ ν) : Prop :=
  ∃ assign capacity count, ∃ ops : List ((ν → Option Nat) × MapOp κ ν Unit),
    m = (new assign capacity count).after ops

theorem Reached.apply {m : Shards κ ν} (h : m.Reached) (rank : ν → Option Nat) (op : MapOp κ ν Unit) :
    (m.apply rank op).2.Reached := by
  obtain ⟨assign, capacity, count, ops, rfl⟩ := h
  exact ⟨assign, capacity, count, ops ++ [(rank, op)], (after_append_singleton _ ops (rank, op)).symm⟩

theorem Reached.exists_inOrder {m : Shards κ ν} (h : m.Reached) : m.Sound ∧ ∃ used, m.InOrder used := by
  obtain ⟨assign, capacity, count, ops, rfl⟩ := h
  exact ⟨after_sound _ (new_sound assign capacity count) ops, _, after_inOrder assign capacity count ops⟩

theorem modify_snd_congr {σ : Type} (m : Shards κ ν) (key : κ) (f : ν → ρ × ν) (g : ν → σ × ν)
    (h : ∀ v, (f v).2 = (g v).2) : (m.modify key f).2 = (m.modify key g).2 := by
  unfold modify
  cases hfind : (m.shard key).find? key with
  | some slot => simp [Shard.modify_of_some _ _ _ slot hfind, h]
  | none => simp [Shard.modify_of_none _ _ _ hfind]

end Shards

end Admission
