import Mathlib
import Admission.Proofs.Shards.Victim

/-!
# Shards beyond their capacity

A full shard in which all is pinned grows when a key is added. Otherwise a full shard gives up one entry
for the new one, and only one. So what it has grown to it keeps when the pins are released: a shard is
bounded by the most that was pinned at any time when a key was added, and not by what is pinned now.
-/

namespace Admission

variable {κ ν ρ : Type}

/-! ## One shard -/

namespace Shard

def pinned (s : Shard κ ν) (rank : ν → Option Nat) : Nat :=
  s.slots.countP fun slot => (rank slot.value).isNone

theorem pinned_le (s : Shard κ ν) (rank : ν → Option Nat) : s.pinned rank ≤ s.slots.length :=
  List.countP_le_length

theorem pinned_eq_length_iff (s : Shard κ ν) (rank : ν → Option Nat) :
    s.pinned rank = s.slots.length ↔ s.victim? rank = none := by
  rw [pinned, List.countP_eq_length, Shards.victim?_eq_none]
  simp only [Option.isNone_iff_eq_none]

variable [DecidableEq κ]

theorem length_without (s : Shard κ ν) (hkeys : (s.slots.map (·.key)).Nodup) (slot : Slot κ ν)
    (hslot : slot ∈ s.slots) : (s.without slot.key).length + 1 = s.slots.length := by
  have hone : s.slots.countP (fun other => other.key == slot.key) = 1 := by
    have hcount := List.count_eq_one_of_mem hkeys (List.mem_map_of_mem hslot)
    rwa [List.count_eq_countP, List.countP_map] at hcount
  have hsplit := List.length_eq_countP_add_countP (fun other => other.key == slot.key) (l := s.slots)
  rw [hone] at hsplit
  rw [without, ← List.countP_eq_length_filter, hsplit, Nat.add_comm]
  congr 1
  exact List.countP_congr fun other _ => by simp

variable (s : Shard κ ν) (capacity : Nat) (rank : ν → Option Nat) (key : κ) (init : ν) (f : ν → ρ × ν)

theorem length_upsert_of_none (hkeys : (s.slots.map (·.key)).Nodup) (h : s.find? key = none) :
    (s.upsert capacity rank key init f).2.slots.length =
      if s.slots.length < capacity ∨ s.pinned rank = s.slots.length then s.slots.length + 1
      else s.slots.length := by
  rw [upsert_of_none _ _ _ _ _ _ h]
  simp only [List.length_append, List.length_singleton, pinned_eq_length_iff]
  unfold vacate
  by_cases hroom : s.slots.length < capacity
  · rw [if_pos hroom, if_pos (Or.inl hroom)]
  · rw [if_neg hroom]
    cases hvictim : s.victim? rank with
    | none => simp
    | some slot =>
      have hmem := (s.victim?_spec rank slot hvictim).1
      simp [hroom, s.length_without hkeys slot hmem]

end Shard

/-! ## The whole map -/

namespace Shards

variable [DecidableEq κ]

def heldBeside (m : Shards κ ν) (key : κ) : Nat := (m.shard key).slots.length

def pinnedBeside (m : Shards κ ν) (rank : ν → Option Nat) (key : κ) : Nat := (m.shard key).pinned rank

/-- The operation puts a new key into the shard of this one. -/
def addsBeside (m : Shards κ ν) (op : MapOp κ ν ρ) (key : κ) : Bool :=
  op.adds?.any fun other => (m.get? other).isNone && m.index other == m.index key

/-- The most entries of the shard of a key that were pinned just before an operation put a new key
there. -/
def peakPinned (m : Shards κ ν) (key : κ) : List ((ν → Option Nat) × MapOp κ ν ρ) → Nat
  | [] => 0
  | (rank, op) :: ops =>
    max (if m.addsBeside op key then m.pinnedBeside rank key else 0)
      ((m.apply rank op).2.peakPinned key ops)

theorem apply_layout (m : Shards κ ν) (rank : ν → Option Nat) (op : MapOp κ ν ρ) :
    (m.apply rank op).2.perShard = m.perShard ∧ (m.apply rank op).2.index = m.index := by
  have hset : ∀ key s, (m.setShard key s).perShard = m.perShard ∧ (m.setShard key s).index = m.index := by
    intro key s
    refine ⟨rfl, funext fun other => ?_⟩
    rw [index, index, count_setShard]
    rfl
  cases op with
  | upsert | modify | insert | remove => exact hset _ _
  | removeLeast measure =>
    simp only [apply, removeLeast]
    split
    · exact hset _ _
    · exact ⟨rfl, rfl⟩
  | removeWhere meant => exact ⟨rfl, funext fun key => by simp [apply, removeWhere, index, count]⟩
  | contains | size | isEmpty | entries => exact ⟨rfl, rfl⟩

variable (m : Shards κ ν) (rank : ν → Option Nat)

theorem heldBeside_apply_of_adds (h : m.Sound) (op : MapOp κ ν ρ) (key : κ)
    (hadds : op.adds? = some key) (hnew : m.get? key = none) :
    (m.apply rank op).2.heldBeside key =
      if m.heldBeside key < m.perShard ∨ m.pinnedBeside rank key = m.heldBeside key
      then m.heldBeside key + 1 else m.heldBeside key := by
  have hnone : (m.shard key).find? key = none := by simpa [get?] using hnew
  have hshard : ∀ s, (m.setShard key s).heldBeside key = s.slots.length := by
    intro s
    rw [heldBeside, shard_setShard _ _ h, if_pos rfl]
  have hlength := fun (σ : Type) init (f : ν → σ × ν) =>
    (m.shard key).length_upsert_of_none m.perShard rank key init f (h.keys _ (m.shard_mem key h)) hnone
  cases op with
  | upsert k init f =>
    cases hadds
    exact (hshard _).trans (hlength ρ init f)
  | insert k value =>
    cases hadds
    exact (hshard _).trans (hlength Unit value fun _ => ((), value))
  | modify | remove | contains | removeLeast | removeWhere | size | isEmpty | entries => cases hadds

theorem heldBeside_apply_of_not_adds (h : m.Sound) (op : MapOp κ ν ρ) (key : κ)
    (hadds : m.addsBeside op key = false) : (m.apply rank op).2.heldBeside key ≤ m.heldBeside key := by
  have hset : ∀ other s, (m.index key = m.index other → s.slots.length ≤ (m.shard key).slots.length) →
      (m.setShard other s).heldBeside key ≤ m.heldBeside key := by
    intro other s hs
    rw [heldBeside, shard_setShard _ _ h]
    split
    · next hindex => exact hs hindex
    · exact le_refl _
  have hsame : ∀ other, m.index key = m.index other → m.shard key = m.shard other := by
    intro other hindex
    simp only [shard, hindex]
  have hupsert : ∀ (σ : Type) other init (f : ν → σ × ν), op.adds? = some other →
      (m.upsert rank other init f).2.heldBeside key ≤ m.heldBeside key := by
    intro σ other init f hother
    refine hset other ((m.shard other).upsert m.perShard rank other init f).2 fun hindex => ?_
    have hsome : ((m.shard other).find? other).isSome := by
      rw [addsBeside, hother, Option.any_some, hindex, beq_self_eq_true, Bool.and_true,
        Option.isNone_eq_false_iff, get?, Option.isSome_map] at hadds
      exact hadds
    obtain ⟨slot, hslot⟩ := Option.isSome_iff_exists.mp hsome
    rw [hsame other hindex, Shard.upsert_length_of_some _ _ _ _ _ _ slot hslot]
  cases op with
  | upsert other init f => exact hupsert ρ other init f rfl
  | insert other value => exact hupsert Unit other value (fun _ => ((), value)) rfl
  | modify other f =>
    refine hset other ((m.shard other).modify other f).2 fun hindex => ?_
    have hkeys := congrArg List.length ((m.shard other).modify_keys other f)
    rw [List.length_map, List.length_map] at hkeys
    rw [hsame other hindex, hkeys]
  | remove | contains | removeLeast | removeWhere | size | isEmpty | entries =>
    rw [heldBeside, shard, (apply_layout m rank _).2]
    cases hnext : (m.apply rank _).2.shards[m.index key]? with
    | none => exact Nat.zero_le _
    | some s =>
      obtain ⟨old, hold, -, hslots⟩ := m.apply_of_not_uses rank _ rfl _ s hnext
      rw [heldBeside, shard, hold]
      exact hslots.length_le

/-! ## Runs -/

theorem after_perShard (ops : List ((ν → Option Nat) × MapOp κ ν ρ)) :
    (m.after ops).perShard = m.perShard := by
  induction ops generalizing m with
  | nil => rfl
  | cons op ops ih => exact (ih _).trans (apply_layout m op.1 op.2).1

theorem heldBeside_apply_le (h : m.Sound) (op : MapOp κ ν ρ) (key : κ) (bound : Nat)
    (hbound : m.heldBeside key ≤ max m.perShard (1 + bound)) :
    (m.apply rank op).2.heldBeside key ≤ max m.perShard
      (1 + max bound (if m.addsBeside op key then m.pinnedBeside rank key else 0)) := by
  cases hadds : m.addsBeside op key with
  | false =>
    have hle := m.heldBeside_apply_of_not_adds rank h op key hadds
    simp only [Bool.false_eq_true, if_false]
    omega
  | true =>
    obtain ⟨other, hother, hnew⟩ := (Option.any_eq_true _ _).mp hadds
    rw [Bool.and_eq_true, Option.isNone_iff_eq_none, beq_iff_eq] at hnew
    have hheld := m.heldBeside_apply_of_adds rank h op other hother hnew.1
    have hsame : ∀ m' : Shards κ ν, m'.index = m.index → m'.shard other = m'.shard key := by
      intro m' hindex
      simp only [shard, hindex, hnew.2]
    simp only [heldBeside, pinnedBeside, hsame _ (apply_layout m rank op).2, hsame m rfl] at hheld hbound ⊢
    rw [if_pos trivial]
    split_ifs at hheld with hgrows
    · omega
    · omega

theorem heldBeside_after_le (h : m.Sound) (ops : List ((ν → Option Nat) × MapOp κ ν ρ)) (key : κ)
    (bound : Nat) (hbound : m.heldBeside key ≤ max m.perShard (1 + bound)) :
    (m.after ops).heldBeside key ≤ max m.perShard (1 + max bound (m.peakPinned key ops)) := by
  induction ops generalizing m bound with
  | nil => simpa [after, peakPinned] using hbound
  | cons op ops ih =>
    have hstep := m.heldBeside_apply_le op.1 h op.2 key bound hbound
    have hrest := ih (m.apply op.1 op.2).2 (m.apply_sound op.1 op.2 h) _
      (by rw [(apply_layout m op.1 op.2).1]; exact hstep)
    rw [(apply_layout m op.1 op.2).1, max_assoc] at hrest
    exact hrest

/-- A key that is added makes no shard smaller. It leaves its shard within the capacity, or within the
pinned entries and itself, exactly if the shard was within that before. In every run the shard stays
within the capacity, or within itself and the most that was pinned at any time when a key was added. -/
theorem heldBeside_adding_iff (assign : κ → Nat) (capacity count : Nat)
    (ops : List ((ν → Option Nat) × MapOp κ ν ρ)) (rank : ν → Option Nat) (op : MapOp κ ν ρ) (key : κ)
    (hadds : op.adds? = some key) (hnew : ((new assign capacity count).after ops).get? key = none) :
    let m := (new assign capacity count).after ops
    let m' := (m.apply rank op).2
    let bound := max m.perShard (1 + m.pinnedBeside rank key)
    m.heldBeside key ≤ m'.heldBeside key ∧
      (m'.heldBeside key ≤ bound ↔ m.heldBeside key ≤ bound) ∧
      m'.heldBeside key ≤
        max m.perShard (1 + (new assign capacity count).peakPinned key (ops ++ [(rank, op)])) := by
  intro m m' bound
  have hempty := new_sound (ν := ν) assign capacity count
  have hsound : m.Sound := after_sound _ hempty ops
  have hpinned : m.pinnedBeside rank key ≤ m.heldBeside key := (m.shard key).pinned_le rank
  have hheld := m.heldBeside_apply_of_adds rank hsound op key hadds hnew
  have hstart := new_withinRoom (ν := ν) assign capacity count _ (shard_mem _ key hempty)
  have hrun := heldBeside_after_le _ hempty (ops ++ [(rank, op)]) key 0 (hstart.trans (le_max_left _ _))
  rw [after_append_singleton, Nat.zero_max, ← after_perShard _ ops] at hrun
  refine ⟨?_, ?_, hrun⟩
  · rw [hheld]
    split_ifs <;> omega
  · rw [hheld]
    split_ifs with hgrows
    · exact iff_of_true (by omega) (by omega)
    · exact Iff.rfl

def pinnedUntilZero (v : Nat) : Option Nat := if v = 0 then some 0 else none

def twoPinned : List ((Nat → Option Nat) × MapOp Nat Nat Unit) :=
  [1, 2].map fun key => (pinnedUntilZero, .insert key 5)

theorem heldBeside_adding_iff_twoPinned :
    let m : Shards Nat Nat := (new (fun _ => 0) 1 1).after twoPinned
    m.get? 3 = none ∧ m.heldBeside 3 = 2 ∧ m.pinnedBeside pinnedUntilZero 3 = 2 ∧
      (m.apply pinnedUntilZero (.insert 3 0 : MapOp Nat Nat Unit)).2.heldBeside 3 ≤ 3 := by
  intro m
  have hnew : m.get? 3 = none := by decide
  have hheld : m.heldBeside 3 = 2 := by decide
  have hpinned : m.pinnedBeside pinnedUntilZero 3 = 2 := by decide
  have hroom : m.perShard = 1 := by decide
  obtain ⟨-, hbound, -⟩ :=
    heldBeside_adding_iff (fun _ => 0) 1 1 twoPinned pinnedUntilZero (.insert 3 0) 3 rfl hnew
  refine ⟨hnew, hheld, hpinned, hbound.mpr ?_⟩
  show m.heldBeside 3 ≤ max m.perShard (1 + m.pinnedBeside pinnedUntilZero 3)
  rw [hheld, hpinned, hroom]
  decide

def twoReleased : List ((Nat → Option Nat) × MapOp Nat Nat Unit) :=
  twoPinned ++ [1, 2].map fun key => (pinnedUntilZero, .modify key fun _ => ((), 0))

/-- Nothing is pinned any more, and the shard holds one entry more than it has room for. -/
theorem heldBeside_outlasts_pins :
    let m : Shards Nat Nat := (new (fun _ => 0) 1 1).after twoReleased
    let m' := (m.apply pinnedUntilZero (.insert 3 0 : MapOp Nat Nat Unit)).2
    m.get? 3 = none ∧ m.pinnedBeside pinnedUntilZero 3 = 0 ∧ m'.heldBeside 3 = 2 ∧
      ¬ m'.heldBeside 3 ≤ max m.perShard (1 + m.pinnedBeside pinnedUntilZero 3) := by
  decide

end Shards

end Admission
