import Admission.Proofs.Ledger.Pinning

/-!
# A ledger stays small

In a ledger of one shard no reserve takes more rows than the ledger is to track: as long as there is room
for one more reservation, some row has none and can be displaced. Only stored spending could not be taken in
within the bound while rows are held.
-/

namespace Admission

namespace Shards

variable {κ ν : Type} [DecidableEq κ]

theorem exists_get?_of_length_lt (m : Shards κ ν) (h : m.Sound) (h1 : m.count = 1) (keys : List κ)
    (hlength : keys.length < m.size) : ∃ key v, m.get? key = some v ∧ key ∉ keys := by
  by_contra hall
  push Not at hall
  obtain ⟨s, hs⟩ := List.length_eq_one_iff.mp h1
  have hsize : m.size = s.slots.length := by
    unfold size
    rw [hs]
    simp
  have hnodup : (s.slots.map (·.key)).Nodup := h.keys s (by rw [hs]; exact List.mem_singleton_self s)
  have hsub : ∀ key ∈ s.slots.map (·.key), key ∈ keys := by
    intro key hkey
    obtain ⟨slot, hslot, rfl⟩ := List.mem_map.mp hkey
    have hshard : m.shard slot.key = s := by
      have hone := m.shards_eq_of_one slot.key h1
      rw [hs] at hone
      exact (List.singleton_inj.mp hone).symm
    refine hall slot.key slot.value ?_
    simp only [get?, hshard, s.find?_of_mem hnodup slot hslot, Option.map_some]
  have hle := (hnodup.subperm hsub).length_le
  rw [List.length_map] at hle
  omega

end Shards

namespace Ledger

variable {α : Type} [Amount α]

/-- The rows are in one shard and within its capacity. -/
structure Fits (capacity : Nat) (l : Ledger α) : Prop where
  one : l.rows.count = 1
  perShard : l.rows.perShard = capacity
  size : l.rows.size ≤ capacity

theorem Fits.put {capacity : Nat} {l : Ledger α} {held : List (Reservation α)}
    (h : Fits capacity l) (hpinned : Pinned l held) (key : String) (row global : Row α)
    (hroom : (l.rows.get? key).isSome ∨ held.length < capacity) :
    Fits capacity (l.put key row global) := by
  refine ⟨?_, h.perShard, ?_⟩
  · exact (l.rows.count_setShard key _).trans h.one
  cases hget : l.rows.get? key with
  | some old =>
    have hsize := l.rows.size_upsert_of_get? (Row.evictionRank l.clock) key row (fun _ => ((), row))
      hpinned.sound h.one (by rw [hget]; rfl)
    exact hsize.le.trans h.size
  | none =>
    rw [hget] at hroom
    have hlt : held.length < capacity := by simpa using hroom
    have hsize := l.rows.size_upsert_le (Row.evictionRank l.clock) key row (fun _ => ((), row))
      hpinned.sound h.one (by rw [h.perShard]; exact h.size)
    rw [h.perShard] at hsize
    apply hsize
    intro hfull
    obtain ⟨other, free, hfree, hnot⟩ := l.rows.exists_get?_of_length_lt hpinned.sound h.one
      (held.map (·.key)) (by rw [List.length_map]; omega)
    refine ⟨other, free, hfree, ?_⟩
    have hpending : free.pending = 0 := by
      rw [hpinned.rows other free hfree]
      apply List.countP_eq_zero.mpr
      intro r hr
      have hne : r.key ≠ other := fun he => hnot (he ▸ List.mem_map_of_mem hr)
      simpa using hne
    simp [Row.evictionRank, hpending]

theorem Fits.charge {capacity : Nat} {l : Ledger α} {held : List (Reservation α)}
    (h : Fits capacity l) (r : Reservation α) (hpinned : Pinned l (r :: held)) (cost : α)
    (now : Periods) : Fits capacity (l.charge r cost now) := by
  -- A settlement books in a row that is there.
  have hput := h.put hpinned r.key (((l.row r.key).roll now).settle r.amount cost r.madeIn)
    ((l.global.roll now).settle r.amount cost r.globalMadeIn)
    (Or.inl (hpinned.present r List.mem_cons_self))
  rw [charge_eq]
  exact ⟨hput.one, hput.perShard, hput.size⟩

theorem fits_settling (capacity : Nat) (now : Periods) :
    Settling now fun (l : Ledger α) held => Pinned l held ∧ Fits capacity l where
  quiet l l' held held' hrows hglobal hheld h := by
    refine ⟨h.1.quiet l l' held held' hrows (by rw [hglobal]) hheld, ?_⟩
    obtain ⟨hone, hperShard, hsize⟩ := h.2
    rw [← hrows] at hone hperShard hsize
    exact ⟨hone, hperShard, hsize⟩
  charge l r held h := ⟨h.1.charge r r.amount now, h.2.charge r h.1 r.amount now⟩

theorem Fits.reserve {capacity : Nat} {l : Ledger α} (h : Fits capacity l)
    (hpinned : Pinned l l.pending) (hids : (l.pending.map (·.id)).Nodup)
    (hlimit : l.pendingLimit ≤ capacity) (id : ReservationId) (who : Identity)
    (caps : Capabilities α) (estimate : α) (basis : Option (PriceBasis α)) (t : Timestamp) :
    Fits capacity (l.reserve id who caps estimate basis t).2 := by
  obtain ⟨hpinned', hfits⟩ := (fits_settling capacity (l.periodsAt t)).prepared l t hids ⟨hpinned, h⟩
  have hroom : (l.prepared t).pending.length < capacity := (l.prepared_length t).trans_le hlimit
  obtain ⟨row, global, made, dirty, hl, -, -⟩ := l.reserve_snd id who caps estimate basis t
  obtain ⟨hone, hperShard, hsize⟩ := hfits.put hpinned' who.key row global (Or.inr hroom)
  rw [hl]
  exact ⟨hone, hperShard, hsize⟩

theorem Fits.reconcile {capacity : Nat} {l : Ledger α} (h : Fits capacity l)
    (hpinned : Pinned l l.pending) (hids : (l.pending.map (·.id)).Nodup) (id : ReservationId)
    (actual : α) (t : Timestamp) : Fits capacity (l.reconcile id actual t).2 := by
  unfold Ledger.reconcile
  split
  · next r l' htake =>
    obtain ⟨hpinned', hfits⟩ :=
      (fits_settling capacity (l'.periodsAt t)).taken l l' id r hids htake ⟨hpinned, h⟩
    exact hfits.charge r hpinned' _ _
  · exact h

theorem Fits.call {capacity : Nat} {l : Ledger α} (h : Fits capacity l)
    (hpinned : Pinned l l.pending) (hids : (l.pending.map (·.id)).Nodup)
    (hlimit : l.pendingLimit ≤ capacity) (c : Call α) : Fits capacity (l.call c) := by
  cases c with
  | reserve id who caps estimate basis t => exact h.reserve hpinned hids hlimit id who caps estimate basis t
  | reconcile id actual t => exact h.reconcile hpinned hids id actual t
  | release id t => exact h.reconcile hpinned hids id 0 t
  | sweep t =>
    have hsweep := (fits_settling capacity (l.periodsAt t)).sweepPeriods [] l
      (by simpa using And.intro hpinned h)
    exact hsweep.2

theorem Fits.absorbRows {capacity : Nat} {l : Ledger α} (h : Fits capacity l) (hpinned : Pinned l [])
    (hcapacity : 0 < capacity) (rows : List (String × StoredRow α)) :
    Fits capacity (l.absorbRows rows) := by
  -- Stored spending displaces rows while none is held.
  unfold Ledger.absorbRows
  induction rows generalizing l with
  | nil => exact h
  | cons entry rows ih =>
    apply ih
    · show Fits capacity (l.absorbRow entry.1 entry.2)
      rw [absorbRow_eq_put]
      exact h.put hpinned entry.1 _ _ (Or.inr hcapacity)
    · exact pinned_preserved.absorbRow l [] entry.1 entry.2 hpinned

theorem Fits.step {capacity : Nat} {l : Ledger α} (h : Fits capacity l)
    (hpinned : Pinned l l.pending) (hids : (l.pending.map (·.id)).Nodup)
    (hlimit : l.pendingLimit ≤ capacity) (s : Step α)
    (hmerge : ∀ stored, s = .merge stored → l.pending = []) : Fits capacity (l.step s) := by
  have hcapacity : 0 < capacity := lt_of_lt_of_le (le_max_left 1 _) hlimit
  cases s with
  | call c => exact h.call hpinned hids hlimit c
  | merge stored =>
    rw [hmerge stored rfl] at hpinned
    rcases l.step_merge stored with hs | hs
    · rw [hs]
      exact h
    · rw [hs]
      obtain ⟨hone, hperShard, hsize⟩ := h.absorbRows hpinned hcapacity stored.identities.toList
      exact ⟨hone, hperShard, hsize⟩
  | usage key daily monthly t =>
    rw [step_usage]
    refine ⟨(l.rows.count_setShard key _).trans h.one, h.perShard, ?_⟩
    exact (l.rows.size_modify key (fun row => (row, row)) hpinned.sound h.one).le.trans h.size
  | takeDirty => exact ⟨h.one, h.perShard, h.size⟩
  | markDirty => exact ⟨h.one, h.perShard, h.size⟩

theorem new_fits (assign : String → Nat) (settings : LedgerSettings α) (h : settings.shards ≤ 1) :
    Fits (max 1 settings.maxTracked) (new assign settings) := by
  have hcount : max settings.shards 1 = 1 := max_eq_right h
  have hone : (new assign settings).rows.count = 1 := by
    show (List.replicate (max settings.shards 1) _).length = 1
    rw [List.length_replicate, hcount]
  refine ⟨hone, ?_, ?_⟩
  · show max ((settings.maxTracked + max settings.shards 1 - 1) / max settings.shards 1) 1 = _
    rw [hcount, Nat.div_one, Nat.add_sub_cancel, max_comm]
  · have hsize : (new assign settings).rows.size = 0 := by
      show (List.replicate (max settings.shards 1) ({} : Shard String (Row α))).foldl
        (fun n s => n + s.slots.length) 0 = 0
      rw [hcount]
      rfl
    rw [hsize]
    exact Nat.zero_le _

/-- In one shard that takes in stored spending only while nothing is open, the rows stay within the number
of callers to be tracked. -/
theorem follow_fits (assign : String → Nat) (settings : LedgerSettings α) (steps : List (Step α))
    (hfresh : (steps.filterMap Step.newId?).Nodup) (hshards : settings.shards ≤ 1)
    (hmerges : ∀ before stored, before ++ [.merge stored] <+: steps →
      ((new assign settings).follow before).pending = []) :
    Fits (max 1 settings.maxTracked) ((new assign settings).follow steps) := by
  induction steps using List.reverseRecOn with
  | nil => exact new_fits assign settings hshards
  | append_singleton before s ih =>
    rw [List.filterMap_append] at hfresh
    have hbefore := ih hfresh.of_append_left fun earlier stored hpre =>
      hmerges earlier stored (hpre.trans (List.prefix_append _ _))
    obtain ⟨hpinned, hids, -⟩ := pinned_preserved.follow assign settings (new_pinned assign settings)
      before hfresh.of_append_left
    rw [follow_append_singleton]
    refine hbefore.step hpinned hids ?_ s fun stored hs => ?_
    · unfold pendingLimit
      rw [follow_settings]
      exact max_le_max le_rfl (min_le_right _ _)
    · exact hmerges before stored (by rw [hs])

/-- Everything open has its row, which counts it. What is open stays within its bound, and a reserve that
opens no month gives up one reservation only, an oldest one, and only at that bound. -/
theorem follow_bounded (assign : String → Nat) (settings : LedgerSettings α) (steps : List (Step α))
    (hfresh : (steps.filterMap Step.newId?).Nodup) :
    let l := (new assign settings).follow steps
    let bound := max 1 (min settings.maxPending settings.maxTracked)
    (∀ r ∈ l.pending, ∃ row, l.rows.get? r.key = some row ∧
      row.pending = l.pending.countP fun other => other.key = r.key) ∧
    l.global.pending = l.pending.length ∧
    l.pending.length ≤ bound ∧
    (∀ id who caps estimate basis t, (l.periodsAt t).month ≤ l.clock.month →
      ∀ r ∈ l.pending, r ∉ (l.reserve id who caps estimate basis t).2.pending →
        l.pending.length = bound ∧ (∀ other ∈ l.pending, older other r = false) ∧
        ∀ other ∈ l.pending, other ≠ r → other ∈ (l.reserve id who caps estimate basis t).2.pending) ∧
    (settings.shards ≤ 1 →
      (∀ before stored, before ++ [Step.merge stored] <+: steps →
        ((new assign settings).follow before).pending = []) →
      l.rows.size ≤ max 1 settings.maxTracked) := by
  intro l bound
  obtain ⟨hpinned, hids, -⟩ := pinned_preserved.follow assign settings (new_pinned assign settings)
    steps hfresh
  have hlimit : l.pendingLimit = bound := by
    show max 1 (min l.settings.maxPending l.settings.maxTracked) = bound
    rw [show l.settings = settings from follow_settings _ steps]
  have hlength : l.pending.length ≤ l.pendingLimit := by
    rw [hlimit]
    exact follow_length assign settings steps
  refine ⟨?_, hpinned.global, hlimit ▸ hlength, ?_, ?_⟩
  · intro r hr
    obtain ⟨row, hrow⟩ := Option.isSome_iff_exists.mp (hpinned.present r hr)
    exact ⟨row, hrow, hpinned.rows r.key row hrow⟩
  · intro id who caps estimate basis t hmonth r hr hgone
    rw [← hlimit]
    exact l.reserve_gives_up_oldest id who caps estimate basis t hids hlength hmonth r hr hgone
  · intro hshards hmerges
    exact (follow_fits assign settings steps hfresh hshards hmerges).size

def twoOpen : LedgerSettings Rat :=
  { resetHour := 0, globalDaily := 0, globalMonthly := 0, maxTracked := 2, maxPending := 2, shards := 1 }

def threeCallers : List (Step Rat) :=
  let reserve (id : Nat) (caller : String) (seconds : Int) : Step Rat :=
    .call (.reserve ⟨id⟩ ⟨caller, "web", true⟩ (.builtin .standard) (1 / 8) none ⟨1773144000 + seconds, 0⟩)
  [.merge ⟨none, 0, ⟨1, 1, 20522, 674⟩, .ofList [("web:dora", ⟨1, 1, 20522, 674⟩)]⟩,
    reserve 1 "alice" 0, reserve 2 "bob" 1, reserve 3 "carol" 2]

theorem follow_bounded_threeCallers :
    let l := (new (fun _ => 0) twoOpen).follow threeCallers
    (threeCallers.filterMap Step.newId?).Nodup ∧ l.pending.map (·.id) = [⟨2⟩, ⟨3⟩] ∧
    (∀ r ∈ l.pending, ∃ row, l.rows.get? r.key = some row ∧
      row.pending = l.pending.countP fun other => other.key = r.key) ∧
    l.global.pending = l.pending.length ∧ l.pending.length ≤ 2 ∧ l.rows.size ≤ 2 := by
  obtain ⟨hrows, hglobal, hlength, -, hsize⟩ :=
    follow_bounded (fun _ => 0) twoOpen threeCallers (by decide)
  refine ⟨by decide, by decide +kernel, hrows, hglobal, hlength, hsize le_rfl ?_⟩
  intro before stored hprefix
  cases before with
  | nil => rfl
  | cons first rest =>
    obtain ⟨-, hrest⟩ := List.cons_prefix_cons.mp hprefix
    have hmem := hrest.subset (List.mem_append_right rest (List.mem_singleton_self _))
    simp at hmem

end Ledger

end Admission
