import Admission.Ledger.Snapshot
import Admission.Proofs.Ledger.Call

/-!
# Reachable ledgers

A ledger is reachable if calls, stored spending that is taken in, looks at it and saves lead to it from
an empty one. Its rows are always in their shards, and no call but a reserve adds to what is open.
-/

namespace Admission.Ledger

variable {α : Type} [Amount α]

inductive Reachable (assign : String → Nat) (settings : LedgerSettings α) : Ledger α → Prop where
  | new : Reachable assign settings (new assign settings)
  | call (l : Ledger α) (c : Call α) (h : Reachable assign settings l) :
      Reachable assign settings (l.call c)
  | merge (l l' : Ledger α) (s : Snapshot α) (h : Reachable assign settings l)
      (hs : l.merge s = .ok l') : Reachable assign settings l'
  | usage (l : Ledger α) (key : String) (daily monthly : α) (t : Timestamp)
      (h : Reachable assign settings l) :
      Reachable assign settings (l.usageOfKey key daily monthly t).2
  | takeDirty (l : Ledger α) (h : Reachable assign settings l) :
      Reachable assign settings l.takeDirty.2
  | markDirty (l : Ledger α) (h : Reachable assign settings l) : Reachable assign settings l.markDirty

/-! ## Open reservations -/

theorem observe_pending (l : Ledger α) (now : Periods) :
    (l.observe now).pending.Sublist l.pending := by
  unfold observe
  split
  · rw [sweepPeriods_pending]
    exact List.filter_sublist
  · exact .refl _

theorem settle_pending (l : Ledger α) (r : Reservation α) (cost : α) (t : Timestamp) :
    (l.settle r cost t).pending = (l.observe (l.periodsAt t)).pending :=
  charge_pending _ r cost _

theorem makeRoom_pending (t : Timestamp) (steps : Nat) (l : Ledger α) :
    (makeRoom t steps l).pending.Sublist l.pending := by
  induction steps generalizing l with
  | zero => exact .refl _
  | succ steps ih =>
    unfold makeRoom
    split
    · exact .refl _
    split
    · next r l' htake =>
      obtain ⟨oldest, -, htake⟩ := Option.bind_eq_some_iff.mp htake
      refine (ih _).trans ?_
      rw [settle_pending]
      exact (l'.observe_pending _).trans (take_pending l l' oldest.id r htake).1
    · exact .refl _

/-! ## Rows stay in their shards -/

theorem charge_sound (l : Ledger α) (r : Reservation α) (cost : α) (now : Periods)
    (h : l.rows.Sound) : (l.charge r cost now).rows.Sound := by
  rw [charge_eq]
  exact l.put_sound r.key _ l.global h

theorem bookAll_sound (l : Ledger α) (rs : List (Reservation α)) (now : Periods)
    (h : l.rows.Sound) : (l.bookAll rs now).rows.Sound := by
  induction rs generalizing l with
  | nil => exact h
  | cons r rs ih => exact ih _ ((l.advance now).charge_sound r r.amount now h)

theorem observe_sound (l : Ledger α) (now : Periods) (h : l.rows.Sound) :
    (l.observe now).rows.Sound := by
  unfold observe
  split
  · exact bookAll_sound _ _ now h
  · exact h

theorem settle_sound (l : Ledger α) (r : Reservation α) (cost : α) (t : Timestamp)
    (h : l.rows.Sound) : (l.settle r cost t).rows.Sound :=
  charge_sound _ r cost _ (l.observe_sound _ h)

theorem makeRoom_sound (t : Timestamp) (steps : Nat) (l : Ledger α) (h : l.rows.Sound) :
    (makeRoom t steps l).rows.Sound := by
  induction steps generalizing l with
  | zero => exact h
  | succ steps ih =>
    unfold makeRoom
    split
    · exact h
    split
    · next r l' htake =>
      obtain ⟨oldest, -, htake⟩ := Option.bind_eq_some_iff.mp htake
      refine ih _ (l'.settle_sound r r.amount t ?_)
      rw [take_rows l l' oldest.id r htake]
      exact h
    · exact h

theorem reserve_sound (l : Ledger α) (id : ReservationId) (who : Identity) (caps : Capabilities α)
    (estimate : α) (basis : Option (PriceBasis α)) (t : Timestamp) (h : l.rows.Sound) :
    (l.reserve id who caps estimate basis t).2.rows.Sound := by
  have hprepared : (l.prepared t).rows.Sound := makeRoom_sound t _ _ (l.observe_sound _ h)
  rw [reserve_eq]
  rcases (l.prepared t).enroll_cases id who caps (Amount.sanitize estimate) basis t (l.periodsAt t) with
    ⟨_, _, _, _, he⟩ | ⟨_, _, _, _, _, _, _, _, _, he⟩
  · rw [he]
    exact (l.prepared t).put_sound who.key _ _ hprepared
  · rw [he]
    exact (l.prepared t).put_sound who.key _ l.global hprepared

theorem reconcile_sound (l : Ledger α) (id : ReservationId) (actual : α) (t : Timestamp)
    (h : l.rows.Sound) : (l.reconcile id actual t).2.rows.Sound := by
  unfold reconcile
  split
  · next r l' htake => exact l'.settle_sound r _ t (take_rows l l' id r htake ▸ h)
  · exact h

theorem call_sound (l : Ledger α) (c : Call α) (h : l.rows.Sound) : (l.call c).rows.Sound := by
  cases c with
  | reserve id who caps estimate basis t => exact l.reserve_sound id who caps estimate basis t h
  | reconcile id actual t => exact l.reconcile_sound id actual t h
  | release id t => exact l.reconcile_sound id 0 t h
  | sweep t => exact bookAll_sound _ _ _ h

theorem absorbRow_eq (l : Ledger α) (key : String) (stored : StoredRow α) :
    l.absorbRow key stored =
      { l with
        rows := (l.rows.upsert (Row.evictionRank l.clock) key .empty fun row =>
          ((), row.absorb stored)).2 } := rfl

theorem usageOfKey_eq (l : Ledger α) (key : String) (daily monthly : α) (t : Timestamp) :
    l.usageOfKey key daily monthly t =
      (report key (l.row key) (l.periodsAt t) daily monthly,
        { l with rows := (l.rows.modify key fun row => (row, row)).2 }) := by
  have hrow : (l.rows.modify key fun row => (row, row)).1 = l.rows.get? key := by
    simp only [Shards.modify, Shards.get?, Shard.modify]
    cases (l.rows.shard key).find? key <;> rfl
  unfold usageOfKey row
  rw [← hrow]

def look (l : Ledger α) (key : String) : Ledger α :=
  { l with rows := (l.rows.modify key fun row => (row, row)).2 }

omit [Amount α] in
theorem get?_look (l : Ledger α) (key other : String) (h : l.rows.Sound) :
    (l.look key).rows.get? other = l.rows.get? other := by
  have hget := l.rows.get?_modify key (fun row => (row, row)) h other
  unfold look
  rw [hget]
  split
  · next hkey => simp [hkey]
  · rfl

theorem merge_sound (l l' : Ledger α) (s : Snapshot α) (h : l.rows.Sound) (hs : l.merge s = .ok l') :
    l'.rows.Sound := by
  have hfold : ∀ (rows : List (String × StoredRow α)) (l : Ledger α), l.rows.Sound →
      (rows.foldl (fun l row => l.absorbRow row.1 row.2) l).rows.Sound := by
    intro rows
    induction rows with
    | nil => exact fun _ h => h
    | cons row rows ih =>
      intro l h
      refine ih (l.absorbRow row.1 row.2) ?_
      rw [absorbRow_eq]
      exact l.rows.upsert_sound _ row.1 .empty (fun old => ((), old.absorb row.2)) h
  unfold merge at hs
  split at hs
  · cases hs
    exact hfold _ l h
  · cases hs

theorem Reachable.sound (assign : String → Nat) (settings : LedgerSettings α) (l : Ledger α)
    (h : Reachable assign settings l) : l.rows.Sound := by
  induction h with
  | new => exact Shards.new_sound _ _ _
  | call l c _ ih => exact l.call_sound c ih
  | merge l l' s _ hs ih => exact l.merge_sound l' s ih hs
  | usage l key daily monthly t _ ih =>
    rw [usageOfKey_eq]
    exact l.rows.modify_sound key (fun row => (row, row)) ih
  | takeDirty l _ ih => exact ih
  | markDirty l _ ih => exact ih

end Admission.Ledger
