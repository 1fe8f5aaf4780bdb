import Mathlib
import Admission.Proofs.Ledger.Balances
import Admission.Proofs.Ledger.Rejection

/-!
# Calls that leave nothing to save

A call that does not raise the flag of unsaved changes books nothing. All that it may do is to bring rows
up to date, to start one and to displace another.
-/

namespace Admission.Ledger

variable {α : Type} [Amount α]

def Call.time : Call α → Timestamp
  | .reserve _ _ _ _ _ t | .reconcile _ _ t | .release _ t | .sweep t => t

/-- Nothing is booked: a row is at most brought up to date, started or displaced. -/
structure Quiet (now : Periods) (l l' : Ledger α) : Prop where
  settings : l'.settings = l.settings
  rows : ∀ key, l'.row key = l.row key ∨ l'.row key = (l.row key).roll now ∨ l'.row key = .empty
  global : l'.global = l.global ∨ l'.global = l.global.roll now

structure SameBooks (l l' : Ledger α) : Prop where
  settings : l'.settings = l.settings
  rows : l'.rows = l.rows
  global : l'.global = l.global

theorem SameBooks.row {l l' : Ledger α} (h : SameBooks l l') (key : String) : l'.row key = l.row key := by
  unfold Ledger.row
  rw [h.rows]

theorem SameBooks.quiet {l l' : Ledger α} (h : SameBooks l l') (now : Periods) : Quiet now l l' :=
  ⟨h.settings, fun key => Or.inl (h.row key), Or.inl h.global⟩

variable (l : Ledger α)

/-! ## The flag -/

theorem charge_dirty (r : Reservation α) (cost : α) (now : Periods) : (l.charge r cost now).dirty = true := by
  rw [charge_eq]

theorem settle_dirty (r : Reservation α) (cost : α) (t : Timestamp) : (l.settle r cost t).dirty = true := by
  unfold settle
  exact charge_dirty _ r cost _

theorem bookAll_dirty (rs : List (Reservation α)) (now : Periods) (h : l.dirty = true) :
    (l.bookAll rs now).dirty = true := by
  induction rs generalizing l with
  | nil => exact h
  | cons r rs ih => exact ih _ (charge_dirty _ r r.amount now)

theorem bookAll_quiet (rs : List (Reservation α)) (now : Periods)
    (hclean : (l.bookAll rs now).dirty = false) : rs = [] := by
  cases rs with
  | nil => rfl
  | cons r rs =>
    have hdirty : (l.bookAll (r :: rs) now).dirty = true :=
      bookAll_dirty _ rs now (charge_dirty (l.advance now) r r.amount now)
    rw [hclean] at hdirty
    cases hdirty

theorem sweepPeriods_quiet (now : Periods) (hclean : (l.sweepPeriods now).dirty = false) :
    l.dirty = false ∧ SameBooks l (l.sweepPeriods now) := by
  rw [sweepPeriods_eq] at hclean ⊢
  have hnone := bookAll_quiet _ _ now hclean
  rw [hnone] at hclean ⊢
  exact ⟨hclean, rfl, rfl, rfl⟩

theorem observe_quiet (now : Periods) (hclean : (l.observe now).dirty = false) :
    l.dirty = false ∧ SameBooks l (l.observe now) := by
  unfold observe at hclean ⊢
  split
  · next hmonth =>
    rw [if_pos hmonth] at hclean
    obtain ⟨hdirty, hsame⟩ := (l.advance now).sweepPeriods_quiet now hclean
    exact ⟨hdirty, hsame.settings, hsame.rows, hsame.global⟩
  · next hmonth =>
    rw [if_neg hmonth] at hclean
    exact ⟨hclean, rfl, rfl, rfl⟩

theorem makeRoom_quiet (t : Timestamp) (steps : Nat) :
    makeRoom t steps l = l ∨ (makeRoom t steps l).dirty = true := by
  induction steps generalizing l with
  | zero => exact Or.inl rfl
  | succ steps ih =>
    unfold makeRoom
    split
    · exact Or.inl rfl
    · split
      · next r l' _ =>
        right
        rcases ih (l'.settle r r.amount t) with hsame | hdirty
        · rw [hsame]
          exact l'.settle_dirty r r.amount t
        · exact hdirty
      · exact Or.inl rfl

theorem prepared_quiet (t : Timestamp) (hclean : (l.prepared t).dirty = false) :
    l.dirty = false ∧ SameBooks l (l.prepared t) := by
  unfold prepared at hclean ⊢
  rcases makeRoom_quiet (l.observe (l.periodsAt t)) t (l.observe (l.periodsAt t)).pending.length with
    hsame | hdirty
  · rw [hsame] at hclean ⊢
    exact l.observe_quiet _ hclean
  · rw [hclean] at hdirty
    cases hdirty

/-! ## Calls -/

theorem reserve_quiet (h : l.rows.Sound) (id : ReservationId) (who : Identity) (caps : Capabilities α)
    (estimate : α) (basis : Option (PriceBasis α)) (t : Timestamp)
    (hclean : (l.reserve id who caps estimate basis t).2.dirty = false) :
    l.dirty = false ∧ Quiet (l.periodsAt t) l (l.reserve id who caps estimate basis t).2 := by
  rw [reserve_eq] at hclean ⊢
  rcases (l.prepared t).enroll_cases id who caps (Amount.sanitize estimate) basis t (l.periodsAt t) with
    ⟨_, global, hglobal, -, he⟩ | ⟨_, -, -, -, -, -, -, -, -, he⟩
  · rw [he] at hclean ⊢
    obtain ⟨hdirty, hsame⟩ := l.prepared_quiet t hclean
    have hsound : (l.prepared t).rows.Sound := hsame.rows ▸ h
    refine ⟨hdirty, hsame.settings, fun key => ?_, hsame.global ▸ hglobal⟩
    by_cases hkey : key = who.key
    · subst hkey
      rw [row_put_self _ _ _ _ hsound, hsame.row]
      exact Or.inr (Or.inl rfl)
    · rw [row_put_of_ne _ _ _ _ _ hsound hkey]
      split
      · exact Or.inr (Or.inr rfl)
      · exact Or.inl (hsame.row key)
  · rw [he] at hclean
    cases hclean

theorem reconcile_quiet (id : ReservationId) (actual : α) (t : Timestamp)
    (hclean : (l.reconcile id actual t).2.dirty = false) : (l.reconcile id actual t).2 = l := by
  unfold reconcile at hclean ⊢
  split
  · next r l' htake =>
    simp only [htake] at hclean
    rw [l'.settle_dirty r _ t] at hclean
    cases hclean
  · rfl

theorem call_quiet (h : l.rows.Sound) (c : Call α) (hclean : (l.call c).dirty = false) :
    l.dirty = false ∧ Quiet (l.periodsAt c.time) l (l.call c) := by
  cases c with
  | reserve id who caps estimate basis t => exact l.reserve_quiet h id who caps estimate basis t hclean
  | reconcile id actual t =>
    have hsame : l.call (.reconcile id actual t) = l := l.reconcile_quiet id actual t hclean
    rw [hsame] at hclean ⊢
    exact ⟨hclean, SameBooks.quiet ⟨rfl, rfl, rfl⟩ _⟩
  | release id t =>
    have hsame : l.call (.release id t) = l := l.reconcile_quiet id 0 t hclean
    rw [hsame] at hclean ⊢
    exact ⟨hclean, SameBooks.quiet ⟨rfl, rfl, rfl⟩ _⟩
  | sweep t =>
    obtain ⟨hdirty, hsame⟩ := l.sweepPeriods_quiet (l.periodsAt t) hclean
    exact ⟨hdirty, hsame.quiet _⟩

end Admission.Ledger
