import Admission.Proofs.Ledger.Rejection

/-!
# Settling before a reserve

Before a reserve looks at any limit, the reservations of closed months and then the oldest ones may be
settled at their estimates. What each of these bookings keeps still holds when the limits are looked at.
-/

namespace Admission.Ledger

variable {α : Type} [Amount α]

/-! ## Settings and the clock -/

theorem bookAll_settings (l : Ledger α) (rs : List (Reservation α)) (now : Periods) :
    (l.bookAll rs now).settings = l.settings := by
  induction rs generalizing l with
  | nil => rfl
  | cons r rs ih => exact (ih _).trans (charge_settings _ r r.amount now)

theorem observe_settings (l : Ledger α) (now : Periods) : (l.observe now).settings = l.settings := by
  unfold observe
  split
  · exact bookAll_settings _ _ now
  · rfl

theorem settle_settings (l : Ledger α) (r : Reservation α) (cost : α) (t : Timestamp) :
    (l.settle r cost t).settings = l.settings := by
  unfold settle
  rw [charge_settings, observe_settings]

omit [Amount α] in
theorem take_settings (l l' : Ledger α) (id : ReservationId) (r : Reservation α)
    (h : l.take id = some (r, l')) : l'.settings = l.settings ∧ l'.clock = l.clock := by
  unfold take at h
  obtain ⟨_, -, he⟩ := Option.map_eq_some_iff.mp h
  cases he
  exact ⟨rfl, rfl⟩

theorem join_join (a b : Periods) : (a.join b).join b = a.join b := by
  simp [Periods.join]

theorem bookAll_clock (l : Ledger α) (rs : List (Reservation α)) (now : Periods) :
    (l.bookAll rs now).clock = l.clock ∨ (l.bookAll rs now).clock = l.clock.join now := by
  induction rs generalizing l with
  | nil => exact Or.inl rfl
  | cons r rs ih =>
    right
    have hcharge : ((l.advance now).charge r r.amount now).clock = l.clock.join now :=
      charge_clock _ r r.amount now
    rcases ih ((l.advance now).charge r r.amount now) with h | h
    · exact h.trans hcharge
    · rw [hcharge, join_join] at h
      exact h

theorem observe_clock (l : Ledger α) (now : Periods) : (l.observe now).clock = l.clock.join now := by
  unfold observe
  split
  · rcases bookAll_clock { l.advance now with pending := _ } ((l.advance now).expired now) now with h | h
    · exact h
    · exact h.trans (join_join l.clock now)
  · rfl

theorem settle_clock (l : Ledger α) (r : Reservation α) (cost : α) (t : Timestamp) :
    (l.settle r cost t).clock = l.clock.join (l.periodsAt t) := by
  unfold settle
  rw [charge_clock, observe_clock]

theorem makeRoom_settings (t : Timestamp) (steps : Nat) (l : Ledger α) :
    (makeRoom t steps l).settings = l.settings := by
  induction steps generalizing l with
  | zero => rfl
  | succ steps ih =>
    unfold makeRoom
    split
    · rfl
    split
    · next r l' htake =>
      obtain ⟨oldest, -, htake⟩ := Option.bind_eq_some_iff.mp htake
      rw [ih, settle_settings, (take_settings l l' oldest.id r htake).1]
    · rfl

theorem makeRoom_clock (t : Timestamp) (steps : Nat) (l : Ledger α)
    (h : l.clock.join (l.periodsAt t) = l.clock) : (makeRoom t steps l).clock = l.clock := by
  induction steps generalizing l with
  | zero => rfl
  | succ steps ih =>
    unfold makeRoom
    split
    · rfl
    split
    · next r l' htake =>
      obtain ⟨oldest, -, htake⟩ := Option.bind_eq_some_iff.mp htake
      obtain ⟨hsettings, hclock⟩ := take_settings l l' oldest.id r htake
      have hnow : (l'.settle r r.amount t).periodsAt t = l.periodsAt t := by
        unfold periodsAt
        rw [settle_settings, hsettings]
      have hsettle : (l'.settle r r.amount t).clock = l.clock := by
        rw [settle_clock, periodsAt, hsettings, hclock]
        exact h
      rw [ih _ (by rw [hnow, hsettle, h]), hsettle]
    · rfl

theorem prepared_settings (l : Ledger α) (t : Timestamp) : (l.prepared t).settings = l.settings := by
  unfold prepared
  rw [makeRoom_settings, observe_settings]

theorem prepared_clock (l : Ledger α) (t : Timestamp) :
    (l.prepared t).clock = l.clock.join (l.periodsAt t) := by
  have hobserve := l.observe_clock (l.periodsAt t)
  have hnow : (l.observe (l.periodsAt t)).periodsAt t = l.periodsAt t := by
    unfold periodsAt
    rw [observe_settings]
  unfold prepared
  rw [makeRoom_clock t _ _ (by rw [hnow, hobserve, join_join]), hobserve]

theorem reserve_snd (l : Ledger α) (id : ReservationId) (who : Identity) (caps : Capabilities α)
    (estimate : α) (basis : Option (PriceBasis α)) (t : Timestamp) :
    ∃ row global made dirty, (l.reserve id who caps estimate basis t).2 =
        { (l.prepared t).put who.key row global with
          pending := (l.prepared t).pending ++ made, dirty := dirty } ∧
      made.length ≤ 1 ∧ ∀ r ∈ made, r.key = who.key := by
  rw [reserve_eq]
  rcases (l.prepared t).enroll_cases id who caps (Amount.sanitize estimate) basis t (l.periodsAt t) with
    ⟨rejection, global, -, -, he⟩ | ⟨r, -, hkey, -, -, -, -, -, -, he⟩
  · refine ⟨((l.prepared t).row who.key).roll (l.periodsAt t), global, [], (l.prepared t).dirty, ?_,
      by simp, by simp⟩
    rw [he, List.append_nil]
    rfl
  · refine ⟨_, _, [r], true, by rw [he], le_rfl, ?_⟩
    intro made hmade
    rw [List.mem_singleton.mp hmade, hkey]

theorem reconcile_settings (l : Ledger α) (id : ReservationId) (actual : α) (t : Timestamp) :
    (l.reconcile id actual t).2.settings = l.settings := by
  unfold reconcile
  split
  · next r l' htake => rw [settle_settings, (take_settings l l' id r htake).1]
  · rfl

theorem call_settings (l : Ledger α) (c : Call α) : (l.call c).settings = l.settings := by
  cases c with
  | reserve id who caps estimate basis t =>
    obtain ⟨row, global, made, dirty, hl, -, -⟩ := l.reserve_snd id who caps estimate basis t
    show (l.reserve id who caps estimate basis t).2.settings = l.settings
    rw [hl]
    exact l.prepared_settings t
  | reconcile id actual t => exact l.reconcile_settings id actual t
  | release id t => exact l.reconcile_settings id 0 t
  | sweep t => exact bookAll_settings _ _ _

/-! ## One settlement -/

theorem row_charge_self (l : Ledger α) (r : Reservation α) (cost : α) (now : Periods)
    (h : l.rows.Sound) :
    (l.charge r cost now).row r.key = ((l.row r.key).roll now).settle r.amount cost r.madeIn := by
  rw [charge_eq]
  exact l.row_put_self r.key _ l.global h

theorem get?_charge_of_ne (l : Ledger α) (r : Reservation α) (cost : α) (now : Periods) (key : String)
    (h : l.rows.Sound) (hp : (l.rows.get? r.key).isSome) (hne : key ≠ r.key) :
    (l.charge r cost now).rows.get? key = l.rows.get? key := by
  rw [charge_eq]
  exact l.get?_put_of_present r.key key _ l.global h hp hne

/-! ## The verdict -/

def verdict : Option (Rejection α) → Except (Rejection α) Unit
  | some rejection => .error rejection
  | none => .ok ()

theorem enroll_fst (l : Ledger α) (id : ReservationId) (who : Identity) (caps : Capabilities α)
    (estimate : α) (basis : Option (PriceBasis α)) (t : Timestamp) (now : Periods) :
    (l.enroll id who caps estimate basis t now).1 =
      verdict ((((l.row who.key).roll now).check estimate caps.dailyBudget caps.monthlyBudget
        .identityDaily .identityMonthly).or ((l.global.roll now).check estimate
          l.settings.globalDaily l.settings.globalMonthly .globalDaily .globalMonthly)) := by
  unfold enroll
  rw [updateRow_eq]
  cases hcaller : ((l.row who.key).roll now).check estimate caps.dailyBudget caps.monthlyBudget
      .identityDaily .identityMonthly with
  | some rejection => simp only [bookRows, hcaller, Option.some_or, verdict]
  | none =>
    cases heverybody : (l.global.roll now).check estimate l.settings.globalDaily
        l.settings.globalMonthly .globalDaily .globalMonthly with
    | some rejection => simp only [bookRows, hcaller, heverybody, Option.none_or, verdict]
    | none => simp only [bookRows, hcaller, heverybody, Option.none_or, verdict]

/-! ## What is kept -/

/-- Something said of the rows of a ledger and of the reservations that hold them, which every booking
at the estimate keeps. -/
structure Settling (now : Periods) (P : Ledger α → List (Reservation α) → Prop) : Prop where
  quiet : ∀ l l' held held', l'.rows = l.rows → l'.global = l.global → held.Perm held' →
    P l held → P l' held'
  charge : ∀ l r held, P l (r :: held) → P (l.charge r r.amount now) held

namespace Settling

variable {now : Periods} {P : Ledger α → List (Reservation α) → Prop}

theorem bookAll (hP : Settling now P) (rs held : List (Reservation α)) (l : Ledger α)
    (h : P l (rs ++ held)) : P (l.bookAll rs now) held := by
  induction rs generalizing l with
  | nil => exact h
  | cons r rs ih =>
    exact ih _ (hP.charge _ r _ (hP.quiet l _ _ _ rfl rfl (.refl _) h))

theorem sweepPeriods (hP : Settling now P) (held : List (Reservation α)) (l : Ledger α)
    (h : P l (l.pending ++ held)) : P (l.sweepPeriods now) ((l.sweepPeriods now).pending ++ held) := by
  rw [sweepPeriods_eq]
  refine hP.bookAll _ _ _ (hP.quiet l _ _ _ rfl rfl ?_ h)
  rw [← List.append_assoc, ← sweepPeriods_eq]
  exact (l.expired_perm now).symm.append_right held

theorem observe (hP : Settling now P) (held : List (Reservation α)) (l : Ledger α)
    (h : P l (l.pending ++ held)) : P (l.observe now) ((l.observe now).pending ++ held) := by
  have hadvance : P (l.advance now) ((l.advance now).pending ++ held) :=
    hP.quiet l _ _ _ rfl rfl (.refl _) h
  unfold Ledger.observe
  split
  · exact hP.sweepPeriods held (l.advance now) hadvance
  · exact hadvance

theorem taken (hP : Settling now P) (l l' : Ledger α) (id : ReservationId) (r : Reservation α)
    (hids : (l.pending.map (·.id)).Nodup) (htake : l.take id = some (r, l')) (h : P l l.pending) :
    P (l'.observe now) (r :: (l'.observe now).pending) := by
  obtain ⟨-, hl', hperm⟩ := take_spec l l' id r hids htake
  have htaken : P l' (l'.pending ++ [r]) := by
    refine hP.quiet l l' _ _ ?_ ?_ (hperm.trans (List.perm_append_singleton r _).symm) h <;> rw [hl']
  exact hP.quiet _ _ _ _ rfl rfl (List.perm_append_singleton r _) (hP.observe [r] l' htaken)

theorem makeRoom (hP : Settling now P) (t : Timestamp) (steps : Nat) (l : Ledger α)
    (ht : l.periodsAt t = now) (hids : (l.pending.map (·.id)).Nodup) (h : P l l.pending) :
    P (makeRoom t steps l) (makeRoom t steps l).pending := by
  induction steps generalizing l with
  | zero => exact h
  | succ steps ih =>
    unfold Ledger.makeRoom
    split
    · exact h
    split
    · next r l' htake =>
      obtain ⟨oldest, -, htake⟩ := Option.bind_eq_some_iff.mp htake
      obtain ⟨-, -, hperm⟩ := take_spec l l' oldest.id r hids htake
      have ht' : l'.periodsAt t = now := by
        rw [← ht, periodsAt, periodsAt, (take_settings l l' oldest.id r htake).1]
      have hids' : ((l'.settle r r.amount t).pending.map (·.id)).Nodup :=
        ids_nodup_of_perm _ _ _ (l'.settle_perm r r.amount t) (ids_nodup_of_perm [r] _ _ hperm.symm hids)
      refine ih _ ?_ hids' ?_
      · rw [← ht', periodsAt, periodsAt, settle_settings]
      · unfold settle
        rw [ht', charge_pending]
        exact hP.charge _ r _ (hP.taken l l' oldest.id r hids htake h)
    · exact h

theorem prepared (l : Ledger α) (t : Timestamp) (hP : Settling (l.periodsAt t) P)
    (hids : (l.pending.map (·.id)).Nodup) (h : P l l.pending) :
    P (l.prepared t) (l.prepared t).pending := by
  have hobserve := hP.observe [] l (by simpa using h)
  rw [List.append_nil] at hobserve
  refine hP.makeRoom t _ _ ?_ (hids.sublist ((l.observe_pending _).map _)) hobserve
  rw [periodsAt, periodsAt, observe_settings]

end Settling

end Admission.Ledger
