import Mathlib
import Admission.Ledger.Basic
import Admission.Proofs.Shards

/-!
# Calls on a ledger

Every call is made of a few single bookings: it puts one row back changed, together with the row of
everybody. Here is what one booking does to the rows, and which reservations a call settles.
-/

namespace Admission

variable {α : Type} [Amount α]

theorem Row.check_eq_none (row : Row α) (daily monthly estimate : α) (dayLimit monthLimit : BudgetLimit) :
    row.check estimate daily monthly dayLimit monthLimit = none ↔
      row.day.crosses estimate daily = false ∧ row.month.crosses estimate monthly = false := by
  unfold check
  split
  · simp_all
  · split <;> simp_all

namespace Ledger

/-- One call that changes a ledger. -/
inductive Call (α : Type) where
  | reserve (id : ReservationId) (who : Identity) (caps : Capabilities α) (estimate : α)
      (basis : Option (PriceBasis α)) (t : Timestamp)
  | reconcile (id : ReservationId) (actual : α) (t : Timestamp)
  | release (id : ReservationId) (t : Timestamp)
  | sweep (t : Timestamp)

def call (l : Ledger α) : Call α → Ledger α
  | .reserve id who caps estimate basis t => (l.reserve id who caps estimate basis t).2
  | .reconcile id actual t => (l.reconcile id actual t).2
  | .release id t => (l.release id t).2
  | .sweep t => (l.sweep t).2

def run (l : Ledger α) (calls : List (Call α)) : Ledger α := calls.foldl call l

theorem run_append_singleton (l : Ledger α) (calls : List (Call α)) (c : Call α) :
    l.run (calls ++ [c]) = (l.run calls).call c := by
  simp [run]

theorem new_get? (assign : String → Nat) (settings : LedgerSettings α) (key : String) :
    (new assign settings).rows.get? key = none :=
  Shards.get?_new assign settings.maxTracked settings.shards key

/-! ## One booking -/

def row (l : Ledger α) (key : String) : Row α := (l.rows.get? key).getD .empty

def put (l : Ledger α) (key : String) (row global : Row α) : Ledger α :=
  { l with
    rows := (l.rows.upsert (Row.evictionRank l.clock) key row fun _ => ((), row)).2
    global }

theorem updateRow_eq {ρ : Type} (l : Ledger α) (key : String)
    (f : Row α → Row α → ρ × Row α × Row α) :
    l.updateRow key f =
      ((f (l.row key) l.global).1,
        l.put key (f (l.row key) l.global).2.1 (f (l.row key) l.global).2.2) := by
  have hu : l.rows.upsert (Row.evictionRank l.clock) key .empty (fun row =>
      (((f row l.global).1, (f row l.global).2.2), (f row l.global).2.1)) =
        (((f (l.row key) l.global).1, (f (l.row key) l.global).2.2),
          (l.put key (f (l.row key) l.global).2.1 (f (l.row key) l.global).2.2).rows) :=
    Prod.ext
      (l.rows.upsert_fst (Row.evictionRank l.clock) key .empty fun row =>
        (((f row l.global).1, (f row l.global).2.2), (f row l.global).2.1))
      (l.rows.upsert_snd_congr (Row.evictionRank l.clock) key .empty
        (fun row => (((f row l.global).1, (f row l.global).2.2), (f row l.global).2.1))
        (f (l.row key) l.global).2.1 (fun _ => ((), (f (l.row key) l.global).2.1)) rfl)
  have hupdate : l.updateRow key f =
      ((l.rows.upsert (Row.evictionRank l.clock) key .empty fun row =>
          (((f row l.global).1, (f row l.global).2.2), (f row l.global).2.1)).1.1,
        { l with
          rows := (l.rows.upsert (Row.evictionRank l.clock) key .empty fun row =>
            (((f row l.global).1, (f row l.global).2.2), (f row l.global).2.1)).2
          global := (l.rows.upsert (Row.evictionRank l.clock) key .empty fun row =>
            (((f row l.global).1, (f row l.global).2.2), (f row l.global).2.1)).1.2 }) := rfl
  rw [hupdate, hu]
  rfl

theorem put_sound (l : Ledger α) (key : String) (row global : Row α) (h : l.rows.Sound) :
    (l.put key row global).rows.Sound :=
  l.rows.upsert_sound (Row.evictionRank l.clock) key row (fun _ => ((), row)) h

theorem get?_put_self (l : Ledger α) (key : String) (row global : Row α) (h : l.rows.Sound) :
    (l.put key row global).rows.get? key = some row :=
  l.rows.get?_upsert_self (Row.evictionRank l.clock) key row (fun _ => ((), row)) h

/-- The entry that a booking displaces, if it needs room. -/
def displaced? (l : Ledger α) (key : String) : Option (String × Row α) :=
  l.rows.displaced? (Row.evictionRank l.clock) key

theorem get?_put_of_ne (l : Ledger α) (key other : String) (row global : Row α) (h : l.rows.Sound)
    (hne : other ≠ key) :
    (l.put key row global).rows.get? other =
      if (l.displaced? key).map (·.1) = some other then none else l.rows.get? other :=
  l.rows.get?_upsert_of_ne (Row.evictionRank l.clock) key row (fun _ => ((), row)) h other hne

theorem get?_put_of_present (l : Ledger α) (key other : String) (row global : Row α)
    (h : l.rows.Sound) (hp : (l.rows.get? key).isSome) (hne : other ≠ key) :
    (l.put key row global).rows.get? other = l.rows.get? other := by
  obtain ⟨v, hv⟩ := Option.isSome_iff_exists.mp hp
  rw [l.get?_put_of_ne key other row global h hne, displaced?,
    l.rows.displaced?_of_get? (Row.evictionRank l.clock) key v hv]
  simp

theorem displaced?_spec (l : Ledger α) (key : String) (entry : String × Row α) (h : l.rows.Sound)
    (hd : l.displaced? key = some entry) :
    l.rows.get? entry.1 = some entry.2 ∧ entry.2.pending = 0 ∧ l.rows.get? key = none := by
  obtain ⟨hget, hrank, hnone⟩ := l.rows.displaced?_spec (Row.evictionRank l.clock) key h entry hd
  refine ⟨hget, ?_, hnone⟩
  unfold Row.evictionRank at hrank
  split at hrank
  · cases hrank
  · omega

/-! ## Taking one out -/

omit [Amount α] in
theorem perm_cons_filter_id (rs : List (Reservation α)) (r : Reservation α)
    (hids : (rs.map (·.id)).Nodup) (hr : r ∈ rs) :
    rs.Perm (r :: rs.filter fun other => other.id != r.id) := by
  induction rs with
  | nil => cases hr
  | cons first rest ih =>
    simp only [List.map_cons, List.nodup_cons, List.mem_map, not_exists, not_and] at hids
    rcases List.mem_cons.mp hr with rfl | hr
    · have hall : rest.filter (fun other => other.id != r.id) = rest := by
        rw [List.filter_eq_self]
        intro other ho
        simpa using hids.1 other ho
      simp [hall]
    · have hne : first.id ≠ r.id := fun he => hids.1 r hr he.symm
      rw [List.filter_cons_of_pos (by simpa using hne)]
      exact ((ih hids.2 hr).cons first).trans (.swap _ _ _)

omit [Amount α] in
theorem ids_nodup_of_perm (done kept rs : List (Reservation α)) (hperm : (done ++ kept).Perm rs)
    (hids : (rs.map (·.id)).Nodup) : (kept.map (·.id)).Nodup := by
  have hboth := (hperm.map (·.id)).nodup_iff.mpr hids
  rw [List.map_append] at hboth
  exact hboth.of_append_right

omit [Amount α] in
theorem take_spec (l l' : Ledger α) (id : ReservationId) (r : Reservation α)
    (hids : (l.pending.map (·.id)).Nodup) (h : l.take id = some (r, l')) :
    r.id = id ∧ l' = { l with pending := l'.pending } ∧ l.pending.Perm (r :: l'.pending) := by
  unfold take at h
  obtain ⟨r', hfind, he⟩ := Option.map_eq_some_iff.mp h
  cases he
  have hid : r.id = id := by simpa using List.find?_some hfind
  subst hid
  exact ⟨rfl, rfl, perm_cons_filter_id l.pending r hids (List.mem_of_find?_eq_some hfind)⟩

omit [Amount α] in
theorem take_eq_none (l : Ledger α) (id : ReservationId) :
    l.take id = none ↔ ∀ r ∈ l.pending, r.id ≠ id := by
  simp [take]

omit [Amount α] in
theorem take_rows (l l' : Ledger α) (id : ReservationId) (r : Reservation α)
    (h : l.take id = some (r, l')) : l'.rows = l.rows := by
  unfold take at h
  obtain ⟨_, -, he⟩ := Option.map_eq_some_iff.mp h
  cases he
  rfl

omit [Amount α] in
theorem take_pending (l l' : Ledger α) (id : ReservationId) (r : Reservation α)
    (h : l.take id = some (r, l')) :
    l'.pending.Sublist l.pending ∧ l'.pending.length < l.pending.length := by
  unfold take at h
  obtain ⟨found, hfind, he⟩ := Option.map_eq_some_iff.mp h
  cases he
  have hid : r.id = id := by simpa using List.find?_some hfind
  have hmem : r ∈ l.pending := List.mem_of_find?_eq_some hfind
  refine ⟨List.filter_sublist, ?_⟩
  refine List.length_filter_lt_length_iff_exists.mpr ⟨r, hmem, by simp [hid]⟩

/-! ## Charging -/

theorem charge_eq (l : Ledger α) (r : Reservation α) (cost : α) (now : Periods) :
    l.charge r cost now =
      { l.put r.key (((l.row r.key).roll now).settle r.amount cost r.madeIn)
          ((l.global.roll now).settle r.amount cost r.globalMadeIn) with dirty := true } := by
  unfold charge
  rw [updateRow_eq]

@[simp] theorem charge_pending (l : Ledger α) (r : Reservation α) (cost : α) (now : Periods) :
    (l.charge r cost now).pending = l.pending := by
  rw [charge_eq]
  rfl

@[simp] theorem charge_settings (l : Ledger α) (r : Reservation α) (cost : α) (now : Periods) :
    (l.charge r cost now).settings = l.settings := by
  rw [charge_eq]
  rfl

@[simp] theorem charge_clock (l : Ledger α) (r : Reservation α) (cost : α) (now : Periods) :
    (l.charge r cost now).clock = l.clock := by
  rw [charge_eq]
  rfl

def bookAll (l : Ledger α) (rs : List (Reservation α)) (now : Periods) : Ledger α :=
  rs.foldl (fun l r => (l.advance now).charge r r.amount now) l

@[simp] theorem bookAll_pending (l : Ledger α) (rs : List (Reservation α)) (now : Periods) :
    (l.bookAll rs now).pending = l.pending := by
  induction rs generalizing l with
  | nil => rfl
  | cons r rs ih => exact (ih _).trans (charge_pending _ r r.amount now)

theorem sweepPeriods_eq (l : Ledger α) (now : Periods) :
    l.sweepPeriods now =
      bookAll { l with pending := l.pending.filter fun r => !(r.madeIn.month < now.month) }
        (l.expired now) now := rfl

theorem sweepPeriods_pending (l : Ledger α) (now : Periods) :
    (l.sweepPeriods now).pending = l.pending.filter fun r => !(r.madeIn.month < now.month) := by
  rw [sweepPeriods_eq, bookAll_pending]

theorem expired_perm (l : Ledger α) (now : Periods) :
    (l.expired now ++ (l.sweepPeriods now).pending).Perm l.pending := by
  rw [sweepPeriods_pending]
  exact List.filter_append_perm (fun r => decide (r.madeIn.month < now.month)) l.pending

/-- The reservations that a look at the clock settles. -/
def swept (l : Ledger α) (now : Periods) : List (Reservation α) :=
  if l.clock.month < now.month then l.expired now else []

theorem swept_perm (l : Ledger α) (now : Periods) :
    (l.swept now ++ (l.observe now).pending).Perm l.pending := by
  unfold swept observe
  split
  · exact (l.advance now).expired_perm now
  · exact .refl _

theorem settle_perm (l : Ledger α) (r : Reservation α) (cost : α) (t : Timestamp) :
    (l.swept (l.periodsAt t) ++ (l.settle r cost t).pending).Perm l.pending := by
  unfold settle
  rw [charge_pending]
  exact l.swept_perm (l.periodsAt t)

/-! ## Making a reservation -/

/-- No limit stands against an estimate. -/
structure Passes (settings : LedgerSettings α) (caps : Capabilities α) (estimate : α)
    (row global : Row α) : Prop where
  caller : row.check estimate caps.dailyBudget caps.monthlyBudget .identityDaily .identityMonthly = none
  everybody : global.check estimate settings.globalDaily settings.globalMonthly .globalDaily
    .globalMonthly = none

theorem bookRows_cases (settings : LedgerSettings α) (caps : Capabilities α) (estimate : α)
    (now : Periods) (row global : Row α) :
    (∃ rejection global', (global' = global ∨ global' = global.roll now) ∧
      ¬ Passes settings caps estimate (row.roll now) (global.roll now) ∧
      bookRows settings caps estimate now row global = (.error rejection, row.roll now, global')) ∨
    (Passes settings caps estimate (row.roll now) (global.roll now) ∧
      bookRows settings caps estimate now row global =
        (.ok ((row.roll now).periods, (global.roll now).periods), (row.roll now).reserve estimate,
          (global.roll now).reserve estimate)) := by
  cases hcaller : (row.roll now).check estimate caps.dailyBudget caps.monthlyBudget .identityDaily
      .identityMonthly with
  | some rejection =>
    refine Or.inl ⟨rejection, global, Or.inl rfl, fun hp => ?_, by simp only [bookRows, hcaller]⟩
    rw [hp.caller] at hcaller
    cases hcaller
  | none =>
    cases heverybody : (global.roll now).check estimate settings.globalDaily settings.globalMonthly
        .globalDaily .globalMonthly with
    | some rejection =>
      refine Or.inl ⟨rejection, global.roll now, Or.inr rfl, fun hp => ?_,
        by simp only [bookRows, hcaller, heverybody]⟩
      rw [hp.everybody] at heverybody
      cases heverybody
    | none => exact Or.inr ⟨⟨hcaller, heverybody⟩, by simp only [bookRows, hcaller, heverybody]⟩

variable (l : Ledger α) (id : ReservationId) (who : Identity) (caps : Capabilities α) (estimate : α)
  (basis : Option (PriceBasis α)) (t : Timestamp)

/-- Book a reservation when there is room for it. -/
def enroll (now : Periods) : Except (Rejection α) Unit × Ledger α :=
  match l.updateRow who.key (bookRows l.settings caps estimate now) with
  | (.error rejection, l) => (.error rejection, l)
  | (.ok (madeIn, globalMadeIn), l) =>
    let r : Reservation α :=
      { id, key := who.key, amount := estimate, madeIn, globalMadeIn, chargedAt := t, basis }
    (.ok (), { l with pending := l.pending ++ [r], dirty := true })

/-- The ledger in which a reservation is booked: the clock is moved on and room is made. -/
def prepared : Ledger α :=
  makeRoom t (l.observe (l.periodsAt t)).pending.length (l.observe (l.periodsAt t))

theorem reserve_eq :
    l.reserve id who caps estimate basis t =
      (l.prepared t).enroll id who caps (Amount.sanitize estimate) basis t (l.periodsAt t) := rfl

/-- A reservation is refused with the row at the new periods, or booked in both rows. -/
theorem enroll_cases (now : Periods) :
    (∃ rejection global, (global = l.global ∨ global = l.global.roll now) ∧
      ¬ Passes l.settings caps estimate ((l.row who.key).roll now) (l.global.roll now) ∧
      l.enroll id who caps estimate basis t now =
        (.error rejection, l.put who.key ((l.row who.key).roll now) global)) ∨
    (∃ r, r.id = id ∧ r.key = who.key ∧ r.amount = estimate ∧ r.chargedAt = t ∧ r.basis = basis ∧
      r.madeIn = ((l.row who.key).roll now).periods ∧ r.globalMadeIn = (l.global.roll now).periods ∧
      Passes l.settings caps estimate ((l.row who.key).roll now) (l.global.roll now) ∧
      l.enroll id who caps estimate basis t now =
        (.ok (), { l.put who.key (((l.row who.key).roll now).reserve estimate)
            ((l.global.roll now).reserve estimate) with
          pending := l.pending ++ [r], dirty := true })) := by
  unfold enroll
  rw [updateRow_eq]
  rcases bookRows_cases l.settings caps estimate now (l.row who.key) l.global with
    ⟨rejection, global, hglobal, hp, h⟩ | ⟨hp, h⟩
  · rw [h]
    exact Or.inl ⟨rejection, global, hglobal, hp, rfl⟩
  · rw [h]
    exact Or.inr ⟨_, rfl, rfl, rfl, rfl, rfl, rfl, rfl, hp, rfl⟩

end Ledger

end Admission
