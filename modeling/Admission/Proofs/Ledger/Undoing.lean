import Admission.Proofs.Ledger.Agreement

/-!
# Giving a reservation back

A reservation that is given back in the periods in which it was made leaves both rows where they stood.
What stays is the row of its caller, which may have displaced another one.
-/

namespace Admission

/-! ## Meters and rows -/

section

variable {α : Type} [Amount α]

theorem Meter.view_blank (m : Meter α) (now later : Int) (limit : α) (h : now ≤ later)
    (hblank : m.view now limit = ⟨0, 0, limit⟩) : m.view later limit = ⟨0, 0, limit⟩ := by
  unfold view at hblank ⊢
  split
  · next hle =>
    rw [if_pos (h.trans hle)] at hblank
    exact hblank
  · rfl

/-- No period of `later` is over in `now`. -/
def Periods.NotBefore (now later : Periods) : Prop := now.day ≤ later.day ∧ now.month ≤ later.month

theorem Row.Blank.later {row : Row α} {now later : Periods} (h : row.Blank now)
    (hlater : now.NotBefore later) : row.Blank later :=
  fun limit => ⟨row.day.view_blank _ _ limit hlater.1 (h limit).1,
    row.month.view_blank _ _ limit hlater.2 (h limit).2⟩

theorem Ledger.report_roll_of_le (key : String) (row : Row α) (now later : Periods) (daily monthly : α)
    (h : now.NotBefore later) :
    report key (row.roll now) later daily monthly = report key row later daily monthly := by
  simp only [report, Row.roll, Meter.view_roll_of_le _ _ _ _ h.1, Meter.view_roll_of_le _ _ _ _ h.2]

end

theorem Meter.roll_roll (m : Meter Rat) (now : Int) : (m.roll now).roll now = m.roll now :=
  (m.roll now).roll_of_le now (m.le_marker_roll now)

theorem Meter.reserved_roll_nonneg (m : Meter Rat) (now : Int) (h : 0 ≤ m.reserved) :
    0 ≤ (m.roll now).reserved := by
  unfold roll
  split
  · exact le_refl (0 : Rat)
  · exact h

theorem Meter.settle_reserve (m : Meter Rat) (amount : Rat) (h : 0 ≤ m.reserved) :
    (m.reserve amount).settle amount 0 m.marker = m := by
  have hreserved : Amount.larger (m.reserved + amount - amount) 0 = m.reserved := by
    unfold Amount.larger
    grind
  unfold reserve settle
  rw [if_pos rfl]
  simp only [hreserved, Rat.add_zero]

namespace Row

variable (row : Row Rat) (now : Periods)

theorem roll_roll : (row.roll now).roll now = row.roll now := by
  simp only [roll, Meter.roll_roll]

theorem roll_reserve (amount : Rat) :
    ((row.roll now).reserve amount).roll now = (row.roll now).reserve amount := by
  have hday := ((row.day.roll now.day).reserve amount).roll_of_le now.day (row.day.le_marker_roll now.day)
  have hmonth := ((row.month.roll now.month).reserve amount).roll_of_le now.month
    (row.month.le_marker_roll now.month)
  simp only [reserve, roll, hday, hmonth]

/-- No less than nothing is reserved. -/
structure Holds : Prop where
  day : 0 ≤ row.day.reserved
  month : 0 ≤ row.month.reserved

variable {row}

theorem Balanced.holds {madeIn : Reservation Rat → Periods} {held : List (Reservation Rat)}
    {booked : List (Ledger.Settlement Rat)} (h : row.Balanced madeIn held booked)
    (hamounts : ∀ r ∈ held, 0 ≤ r.amount) : row.Holds where
  day := h.day.shows.reserved ▸ row.day.ofPeriod_sum_nonneg _ held hamounts
  month := h.month.shows.reserved ▸ row.month.ofPeriod_sum_nonneg _ held hamounts

theorem Holds.roll (h : row.Holds) : (row.roll now).Holds :=
  ⟨row.day.reserved_roll_nonneg now.day h.day, row.month.reserved_roll_nonneg now.month h.month⟩

theorem Holds.settle_reserve (h : row.Holds) (amount : Rat) :
    (row.reserve amount).settle amount 0 row.periods = row := by
  show (⟨(row.day.reserve amount).settle amount 0 row.day.marker,
    (row.month.reserve amount).settle amount 0 row.month.marker, row.pending⟩ : Row Rat) = row
  rw [row.day.settle_reserve amount h.day, row.month.settle_reserve amount h.month]

theorem Holds.undo (h : row.Holds) (amount : Rat) :
    ((((row.roll now).reserve amount).roll now).settle amount 0 (row.roll now).periods) =
      row.roll now := by
  -- A row in which something was reserved was rolled then, and rolls no further.
  rw [roll_reserve]
  exact (h.roll now).settle_reserve amount

end Row

namespace Ledger

theorem Backed.holds {l : Ledger Rat} {held : List (Reservation Rat)} (h : Backed l held) :
    (∀ key, (l.row key).Holds) ∧ l.global.Holds := by
  obtain ⟨b, hb⟩ := h
  refine ⟨fun key => ?_, hb.global.holds hb.amounts⟩
  exact (hb.row l held b key).holds fun r hr => hb.amounts r (List.mem_of_mem_filter hr)

/-! ## One row put back -/

section

variable {α : Type} [Amount α]

/-- The row of a key was put back, with whatever that displaces, and so was the row of everybody. -/
structure Touched (now : Periods) (key : String) (row global : Row α) (l l' : Ledger α) : Prop where
  settings : l'.settings = l.settings
  clock : l'.clock = l.clock.join now
  sound : l'.rows.Sound
  self : l'.rows.get? key = some row
  others : ∀ other, other ≠ key → l'.rows.get? other =
    if ((l.advance now).displaced? key).map (·.1) = some other then none else l.rows.get? other
  global : l'.global = global

variable {now : Periods} {key : String} {row row' global global' : Row α} {l l' l'' : Ledger α}

theorem Touched.trans (h : Touched now key row global l l') (h' : Touched now key row' global' l' l'') :
    Touched now key row' global' l l'' := by
  have hroom : (l'.advance now).displaced? key = none :=
    l'.rows.displaced?_of_get? (Row.evictionRank (l'.clock.join now)) key row h.self
  refine ⟨h'.settings.trans h.settings, ?_, h'.sound, h'.self, fun other hne => ?_, h'.global⟩
  · rw [h'.clock, h.clock, join_join]
  · rw [h'.others other hne, hroom, Option.map_none, if_neg (Option.some_ne_none other).symm,
      h.others other hne]

theorem Touched.periodsAt (h : Touched now key row global l l') (t : Timestamp) :
    l'.periodsAt t = l.periodsAt t := by
  rw [Ledger.periodsAt, Ledger.periodsAt, h.settings]

theorem Touched.row_self (h : Touched now key row global l l') : l'.row key = row := by
  rw [Ledger.row, h.self, Option.getD_some]

theorem Touched.row_of_ne (h : Touched now key row global l l') (other : String) (hne : other ≠ key) :
    l'.row other =
      if ((l.advance now).displaced? key).map (·.1) = some other then .empty else l.row other := by
  rw [Ledger.row, h.others other hne]
  split <;> rfl

theorem put_touched (l : Ledger α) (now : Periods) (key : String) (row global : Row α)
    (h : l.rows.Sound) (pending : List (Reservation α)) (dirty : Bool) :
    Touched now key row global l { (l.advance now).put key row global with pending, dirty } where
  settings := rfl
  clock := rfl
  sound := (l.advance now).put_sound key row global h
  self := (l.advance now).get?_put_self key row global h
  others other hne := (l.advance now).get?_put_of_ne key other row global h hne
  global := rfl

/-! ## Reserving and releasing -/

/-- At a time no month opens, and there is room for one more reservation. -/
structure Ready (l : Ledger α) (t : Timestamp) : Prop where
  sound : l.rows.Sound
  month : (l.periodsAt t).month ≤ l.clock.month
  room : l.pending.length < l.pendingLimit

theorem Touched.ready {t : Timestamp} (h : Touched (l.periodsAt t) key row global l l')
    (hpending : l'.pending = l.pending) (hready : l.Ready t) : l'.Ready t := by
  refine ⟨h.sound, ?_, ?_⟩
  · rw [h.periodsAt t, h.clock]
    exact hready.month.trans (le_max_left _ _)
  · rw [hpending, pendingLimit, h.settings]
    exact hready.room

variable (l : Ledger α) (id : ReservationId) (who : Identity) (caps : Capabilities α) (estimate : α)
  (basis : Option (PriceBasis α)) (t : Timestamp)

theorem reserve_accepted_touched (h : l.Ready t)
    (haccepted : (l.reserve id who caps estimate basis t).1 = .ok ()) :
    ∃ r : Reservation α, r.id = id ∧ r.key = who.key ∧
      r.madeIn = ((l.row who.key).roll (l.periodsAt t)).periods ∧
      r.globalMadeIn = (l.global.roll (l.periodsAt t)).periods ∧
      Touched (l.periodsAt t) who.key (((l.row who.key).roll (l.periodsAt t)).reserve r.amount)
        ((l.global.roll (l.periodsAt t)).reserve r.amount) l
        (l.reserve id who caps estimate basis t).2 ∧
      (l.reserve id who caps estimate basis t).2.pending = l.pending ++ [r] := by
  rw [reserve_eq, l.prepared_eq t h.month h.room] at haccepted ⊢
  rcases (l.advance (l.periodsAt t)).enroll_cases id who caps (Amount.sanitize estimate) basis t
    (l.periodsAt t) with ⟨_, _, -, -, he⟩ | ⟨r, hid, hkey, hamount, -, -, hmadeIn, hglobal, -, he⟩
  · rw [he] at haccepted
    cases haccepted
  · rw [he, ← hamount]
    exact ⟨r, hid, hkey, hmadeIn, hglobal, l.put_touched _ who.key _ _ h.sound _ true, rfl⟩

omit [Amount α] in
theorem take_append_singleton (before : List (Reservation α)) (r : Reservation α)
    (hpending : l.pending = before ++ [r]) (hfresh : ∀ other ∈ before, other.id ≠ r.id) :
    l.take r.id = some (r, { l with pending := before }) := by
  have hnone : before.find? (fun other => other.id == r.id) = none :=
    List.find?_eq_none.mpr fun other ho => by simpa using hfresh other ho
  have hall : before.filter (fun other => other.id != r.id) = before :=
    List.filter_eq_self.mpr fun other ho => by simpa using hfresh other ho
  unfold take
  rw [hpending, List.find?_append, hnone, List.filter_append, hall]
  simp

theorem release_latest (before : List (Reservation α)) (r : Reservation α)
    (hpending : l.pending = before ++ [r]) (hfresh : ∀ other ∈ before, other.id ≠ r.id) :
    (l.release r.id t).2 =
      ({ l with pending := before } : Ledger α).settle r (Amount.sanitize 0) t := by
  have htake := l.take_append_singleton before r hpending hfresh
  simp only [release, reconcile, htake]

theorem release_touched (hsound : l.rows.Sound) (hmonth : (l.periodsAt t).month ≤ l.clock.month)
    (before : List (Reservation α)) (r : Reservation α) (hpending : l.pending = before ++ [r])
    (hfresh : ∀ other ∈ before, other.id ≠ r.id) :
    Touched (l.periodsAt t) r.key
        (((l.row r.key).roll (l.periodsAt t)).settle r.amount (Amount.sanitize 0) r.madeIn)
        ((l.global.roll (l.periodsAt t)).settle r.amount (Amount.sanitize 0) r.globalMadeIn) l
        (l.release r.id t).2 ∧
      (l.release r.id t).2.pending = before := by
  have hobserve : ({ l with pending := before } : Ledger α).observe (l.periodsAt t) =
      ({ l with pending := before } : Ledger α).advance (l.periodsAt t) := observe_eq _ _ hmonth
  have hsettle : (l.release r.id t).2 =
      { (l.advance (l.periodsAt t)).put r.key
          (((l.row r.key).roll (l.periodsAt t)).settle r.amount (Amount.sanitize 0) r.madeIn)
          ((l.global.roll (l.periodsAt t)).settle r.amount (Amount.sanitize 0) r.globalMadeIn) with
        pending := before, dirty := true } := by
    rw [l.release_latest t before r hpending hfresh, settle]
    show (({ l with pending := before } : Ledger α).observe (l.periodsAt t)).charge r
      (Amount.sanitize 0) (l.periodsAt t) = _
    rw [hobserve, charge_eq]
    rfl
  rw [hsettle]
  exact ⟨l.put_touched _ r.key _ _ hsound before true, rfl⟩

theorem reserve_released_pending (hfresh : ∀ held ∈ l.pending, held.id ≠ id)
    (haccepted : (l.reserve id who caps estimate basis t).1 = .ok ()) :
    ((l.reserve id who caps estimate basis t).2.release id t).2.pending.Sublist
      (l.prepared t).pending := by
  have hprepared : ∀ held ∈ (l.prepared t).pending, held.id ≠ id :=
    fun held hheld => hfresh held ((l.prepared_pending t).subset hheld)
  rw [reserve_eq] at haccepted ⊢
  rcases (l.prepared t).enroll_cases id who caps (Amount.sanitize estimate) basis t (l.periodsAt t) with
    ⟨_, _, -, -, he⟩ | ⟨r, hid, -, -, -, -, -, -, -, he⟩
  · rw [he] at haccepted
    cases haccepted
  · subst hid
    rw [he, release_latest _ t (l.prepared t).pending r rfl hprepared, settle_pending]
    exact observe_pending _ _

end

/-! ## What is left behind -/

/-- All that happened to a ledger is that the row of a key was looked up. -/
structure Visited (now : Periods) (key : String) (l l' : Ledger Rat) : Prop where
  touched : Touched now key ((l.row key).roll now) l'.global l l'
  global : l'.global = l.global ∨ l'.global = l.global.roll now
  pending : l'.pending = l.pending

theorem Visited.trans {now : Periods} {key : String} {l l' l'' : Ledger Rat} (h : Visited now key l l')
    (h' : Visited now key l' l'') : Visited now key l l'' := by
  have htouched := h.touched.trans h'.touched
  rw [h.touched.row_self, Row.roll_roll] at htouched
  refine ⟨htouched, ?_, h'.pending.trans h.pending⟩
  rcases h.global with hglobal | hglobal <;> have hlast := h'.global <;> rw [hglobal] at hlast
  · exact hlast
  · rw [Row.roll_roll, or_self] at hlast
    exact Or.inr hlast

theorem Visited.ready {key : String} {l l' : Ledger Rat} {t : Timestamp} (hready : l.Ready t)
    (h : Visited (l.periodsAt t) key l l') : l'.periodsAt t = l.periodsAt t ∧ l'.Ready t :=
  ⟨h.touched.periodsAt t, h.touched.ready h.pending hready⟩

theorem Visited.holds {now : Periods} {key : String} {l l' : Ledger Rat} (h : Visited now key l l')
    (hrow : (l.row key).Holds) (hglobal : l.global.Holds) :
    (l'.row key).Holds ∧ l'.global.Holds := by
  refine ⟨h.touched.row_self ▸ hrow.roll now, ?_⟩
  rcases h.global with heq | heq <;> rw [heq]
  · exact hglobal
  · exact hglobal.roll now

section

variable (l : Ledger Rat) (id : ReservationId) (who : Identity) (caps : Capabilities Rat) (estimate : Rat)
  (basis : Option (PriceBasis Rat)) (t : Timestamp)

theorem reserve_rejected_visited (h : l.Ready t)
    (hrejected : ∃ rejection, (l.reserve id who caps estimate basis t).1 = .error rejection) :
    Visited (l.periodsAt t) who.key l (l.reserve id who caps estimate basis t).2 := by
  obtain ⟨global, hglobal, hl⟩ := l.reserve_rejected id who caps estimate basis t hrejected
  rw [l.prepared_eq t h.month h.room] at hglobal hl
  rw [hl]
  exact ⟨l.put_touched _ who.key _ global h.sound l.pending l.dirty, hglobal, rfl⟩

theorem reserve_released_visited (h : l.Ready t) (hrow : (l.row who.key).Holds) (hglobal : l.global.Holds)
    (hfresh : ∀ held ∈ l.pending, held.id ≠ id)
    (haccepted : (l.reserve id who caps estimate basis t).1 = .ok ()) :
    Visited (l.periodsAt t) who.key l
      ((l.reserve id who caps estimate basis t).2.release id t).2 := by
  obtain ⟨r, hid, hkey, hmadeIn, hglobalMadeIn, htouched, hpending⟩ :=
    l.reserve_accepted_touched id who caps estimate basis t h haccepted
  generalize (l.reserve id who caps estimate basis t).2 = reserved at htouched hpending ⊢
  have hnow := htouched.periodsAt t
  have hclock : (reserved.periodsAt t).month ≤ reserved.clock.month := by
    rw [hnow, htouched.clock]
    exact h.month.trans (le_max_left _ _)
  obtain ⟨hreleased, hpending'⟩ := reserved.release_touched t htouched.sound hclock l.pending r hpending
    (fun held hheld => hid ▸ hfresh held hheld)
  rw [hnow, hkey, htouched.row_self, htouched.global, hmadeIn, hglobalMadeIn,
    sanitize_of_nonneg 0 le_rfl, hrow.undo, hglobal.undo, hid] at hreleased
  rw [hid] at hpending'
  have hboth := htouched.trans hreleased
  exact ⟨hboth.global.symm ▸ hboth, Or.inr hboth.global, hpending'⟩

end

/-- At a time the same reservations are open and the same amounts are shown, for every caller and for
everybody. -/
structure SameAmounts (l l' : Ledger Rat) (t : Timestamp) : Prop where
  pending : l'.pending.Perm l.pending
  usage : ∀ who caps, (l'.usage who caps t).1 = (l.usage who caps t).1
  globalUsage : l'.globalUsage t = l.globalUsage t

theorem displaced?_row (l : Ledger Rat) (now : Periods) (key : String) (entry : String × Row Rat)
    (hsound : l.rows.Sound) (hdisplaced : (l.advance now).displaced? key = some entry) :
    entry.1 ≠ key ∧ l.row entry.1 = entry.2 := by
  obtain ⟨hget, -, hnone⟩ := (l.advance now).displaced?_spec key entry hsound hdisplaced
  refine ⟨fun hkey => ?_, congrArg (·.getD .empty) hget⟩
  rw [hkey, hnone] at hget
  cases hget

/-- Looking up a row changes no amount from then on exactly if it displaces none in which a caller still
has amounts. -/
theorem Visited.sameAmounts_iff {key : String} {l l' : Ledger Rat} {t : Timestamp} (hsound : l.rows.Sound)
    (h : Visited (l.periodsAt t) key l l') :
    (∀ later, (l.periodsAt t).NotBefore (l.periodsAt later) → SameAmounts l l' later) ↔
      ∀ entry, (l.advance (l.periodsAt t)).displaced? key = some entry →
        (∃ other : Identity, other.key = entry.1) → entry.2.Blank (l.periodsAt t) := by
  constructor
  · rintro hsame entry hdisplaced ⟨other, hkey⟩
    obtain ⟨hne, hrow⟩ := l.displaced?_row _ key entry hsound hdisplaced
    rw [← report_empty_iff other.key]
    intro daily monthly
    have husage := (hsame t ⟨le_rfl, le_rfl⟩).usage other
      { Capabilities.builtin .standard with dailyBudget := daily, monthlyBudget := monthly }
    rw [usage_eq, usage_eq, h.touched.periodsAt, hkey, h.touched.row_of_ne entry.1 hne, hdisplaced,
      Option.map_some, if_pos rfl, hrow] at husage
    rw [hkey]
    exact husage.symm
  · intro hblank later hlater
    refine ⟨h.pending ▸ .refl _, fun other caps => ?_, ?_⟩
    · rw [usage_eq, usage_eq, h.touched.periodsAt]
      by_cases hkey : other.key = key
      · rw [hkey, h.touched.row_self]
        exact report_roll_of_le _ _ _ _ _ _ hlater
      rw [h.touched.row_of_ne other.key hkey]
      split
      · -- The caller's own row was displaced, and there was nothing left in it.
        next hdisplaced =>
        obtain ⟨entry, hentry, hentryKey⟩ := Option.map_eq_some_iff.mp hdisplaced
        obtain ⟨-, hrow⟩ := l.displaced?_row _ key entry hsound hentry
        have hlaterBlank := (hblank entry hentry ⟨other, hentryKey.symm⟩).later hlater
        rw [← hentryKey, hrow]
        exact ((report_empty_iff entry.1 entry.2 _).mpr hlaterBlank _ _).symm
      · rfl
    · rw [globalUsage, globalUsage, h.touched.periodsAt, h.touched.settings]
      rcases h.global with hglobal | hglobal <;> rw [hglobal]
      exact report_roll_of_le _ _ _ _ _ _ hlater

end Ledger

end Admission
