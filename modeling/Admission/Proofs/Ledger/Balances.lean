import Mathlib
import Admission.Ledger.Store
import Admission.Proofs.Double.Addition
import Admission.Proofs.Ledger.Room

/-!
# Balances are not negative

Estimates and actual costs are made fit for a total before they are booked, so no booking takes a balance
below nothing. The one way in for a negative amount is stored spending of a later period, which replaces
what is there as it stands.
-/

namespace Admission

/-! ## Amounts -/

namespace Double

theorem zero_le_zero : (0 : Double) ≤ 0 := by decide +kernel

theorem larger_zero_nonneg (x : Double) : 0 ≤ Amount.larger x 0 := by
  unfold Amount.larger
  split
  · exact zero_le_zero
  split
  · next hneg hdefined => exact Double.le_of_not_le x 0 hdefined zero_le_zero hneg
  · exact zero_le_zero

theorem larger_nonneg (x y : Double) (hx : 0 ≤ x) : 0 ≤ Amount.larger x y := by
  unfold Amount.larger
  split
  · next hxy => exact Double.le_trans 0 x y hx hxy
  · have hself : x ≤ x := (defined_of_le 0 x hx).2
    rw [if_pos hself]
    exact hx

theorem sanitize_nonneg (x : Double) : 0 ≤ Amount.sanitize x := by
  unfold Amount.sanitize
  split
  · exact larger_zero_nonneg x
  · exact zero_le_zero

end Double

/-! ## Rows -/

structure Meter.Nonneg (m : Meter Double) : Prop where
  spent : 0 ≤ m.spent
  reserved : 0 ≤ m.reserved

structure Row.Nonneg (row : Row Double) : Prop where
  day : row.day.Nonneg
  month : row.month.Nonneg

structure StoredRow.Nonneg (row : StoredRow Double) : Prop where
  day : 0 < row.day → 0 ≤ row.dailySpent
  month : 0 < row.month → 0 ≤ row.monthlySpent

structure Snapshot.Nonneg (s : Snapshot Double) : Prop where
  global : s.global.Nonneg
  identities : ∀ entry ∈ s.identities.toList, entry.2.Nonneg

/-- What every meter shows of its past. Spending of a period after the first may come from a snapshot, so
it counts as not negative only where the snapshots are trusted. -/
structure Meter.Sane (trusted : Prop) (m : Meter Double) : Prop where
  marker : 0 ≤ m.marker
  spent : trusted ∨ m.marker = 0 → 0 ≤ m.spent
  reserved : 0 ≤ m.reserved

namespace Meter.Sane

variable {trusted : Prop} {m : Meter Double}

theorem zero (trusted : Prop) : (Meter.zero : Meter Double).Sane trusted :=
  ⟨le_rfl, fun _ => Double.zero_le_zero, Double.zero_le_zero⟩

theorem roll (h : m.Sane trusted) (now : Int) : (m.roll now).Sane trusted := by
  unfold Meter.roll
  split
  · next hlt => exact ⟨h.marker.trans hlt.le, fun _ => Double.zero_le_zero, Double.zero_le_zero⟩
  · exact h

theorem reserve (h : m.Sane trusted) (amount : Double) (ha : 0 ≤ amount) :
    (m.reserve amount).Sane trusted :=
  ⟨h.marker, h.spent, Double.add_nonneg _ _ h.reserved ha⟩

theorem settle (h : m.Sane trusted) (amount actual : Double) (madeIn : Int) (ha : 0 ≤ actual) :
    (m.settle amount actual madeIn).Sane trusted := by
  unfold Meter.settle
  split
  · exact ⟨h.marker, fun ht => Double.add_nonneg _ _ (h.spent ht) ha, Double.larger_zero_nonneg _⟩
  · exact h

theorem absorb (h : m.Sane trusted) (marker : Int) (spent : Double)
    (hs : trusted → 0 < marker → 0 ≤ spent) : (m.absorb marker spent).Sane trusted := by
  unfold Meter.absorb
  split
  · exact ⟨h.marker, fun ht => Double.larger_nonneg _ _ (h.spent ht), h.reserved⟩
  split
  · next hlt =>
    have hpos : 0 < marker := h.marker.trans_lt hlt
    refine ⟨hpos.le, fun ht => ?_, Double.zero_le_zero⟩
    rcases ht with ht | hzero
    · exact hs ht hpos
    · exact absurd hzero hpos.ne'
  · exact h

theorem nonneg (h : m.Sane True) : m.Nonneg := ⟨h.spent (Or.inl trivial), h.reserved⟩

theorem le_cap (h : m.Sane True) (estimate cap : Double) (he : 0 ≤ estimate) (hcap : 0 < cap)
    (hcross : m.crosses estimate cap = false) : estimate ≤ cap := by
  have hcommitted : 0 ≤ m.committed := Double.add_nonneg _ _ h.nonneg.spent h.nonneg.reserved
  have hle : estimate ≤ m.committed + estimate := Double.le_add_left estimate m.committed hcommitted he
  have hnot : ¬ cap < m.committed + estimate := by
    simpa [Meter.crosses, hcap] using hcross
  have hdefined : cap.Defined := (Double.defined_of_le 0 cap (Double.le_of_lt 0 cap hcap)).2
  have hsum : m.committed + estimate ≤ cap := by
    by_contra hgt
    exact hnot (Double.lt_of_not_le _ cap (Double.defined_of_le _ _ hle).2 hdefined hgt)
  exact Double.le_trans _ _ _ hle hsum

end Meter.Sane

structure Row.Sane (trusted : Prop) (row : Row Double) : Prop where
  day : row.day.Sane trusted
  month : row.month.Sane trusted

namespace Row.Sane

variable {trusted : Prop} {row : Row Double}

theorem empty (trusted : Prop) : (Row.empty : Row Double).Sane trusted := ⟨.zero trusted, .zero trusted⟩

theorem roll (h : row.Sane trusted) (now : Periods) : (row.roll now).Sane trusted :=
  ⟨h.day.roll now.day, h.month.roll now.month⟩

theorem reserve (h : row.Sane trusted) (amount : Double) (ha : 0 ≤ amount) :
    (row.reserve amount).Sane trusted :=
  ⟨h.day.reserve amount ha, h.month.reserve amount ha⟩

theorem settle (h : row.Sane trusted) (amount actual : Double) (madeIn : Periods) (ha : 0 ≤ actual) :
    (row.settle amount actual madeIn).Sane trusted :=
  ⟨h.day.settle amount actual madeIn.day ha, h.month.settle amount actual madeIn.month ha⟩

theorem absorb (h : row.Sane trusted) (stored : StoredRow Double) (hs : trusted → stored.Nonneg) :
    (row.absorb stored).Sane trusted :=
  ⟨h.day.absorb stored.day stored.dailySpent fun ht => (hs ht).day,
    h.month.absorb stored.month stored.monthlySpent fun ht => (hs ht).month⟩

theorem nonneg (h : row.Sane True) : row.Nonneg := ⟨h.day.nonneg, h.month.nonneg⟩

end Row.Sane

/-! ## Ledgers -/

namespace Ledger

/-- All rows are sane, and no open reservation is of a negative amount. -/
structure Sane (trusted : Prop) (l : Ledger Double) : Prop where
  sound : l.rows.Sound
  rows : ∀ key row, l.rows.get? key = some row → row.Sane trusted
  global : l.global.Sane trusted
  amounts : ∀ r ∈ l.pending, 0 ≤ r.amount

namespace Sane

variable {trusted : Prop} {l : Ledger Double}

theorem new (trusted : Prop) (assign : String → Nat) (settings : LedgerSettings Double) :
    (Ledger.new assign settings).Sane trusted where
  sound := Shards.new_sound _ _ _
  rows key row h := by
    rw [new_get?] at h
    cases h
  global := .empty trusted
  amounts := by simp [Ledger.new]

theorem row (h : l.Sane trusted) (key : String) : (l.row key).Sane trusted := by
  unfold Ledger.row
  cases hget : l.rows.get? key with
  | none => exact .empty trusted
  | some row => exact h.rows key row hget

theorem put (h : l.Sane trusted) (key : String) (row global : Row Double) (hrow : row.Sane trusted)
    (hglobal : global.Sane trusted) : (l.put key row global).Sane trusted where
  sound := l.put_sound key row global h.sound
  rows other found hfound := by
    by_cases hkey : other = key
    · subst hkey
      rw [l.get?_put_self other row global h.sound] at hfound
      cases hfound
      exact hrow
    · rw [l.get?_put_of_ne key other row global h.sound hkey] at hfound
      split at hfound
      · cases hfound
      · exact h.rows other found hfound
  global := hglobal
  amounts := h.amounts

theorem charge (h : l.Sane trusted) (r : Reservation Double) (cost : Double) (now : Periods)
    (hcost : 0 ≤ cost) : (l.charge r cost now).Sane trusted := by
  rw [charge_eq]
  have hput := h.put r.key _ _ (((h.row r.key).roll now).settle r.amount cost r.madeIn hcost)
    ((h.global.roll now).settle r.amount cost r.globalMadeIn hcost)
  exact ⟨hput.sound, hput.rows, hput.global, hput.amounts⟩

theorem advance (h : l.Sane trusted) (now : Periods) : (l.advance now).Sane trusted :=
  ⟨h.sound, h.rows, h.global, h.amounts⟩

theorem bookAll (h : l.Sane trusted) (rs : List (Reservation Double)) (now : Periods)
    (hrs : ∀ r ∈ rs, 0 ≤ r.amount) : (l.bookAll rs now).Sane trusted := by
  induction rs generalizing l with
  | nil => exact h
  | cons r rs ih =>
    exact ih ((h.advance now).charge r r.amount now (hrs r List.mem_cons_self)) fun other hother =>
      hrs other (List.mem_cons_of_mem _ hother)

theorem sweepPeriods (h : l.Sane trusted) (now : Periods) : (l.sweepPeriods now).Sane trusted := by
  rw [sweepPeriods_eq]
  have hkept : Sane trusted { l with pending := l.pending.filter fun r => !(r.madeIn.month < now.month) } :=
    ⟨h.sound, h.rows, h.global, fun r hr => h.amounts r (List.mem_filter.mp hr).1⟩
  exact hkept.bookAll _ now fun r hr => h.amounts r (List.mem_filter.mp hr).1

theorem observe (h : l.Sane trusted) (now : Periods) : (l.observe now).Sane trusted := by
  unfold Ledger.observe
  split
  · exact (h.advance now).sweepPeriods now
  · exact h.advance now

theorem settle (h : l.Sane trusted) (r : Reservation Double) (cost : Double) (t : Timestamp)
    (hcost : 0 ≤ cost) : (l.settle r cost t).Sane trusted :=
  (h.observe _).charge r cost _ hcost

theorem take (h : l.Sane trusted) (l' : Ledger Double) (id : ReservationId) (r : Reservation Double)
    (htake : l.take id = some (r, l')) : l'.Sane trusted ∧ 0 ≤ r.amount := by
  unfold Ledger.take at htake
  obtain ⟨found, hfind, he⟩ := Option.map_eq_some_iff.mp htake
  cases he
  exact ⟨⟨h.sound, h.rows, h.global, fun r hr => h.amounts r (List.mem_filter.mp hr).1⟩,
    h.amounts r (List.mem_of_find?_eq_some hfind)⟩

theorem makeRoom (h : l.Sane trusted) (t : Timestamp) (steps : Nat) :
    (makeRoom t steps l).Sane trusted := by
  induction steps generalizing l with
  | zero => exact h
  | succ steps ih =>
    unfold Ledger.makeRoom
    split
    · exact h
    split
    · next r l' htake =>
      obtain ⟨oldest, -, htake⟩ := Option.bind_eq_some_iff.mp htake
      obtain ⟨hl', hr⟩ := h.take l' oldest.id r htake
      exact ih (hl'.settle r r.amount t hr)
    · exact h

theorem prepared (h : l.Sane trusted) (t : Timestamp) : (l.prepared t).Sane trusted :=
  (h.observe _).makeRoom t _

theorem reserve (h : l.Sane trusted) (id : ReservationId) (who : Identity) (caps : Capabilities Double)
    (estimate : Double) (basis : Option (PriceBasis Double)) (t : Timestamp) :
    (l.reserve id who caps estimate basis t).2.Sane trusted := by
  have hprepared := h.prepared t
  have hamount := Double.sanitize_nonneg estimate
  rw [reserve_eq]
  rcases (l.prepared t).enroll_cases id who caps (Amount.sanitize estimate) basis t (l.periodsAt t) with
    ⟨_, global, hglobal, -, he⟩ | ⟨r, -, -, hr, -, -, -, -, -, he⟩
  · rw [he]
    refine hprepared.put who.key _ global ((hprepared.row who.key).roll _) ?_
    rcases hglobal with rfl | rfl
    · exact hprepared.global
    · exact hprepared.global.roll _
  · rw [he]
    have hput := hprepared.put who.key _ _
      (((hprepared.row who.key).roll (l.periodsAt t)).reserve _ hamount)
      ((hprepared.global.roll (l.periodsAt t)).reserve _ hamount)
    refine ⟨hput.sound, hput.rows, hput.global, fun other hother => ?_⟩
    rcases List.mem_append.mp hother with hother | hother
    · exact hprepared.amounts other hother
    · rw [List.mem_singleton.mp hother, hr]
      exact hamount

theorem reconcile (h : l.Sane trusted) (id : ReservationId) (actual : Double) (t : Timestamp) :
    (l.reconcile id actual t).2.Sane trusted := by
  unfold Ledger.reconcile
  split
  · next r l' htake => exact (h.take l' id r htake).1.settle r _ t (Double.sanitize_nonneg actual)
  · exact h

theorem absorbRow (h : l.Sane trusted) (key : String) (stored : StoredRow Double)
    (hs : trusted → stored.Nonneg) : (l.absorbRow key stored).Sane trusted := by
  rw [absorbRow_eq_put]
  exact h.put key _ _ ((h.row key).absorb stored hs) h.global

theorem absorbRows (h : l.Sane trusted) (entries : List (String × StoredRow Double))
    (hs : trusted → ∀ entry ∈ entries, entry.2.Nonneg) : (l.absorbRows entries).Sane trusted := by
  unfold Ledger.absorbRows
  induction entries generalizing l with
  | nil => exact h
  | cons entry rest ih =>
    exact ih (h.absorbRow entry.1 entry.2 fun ht => hs ht entry List.mem_cons_self) fun ht other hother =>
      hs ht other (List.mem_cons_of_mem _ hother)

theorem look (h : l.Sane trusted) (key : String) : (l.look key).Sane trusted where
  sound := l.rows.modify_sound key (fun row => (row, row)) h.sound
  rows other row hrow := by
    rw [l.get?_look key other h.sound] at hrow
    exact h.rows other row hrow
  global := h.global
  amounts := h.amounts

theorem step (h : l.Sane trusted) (s : Step Double) (hs : ∀ taken, s = .merge taken → trusted → taken.Nonneg) :
    (l.step s).Sane trusted := by
  cases s with
  | call c =>
    cases c with
    | reserve id who caps estimate basis t => exact h.reserve id who caps estimate basis t
    | reconcile id actual t => exact h.reconcile id actual t
    | release id t => exact h.reconcile id 0 t
    | sweep t => exact h.sweepPeriods _
  | merge taken =>
    rcases l.step_merge taken with hstep | hstep
    · rw [hstep]
      exact h
    · rw [hstep]
      have hrows := h.absorbRows taken.identities.toList fun ht => (hs taken rfl ht).identities
      exact ⟨hrows.sound, hrows.rows, hrows.global.absorb taken.global fun ht => (hs taken rfl ht).global,
        hrows.amounts⟩
  | usage key daily monthly t =>
    rw [step_usage]
    exact h.look key
  | takeDirty => exact ⟨h.sound, h.rows, h.global, h.amounts⟩
  | markDirty => exact ⟨h.sound, h.rows, h.global, h.amounts⟩

theorem follow (h : l.Sane trusted) (steps : List (Step Double))
    (hs : ∀ taken, .merge taken ∈ steps → trusted → taken.Nonneg) : (l.follow steps).Sane trusted := by
  induction steps using List.reverseRecOn with
  | nil => exact h
  | append_singleton before s ih =>
    rw [follow_append_singleton]
    refine (ih fun taken htaken => hs taken (List.mem_append_left _ htaken)).step s ?_
    rintro taken rfl
    exact hs taken (by simp)

end Sane

/-- The limits that an estimate is checked against. -/
def limits (l : Ledger Double) (caps : Capabilities Double) : List Double :=
  [caps.dailyBudget, caps.monthlyBudget, l.settings.globalDaily, l.settings.globalMonthly]

theorem Sane.admitted_le {l : Ledger Double} (h : l.Sane True) (id : ReservationId) (who : Identity)
    (caps : Capabilities Double) (estimate : Double) (basis : Option (PriceBasis Double)) (t : Timestamp)
    (hok : (l.reserve id who caps estimate basis t).1 = .ok ()) :
    ∀ limit ∈ l.limits caps, 0 < limit → Amount.sanitize estimate ≤ limit := by
  have hprepared := h.prepared t
  have hamount := Double.sanitize_nonneg estimate
  rw [reserve_eq] at hok
  rcases (l.prepared t).enroll_cases id who caps (Amount.sanitize estimate) basis t (l.periodsAt t) with
    ⟨_, _, -, -, he⟩ | ⟨_, -, -, -, -, -, -, -, hpasses, -⟩
  · rw [he] at hok
    cases hok
  · have hrow := (hprepared.row who.key).roll (l.periodsAt t)
    have hglobal := hprepared.global.roll (l.periodsAt t)
    obtain ⟨hday, hmonth⟩ := (Row.check_eq_none _ _ _ _ _ _).mp hpasses.caller
    obtain ⟨hglobalDay, hglobalMonth⟩ := (Row.check_eq_none _ _ _ _ _ _).mp hpasses.everybody
    rw [prepared_settings] at hglobalDay hglobalMonth
    intro limit hlimit hpos
    simp only [limits, List.mem_cons, List.not_mem_nil, or_false] at hlimit
    rcases hlimit with rfl | rfl | rfl | rfl
    · exact hrow.day.le_cap _ _ hamount hpos hday
    · exact hrow.month.le_cap _ _ hamount hpos hmonth
    · exact hglobal.day.le_cap _ _ hamount hpos hglobalDay
    · exact hglobal.month.le_cap _ _ hamount hpos hglobalMonth

/-! ## Stored debt -/

def settingsFor (s : Snapshot Double) : LedgerSettings Double where
  resetHour := s.resetHour
  globalDaily := 0
  globalMonthly := 0
  maxTracked := s.identities.toList.length
  maxPending := 1
  shards := 1

theorem settingsFor_roomy (s : Snapshot Double) :
    (new (fun _ => 0) (settingsFor s)).Roomy s.identities.toList := by
  refine roomy_of_fit _ s.identities.keys _ (Shards.new_sound _ _ _) ?_ ?_ ?_
  · intro key hkey
    rw [new_get?] at hkey
    cases hkey
  · exact fun entry hentry => List.mem_map_of_mem hentry
  · intro i
    refine List.countP_le_length.trans ?_
    simp [new, Shards.new, settingsFor, Dict.keys]

theorem nonneg_of_absorb (stored : StoredRow Double) (h : (Row.empty.absorb stored).Nonneg) :
    stored.Nonneg := by
  obtain ⟨⟨hday, -⟩, ⟨hmonth, -⟩⟩ := h
  constructor
  · intro hpos
    simpa [Row.absorb, Row.empty, Meter.zero, Meter.absorb, hpos, hpos.ne'] using hday
  · intro hpos
    simpa [Row.absorb, Row.empty, Meter.zero, Meter.absorb, hpos, hpos.ne'] using hmonth

/-- Balances stay above nothing, and no limit grants more than itself, exactly as long as no file from
which spending is taken in holds a negative amount for a period after the first. -/
theorem balances_nonneg_iff (files : Snapshot Double → Prop) :
    (∀ (assign : String → Nat) (settings : LedgerSettings Double) (steps : List (Step Double)),
      (∀ s, .merge s ∈ steps → files s) →
      let l := (new assign settings).follow steps
      (∀ entry ∈ l.rows.toList, entry.2.Nonneg) ∧ l.global.Nonneg ∧
      ∀ id who caps estimate basis t, (l.reserve id who caps estimate basis t).1 = .ok () →
        ∀ limit ∈ l.limits caps, 0 < limit → Amount.sanitize estimate ≤ limit) ↔
    ∀ s, files s → s.Nonneg := by
  constructor
  · intro h s hs
    obtain ⟨hrows, hglobal, -⟩ := h (fun _ => 0) (settingsFor s) [.merge s] (by simpa using hs)
    have hstep : (new (fun _ => 0) (settingsFor s)).follow [.merge s] =
        ((new (fun _ => 0) (settingsFor s)).absorbRows s.identities.toList).absorbGlobal s.global := by
      show (new (fun _ => 0) (settingsFor s)).step (.merge s) = _
      rw [step, merge_eq _ s rfl]
    rw [hstep] at hrows hglobal
    rw [absorbRows_eq] at hglobal
    have hsound := (new (fun _ => 0) (settingsFor s)).absorbRows_sound s.identities.toList
      (Shards.new_sound _ _ _)
    refine ⟨nonneg_of_absorb _ hglobal, fun entry hentry => nonneg_of_absorb _ ?_⟩
    · refine hrows (entry.1, Row.empty.absorb entry.2) ((Shards.mem_toList _ hsound _ _).mpr ?_)
      rw [get?_absorbRows_new entry.1 _ _ _ (settingsFor_roomy s),
        s.identities.get?_of_mem entry.1 entry.2 hentry, Option.map_some]
  · intro hfiles assign settings steps hsteps l
    have hsane : l.Sane True := (Sane.new True assign settings).follow steps fun s hs _ => hfiles s (hsteps s hs)
    refine ⟨fun entry hentry => ?_, hsane.global.nonneg, hsane.admitted_le⟩
    exact (hsane.rows entry.1 entry.2 ((Shards.mem_toList _ hsane.sound _ _).mp hentry)).nonneg

def debtText : String :=
  "\x7b\"saved_at\": null, \"reset_hour_utc\": 0, \"global\": \x7b\"daily_spent\": 0.0, " ++
    "\"monthly_spent\": 0.0, \"day\": 20522, \"month\": 24314\x7d, \"identities\": " ++
    "\x7b\"web:alice\": \x7b\"daily_spent\": -5.0, \"monthly_spent\": -5.0, \"day\": 20522, " ++
    "\"month\": 24314\x7d\x7d\x7d"

/-- A ledger file can hold a negative balance, which is taken in. -/
theorem negative_balance_debtText :
    ¬ ∀ (assign : String → Nat) (settings : LedgerSettings Double) (steps : List (Step Double)),
      (∀ s, .merge s ∈ steps → ∃ text, Snapshot.ofText? text = some s) →
      let l := (new assign settings).follow steps
      (∀ entry ∈ l.rows.toList, entry.2.Nonneg) ∧ l.global.Nonneg := by
  intro h
  have hdebt : (Snapshot.ofText? debtText).any (fun s =>
      ((new (fun _ => 0) oneOpen).follow [.merge s]).rows.toList.any fun entry =>
        entry.1 = alice.key && entry.2.day.spent < 0) = true := by decide +kernel
  obtain ⟨s, hs, hbelow⟩ := Option.any_eq_true _ _ |>.mp hdebt
  obtain ⟨entry, hentry, hneg⟩ := List.any_eq_true.mp hbelow
  obtain ⟨hrows, -⟩ := h (fun _ => 0) oneOpen [.merge s] (by simpa using ⟨debtText, hs⟩)
  rw [Bool.and_eq_true, decide_eq_true_eq, decide_eq_true_eq] at hneg
  exact ((Double.lt_iff_le_not_ge _ _).mp hneg.2).2 (hrows entry hentry).day.spent

end Ledger

end Admission
