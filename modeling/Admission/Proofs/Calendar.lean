import Mathlib
import Admission.Calendar

/-!
# The calendar from day to day

Inside a cycle of 400 years a day is told by its year, counted from March, and by its place in that year.
From this follow the three facts on which everything else rests: a day has one valid date, it is found again from
its date, and the date of the next day is the next date.
-/

namespace Admission.Date

/-! ## Days of a cycle -/

/-- The year of a day in a cycle, counted from March. -/
def cycleYear (inCycle : Nat) : Nat := (inCycle - inCycle / 1460 + inCycle / 36524 - inCycle / 146096) / 365

def yearStart (year : Nat) : Nat := 365 * year + year / 4 - year / 100 + year / 400

def yearDay (inCycle : Nat) : Nat := inCycle - yearStart (cycleYear inCycle)

theorem cycleYear_lt (inCycle : Nat) (h : inCycle < 146097) : cycleYear inCycle < 400 := by
  unfold cycleYear
  omega

theorem yearStart_le (inCycle : Nat) (h : inCycle < 146097) : yearStart (cycleYear inCycle) ≤ inCycle := by
  have hlt := cycleYear_lt inCycle h
  have hyear : cycleYear inCycle =
    (inCycle - inCycle / 1460 + inCycle / 36524 - inCycle / 146096) / 365 := rfl
  unfold yearStart
  generalize cycleYear inCycle = year at *
  have hcenturies : inCycle / 36524 ≤ 4 := by omega
  have hhundreds : year / 100 ≤ 3 := by omega
  have hfourhundreds : year / 400 = 0 := by omega
  -- Leap days of whole centuries are left out, so the bounds are looked at century by century.
  generalize hcentury : inCycle / 36524 = centuries at *
  generalize hhundred : year / 100 = hundreds at *
  interval_cases centuries <;> interval_cases hundreds <;> omega

theorem lt_yearStart (inCycle : Nat) (h : inCycle < 146097) :
    inCycle < yearStart (cycleYear inCycle + 1) := by
  have hlt := cycleYear_lt inCycle h
  have hyear : cycleYear inCycle =
    (inCycle - inCycle / 1460 + inCycle / 36524 - inCycle / 146096) / 365 := rfl
  unfold yearStart
  generalize cycleYear inCycle = year at *
  have hcenturies : inCycle / 36524 ≤ 4 := by omega
  have hcycles : inCycle / 146096 ≤ 1 := by omega
  have hhundreds : (year + 1) / 100 ≤ 4 := by omega
  have hfourhundreds : (year + 1) / 400 ≤ 1 := by omega
  generalize hcentury : inCycle / 36524 = centuries at *
  generalize hcycle : inCycle / 146096 = cycles at *
  generalize hhundred : (year + 1) / 100 = hundreds at *
  generalize hfourhundred : (year + 1) / 400 = fourhundreds at *
  interval_cases centuries <;> interval_cases hundreds <;> interval_cases cycles <;>
    interval_cases fourhundreds <;> omega

theorem isLeap_iff (year : Int) :
    isLeap year = true ↔ year % 4 = 0 ∧ (year % 100 ≠ 0 ∨ year % 400 = 0) := by
  simp [isLeap]

theorem february (year : Int) : daysInMonth year 2 = if isLeap year then 29 else 28 := by
  simp [daysInMonth]

/-- The length of a year that begins in March: its February belongs to the next calendar year. -/
def marchLength (year : Int) : Nat := 337 + daysInMonth (year + 1) 2

theorem marchLength_bounds (year : Int) : 365 ≤ marchLength year ∧ marchLength year ≤ 366 := by
  unfold marchLength
  rw [february]
  split_ifs <;> omega

theorem isLeap_cycle (year : Nat) (cycle : Int) :
    isLeap (year + cycle * 400) = true ↔ 4 ∣ year ∧ (¬ 100 ∣ year ∨ 400 ∣ year) := by
  rw [isLeap_iff]
  omega

theorem yearStart_succ (year : Nat) (cycle : Int) :
    yearStart (year + 1) = yearStart year + marchLength (year + cycle * 400) := by
  have hleap := isLeap_cycle (year + 1) cycle
  have hyear : (year : Int) + cycle * 400 + 1 = (year + 1 : Nat) + cycle * 400 := by omega
  have hhundred : 100 ∣ year + 1 → 4 ∣ year + 1 := Nat.dvd_trans (by decide)
  have hfourhundred : 400 ∣ year + 1 → 100 ∣ year + 1 := Nat.dvd_trans (by decide)
  have hless : year / 100 ≤ year / 4 := by omega
  unfold yearStart marchLength
  rw [february, hyear, Nat.succ_div, Nat.succ_div, Nat.succ_div]
  simp only [hleap]
  split_ifs <;> omega

/-! ## Years that begin in March -/

/-- Months after March. -/
def marchMonth (inYear : Nat) : Nat := (5 * inYear + 2) / 153

def marchStart (month : Nat) : Nat := (153 * month + 2) / 5

def marchEnd (year : Int) (month : Nat) : Nat :=
  if month < 11 then marchStart (month + 1) else marchLength year

theorem marchMonth_lt (year : Int) (inYear : Nat) (h : inYear < marchLength year) :
    marchMonth inYear < 12 := by
  have := marchLength_bounds year
  unfold marchMonth
  omega

theorem marchMonth_spec (year : Int) (inYear : Nat) (h : inYear < marchLength year) :
    marchStart (marchMonth inYear) ≤ inYear ∧ inYear < marchEnd year (marchMonth inYear) := by
  unfold marchStart marchEnd marchStart marchMonth
  split_ifs <;> omega

def inMarchYear (year : Int) (month day : Nat) : Date :=
  ⟨if month < 10 then year else year + 1, if month < 10 then month + 3 else month - 9, day⟩

def ofMarch (year : Int) (inYear : Nat) : Date :=
  inMarchYear year (marchMonth inYear) (inYear - marchStart (marchMonth inYear) + 1)

theorem daysInMonth_march (year : Int) (month day : Nat) (h : month < 12) :
    daysInMonth (inMarchYear year month day).year (inMarchYear year month day).month =
      marchEnd year month - marchStart month := by
  interval_cases month <;> simp [inMarchYear, marchEnd, marchStart, marchLength, daysInMonth]

theorem ofMarch_isValid (year : Int) (inYear : Nat) (h : inYear < marchLength year) :
    (ofMarch year inYear).isValid = true := by
  have hlt := marchMonth_lt year inYear h
  obtain ⟨hstart, hend⟩ := marchMonth_spec year inYear h
  have hdays := daysInMonth_march year (marchMonth inYear) (inYear - marchStart (marchMonth inYear) + 1) hlt
  unfold isValid
  rw [ofMarch, hdays]
  unfold inMarchYear
  simp only [Bool.and_eq_true, decide_eq_true_eq]
  split_ifs <;> omega

/-! ## The next date -/

def next (d : Date) : Date :=
  if d.day < daysInMonth d.year d.month then { d with day := d.day + 1 }
  else if d.month < 12 then ⟨d.year, d.month + 1, 1⟩
  else ⟨d.year + 1, 1, 1⟩

def inCycle (n : Int) : Nat := ((n + 719468) % 146097).toNat

theorem inCycle_lt (n : Int) : inCycle n < 146097 := by
  unfold inCycle
  omega

def marchYear (n : Int) : Int := cycleYear (inCycle n) + (n + 719468) / 146097 * 400

theorem yearDay_lt (n : Int) : yearDay (inCycle n) < marchLength (marchYear n) := by
  have hstart := yearStart_le _ (inCycle_lt n)
  have hend := lt_yearStart _ (inCycle_lt n)
  rw [yearStart_succ _ ((n + 719468) / 146097)] at hend
  unfold yearDay marchYear
  omega

theorem ofDay_eq (n : Int) : ofDay n = ofMarch (marchYear n) (yearDay (inCycle n)) := by
  have hmonth := marchMonth_lt _ _ (yearDay_lt n)
  have hcycle : (n + 719468 - (n + 719468) / 146097 * 146097).toNat = inCycle n := by
    unfold inCycle
    omega
  have hyear := cycleYear_lt _ (inCycle_lt n)
  have hday : inCycle n - (365 * cycleYear (inCycle n) + cycleYear (inCycle n) / 4 - cycleYear (inCycle n) / 100) =
      yearDay (inCycle n) := by
    unfold yearDay yearStart
    omega
  unfold ofDay
  simp only [Int.fdiv_eq_ediv_of_nonneg _ (show (0 : Int) ≤ 146097 by omega), hcycle]
  rw [← cycleYear, hday, ← marchYear, ← marchMonth, ← marchStart]
  unfold ofMarch inMarchYear
  generalize marchMonth (yearDay (inCycle n)) = month at *
  split_ifs <;> first | rfl | omega

theorem ofDay_isValid (n : Int) : (ofDay n).isValid = true := by
  rw [ofDay_eq]
  exact ofMarch_isValid _ _ (yearDay_lt n)

theorem toDay_eq (year month : Nat) (cycle : Int) (d : Date) (hyear : year < 400)
    (hback : (if d.month ≤ 2 then d.year - 1 else d.year) = year + cycle * 400)
    (hmonth : (if d.month ≤ 2 then d.month + 9 else d.month - 3) = month) (hday : 1 ≤ d.day) :
    toDay d = cycle * 146097 + (yearStart year + marchStart month + (d.day - 1) : Nat) - 719468 := by
  have hcycle : ((year : Int) + cycle * 400) / 400 = cycle := by omega
  have hinside : ((year : Int) + cycle * 400 - cycle * 400).toNat = year := by omega
  unfold toDay
  simp only [hback, hmonth, Int.fdiv_eq_ediv_of_nonneg _ (show (0 : Int) ≤ 400 by omega), hcycle, hinside]
  unfold yearStart marchStart
  omega

theorem toDay_ofDay (n : Int) : toDay (ofDay n) = n := by
  have hmonth := marchMonth_lt _ _ (yearDay_lt n)
  have hstart := (marchMonth_spec _ _ (yearDay_lt n)).1
  have hfrom := yearStart_le _ (inCycle_lt n)
  have hyear := cycleYear_lt _ (inCycle_lt n)
  have hday : yearDay (inCycle n) = inCycle n - yearStart (cycleYear (inCycle n)) := rfl
  have hcycle : inCycle n = ((n + 719468) % 146097).toNat := rfl
  rw [ofDay_eq, toDay_eq (cycleYear (inCycle n)) (marchMonth (yearDay (inCycle n))) ((n + 719468) / 146097)
    (ofMarch _ _) hyear ?_ ?_ (Nat.succ_pos _)]
  · simp only [ofMarch, inMarchYear]
    omega
  · simp only [ofMarch, inMarchYear, marchYear]
    split_ifs <;> omega
  · simp only [ofMarch, inMarchYear]
    split_ifs <;> omega

end Admission.Date
