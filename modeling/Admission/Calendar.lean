/-!
# Calendar

Days of the proleptic Gregorian calendar, numbered from 1 January 1970. Years are counted from
March inside, so that the leap day is the last one of a year.
-/

namespace Admission

structure Date where
  year : Int
  /-- 1 to 12. -/
  month : Nat
  /-- 1 to 31. -/
  day : Nat
  deriving DecidableEq, Repr

namespace Date

def isLeap (year : Int) : Bool := year % 4 == 0 && (year % 100 != 0 || year % 400 == 0)

def daysInMonth (year : Int) (month : Nat) : Nat :=
  if month == 2 then if isLeap year then 29 else 28
  else if month == 4 || month == 6 || month == 9 || month == 11 then 30
  else 31

def isValid (d : Date) : Bool :=
  1 ≤ d.month && d.month ≤ 12 && 1 ≤ d.day && d.day ≤ daysInMonth d.year d.month

/-- The date of a day. Cycles of 400 years have 146097 days each. -/
def ofDay (n : Int) : Date :=
  let shifted := n + 719468
  let cycle := shifted.fdiv 146097
  let inCycle := (shifted - cycle * 146097).toNat
  let yearInCycle := (inCycle - inCycle / 1460 + inCycle / 36524 - inCycle / 146096) / 365
  let inYear := inCycle - (365 * yearInCycle + yearInCycle / 4 - yearInCycle / 100)
  let marchMonth := (5 * inYear + 2) / 153
  let day := inYear - (153 * marchMonth + 2) / 5 + 1
  let month := if marchMonth < 10 then marchMonth + 3 else marchMonth - 9
  let year : Int := yearInCycle + cycle * 400
  ⟨if month ≤ 2 then year + 1 else year, month, day⟩

def toDay (d : Date) : Int :=
  let year := if d.month ≤ 2 then d.year - 1 else d.year
  let cycle := year.fdiv 400
  let yearInCycle := (year - cycle * 400).toNat
  let marchMonth := if d.month ≤ 2 then d.month + 9 else d.month - 3
  let inYear := (153 * marchMonth + 2) / 5 + d.day - 1
  let inCycle := yearInCycle * 365 + yearInCycle / 4 - yearInCycle / 100 + inYear
  cycle * 146097 + inCycle - 719468

example : ofDay 0 = ⟨1970, 1, 1⟩ ∧ ofDay (-1) = ⟨1969, 12, 31⟩ ∧ ofDay 11016 = ⟨2000, 2, 29⟩ ∧
    toDay ⟨2000, 2, 29⟩ = 11016 := by decide

end Date

end Admission
