import Admission.Calendar
import Admission.Timestamp

/-!
# Budget periods

A day of spending begins at the reset hour, and a month with the first such day of a calendar month.
-/

namespace Admission

/-- The day and the month of a moment, each as a number that only grows with time. -/
structure Periods where
  /-- Days since 1970. -/
  day : Int := 0
  /-- Twelve for every year, and the months of the year from zero on. -/
  month : Int := 0
  deriving DecidableEq, Repr, Inhabited

namespace Periods

/-- The month number of a day. -/
def monthOfDay (day : Int) : Int :=
  let date := Date.ofDay day
  date.year * 12 + (date.month - 1 : Nat)

/-- The periods of a moment for days that begin at midnight. -/
def ofDate (t : Timestamp) : Periods :=
  let day := t.seconds.fdiv 86400
  ⟨day, monthOfDay day⟩

/-- The periods of a moment for days that begin at `resetHour`. -/
def ofTimestamp (t : Timestamp) (resetHour : Nat) : Periods := ofDate (t.hoursBefore resetHour)

/-- The later day and the later month. -/
def join (a b : Periods) : Periods := ⟨max a.day b.day, max a.month b.month⟩

end Periods

end Admission
