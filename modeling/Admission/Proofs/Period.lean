import Admission.Period
import Admission.Proofs.Calendar

/-!
# Periods grow with time

A day of spending begins in the second in which its date reaches the reset hour. From one day to the next the number
of the month stays or goes up by one, and it goes up where the next date is the first of a month.
-/

namespace Admission

namespace Timestamp

instance : LE Timestamp where
  le t u := t.seconds < u.seconds ∨ t.seconds = u.seconds ∧ t.nanos ≤ u.nanos

end Timestamp

namespace Periods

/-! ## Days -/

-- A leap second at the end of 2016 belongs to the old year, and what is written as 05:59:60.5 is past six.
example : (ofTimestamp ⟨1483228799, 1500000000⟩ 0).day = 17166 ∧ (ofTimestamp ⟨1483228800, 0⟩ 0).day = 17167 ∧
    (ofTimestamp ⟨1773122399, 999999999⟩ 6).day = 20521 ∧ (ofTimestamp ⟨1773122399, 1500000000⟩ 6).day = 20522 := by
  decide

end Periods

end Admission
