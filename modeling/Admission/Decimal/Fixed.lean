import Admission.Decimal.Binary
import Admission.Decimal.Rounding

/-!
# Decimals with a fixed number of places

The exact value of a double, rounded to the nearest decimal with the asked places. A tie goes to
the even neighbour, and the sign stays also where only zeros are left.
-/

namespace Admission.Decimal

/-- `num / den` in units of the last of `places` places. -/
def inPlaces (places num den : Nat) : Nat := roundDiv .toEven (num * Nat.pow 10 places) den

/-- A whole number of last places, written with its point. -/
def withPoint (places n : Nat) : String :=
  let whole := String.ofList (digits (n / Nat.pow 10 places))
  if places == 0 then whole
  else whole ++ "." ++ String.ofList (padded places (n % Nat.pow 10 places))

def fixed (places : Nat) (x : Double) : String :=
  match Binary.ofDouble x with
  | .nan => "NaN"
  | .infinite negative => if negative then "-inf" else "inf"
  | .finite negative m e =>
    (if negative then "-" else "") ++
      withPoint places (inPlaces places (m * Nat.pow 2 e.toNat) (Nat.pow 2 (-e).toNat))

example : fixed 2 0.125 = "0.12" ∧ fixed 2 (-0.001) = "-0.00" ∧ fixed 4 5.0 = "5.0000" := by
  decide +kernel

end Admission.Decimal
