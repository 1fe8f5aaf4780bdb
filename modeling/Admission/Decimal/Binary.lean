import Admission.Double

/-!
# Binary floating point, taken apart

A double is read as an exact binary fraction, so that its decimal text can be computed in whole
numbers.
-/

namespace Admission.Decimal

/-- What a double stands for. A finite one is `mantissa * 2 ^ exponent` with its sign. -/
inductive Binary where
  | nan
  | infinite (negative : Bool)
  | finite (negative : Bool) (mantissa : Nat) (exponent : Int)
  deriving DecidableEq, Repr

/-- The fields of the 64-bit format. Subnormal numbers have no hidden bit. -/
def Binary.ofBits (bits : Nat) : Binary :=
  let negative := bits / Nat.pow 2 63 % 2 == 1
  let exponent : Nat := bits / Nat.pow 2 52 % Nat.pow 2 11
  let fraction : Nat := bits % Nat.pow 2 52
  if exponent == 2047 then
    if fraction == 0 then .infinite negative else .nan
  else if exponent == 0 then .finite negative fraction (-1074)
  else .finite negative (Nat.pow 2 52 + fraction) (exponent - 1075)

def Binary.ofDouble (x : Double) : Binary := .ofBits x.bits

example : Binary.ofDouble 1.5 = .finite false (3 * 2 ^ 51) (-52) := by decide +kernel

end Admission.Decimal
