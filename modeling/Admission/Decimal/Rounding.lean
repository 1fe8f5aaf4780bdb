/-!
# Rounding

A quotient rounded to the nearest whole number, and text in digits.
-/

namespace Admission.Decimal

/-- Where a number halfway between two neighbours goes. -/
inductive Tie where
  | toEven
  | up
  deriving DecidableEq, Repr

/-- `num / den` to the nearest whole number. -/
def roundDiv (tie : Tie) (num den : Nat) : Nat :=
  let below := num / den
  let rest := num % den
  if 2 * rest < den then below
  else if den < 2 * rest then below + 1
  else match tie with
    | .toEven => below + below % 2
    | .up => below + 1

example : roundDiv .toEven 5 2 = 2 ∧ roundDiv .toEven 7 2 = 4 ∧ roundDiv .up 5 2 = 3 := by decide

def digits (n : Nat) : List Char := Nat.toDigits 10 n

/-- Digits filled up with zeros on the left. -/
def padded (width n : Nat) : List Char :=
  let ds := digits n
  List.replicate (width - ds.length) '0' ++ ds

end Admission.Decimal
