import Admission.Decimal.Fixed

/-!
# Amounts

Costs, prices, complexities and shares of a window. The rules are written once for any `Amount` and
run on doubles; on the rationals the same rules compute exactly.
-/

namespace Admission

/-- Numbers that rules calculate with. -/
class Amount (α : Type) extends Zero α, Add α, Sub α, Mul α, Div α, LT α, LE α, NatCast α,
    OfScientific α where
  /-- Neither infinite nor undefined. -/
  isFinite : α → Bool
  /-- The whole part; a negative number has none. -/
  floor : α → Nat
  /-- A total order that extends `<`, with a place for every undefined number. -/
  precedes : α → α → Bool
  /-- The text with so many decimal places. -/
  fixed : Nat → α → String
  decidableLT : DecidableLT α
  decidableLE : DecidableLE α

attribute [reducible, instance] Amount.decidableLT Amount.decidableLE

namespace Amount

instance : Amount Double where
  isFinite := Double.isFinite
  floor := Double.floor
  precedes x y := x.rank < y.rank
  fixed := Decimal.fixed
  decidableLT := inferInstance
  decidableLE := inferInstance

instance : Amount Rat where
  toZero := .ofOfNat0
  isFinite _ := true
  floor x := x.floor.toNat
  precedes x y := x < y
  fixed places x := (if x < 0 then "-" else "") ++
    Decimal.withPoint places (Decimal.inPlaces places x.num.natAbs x.den)
  decidableLT := inferInstance
  decidableLE := inferInstance

variable {α : Type} [Amount α]

/-- The larger of two numbers. An undefined one gives way to the other. -/
def larger (x y : α) : α := if x ≤ y then y else if x ≤ x then x else y

/-- The smaller of two numbers. An undefined one gives way to the other. -/
def smaller (x y : α) : α := if y ≤ x then y else if x ≤ x then x else y

/-- `x` moved into the interval from `low` to `high`. -/
def clamp (low high x : α) : α := if x < low then low else if high < x then high else x

/-- The least whole number that is not below `x`; a negative or undefined one has zero. -/
def ceil (x : α) : Nat := if (floor x : α) < x then floor x + 1 else floor x

/-- An amount fit for a running total: never negative, never infinite or undefined. -/
def sanitize (x : α) : α := if isFinite x then larger x 0 else 0

/-- Not a number: the only one that is not even itself. -/
def isUndefined (x : α) : Bool := !decide (x ≤ x)

end Amount

example : (Amount.sanitize (-1.5 : Double)).bits = 0 ∧
    (Amount.larger (0.0 / 0.0) (2.5 : Double)).bits = (2.5 : Double).bits := by decide +kernel

end Admission
