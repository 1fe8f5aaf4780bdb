import Admission.Decimal.Binary
import Admission.Decimal.Rounding

/-!
# Shortest decimals

The decimal with the fewest digits that reads back as the same double, and of those the nearest.
The reals that read back form an interval around the double; its ends belong to it when the
mantissa is even. A grid of decimals meets the interval exactly if one of the two grid points next
to the double lies in it.
-/

namespace Admission.Decimal

/-- `digits * 10 ^ exponent`. -/
structure Scientific where
  digits : Nat
  exponent : Int
  deriving DecidableEq, Repr

/-- The interval that reads back as `mantissa * 2 ^ exponent`, in quarters of the last place. -/
structure Readback where
  low : Nat
  value : Nat
  high : Nat
  closed : Bool
  exponent : Int

/-- Below a power of two the neighbours are half as far apart. -/
def Readback.around (mantissa : Nat) (exponent : Int) : Readback where
  low := 4 * mantissa - if mantissa == Nat.pow 2 52 && exponent > -1074 then 1 else 2
  value := 4 * mantissa
  high := 4 * mantissa + 2
  closed := mantissa % 2 == 0
  exponent := exponent - 2

/-- One step of the grid of decimals `_ * 10 ^ k` and one step of the interval, in a common unit. -/
def Readback.steps (r : Readback) (k : Int) : Nat × Nat :=
  (Nat.pow 10 k.toNat * Nat.pow 2 (-r.exponent).toNat,
    Nat.pow 2 r.exponent.toNat * Nat.pow 10 (-k).toNat)

/-- `a` steps of the grid lie in the interval. -/
def Readback.holds (r : Readback) (k : Int) (a : Nat) : Bool :=
  let (grid, unit) := r.steps k
  if r.closed then r.low * unit ≤ a * grid && a * grid ≤ r.high * unit
  else r.low * unit < a * grid && a * grid < r.high * unit

/-- The grid point to write, if the grid has one. -/
def Readback.onGrid (tie : Tie) (r : Readback) (k : Int) : Option Scientific :=
  let (grid, unit) := r.steps k
  let below := r.value * unit / grid
  match r.holds k below, r.holds k (below + 1) with
  | true, true => some ⟨roundDiv tie (r.value * unit) grid, k⟩
  | true, false => some ⟨below, k⟩
  | false, true => some ⟨below + 1, k⟩
  | false, false => none

/-- A power of ten above `mantissa * 2 ^ exponent`. -/
def topGrid (mantissa : Nat) (exponent : Int) : Int :=
  (((mantissa.log2 + 1 : Nat) + exponent) * 30103).fdiv 100000 + 1

/-- Grids from the coarsest on; the seventeenth digit always decides. -/
def shortest (tie : Tie) (mantissa : Nat) (exponent : Int) : Scientific :=
  let top := topGrid mantissa exponent
  let r := Readback.around mantissa exponent
  ((List.range 20).findSome? fun (i : Nat) => r.onGrid tie (top - i)).getD ⟨mantissa, exponent⟩

example : shortest .toEven (3602879701896397) (-55) = ⟨1, -1⟩ := by decide +kernel

/-- Below a quarter past a whole number near `2 ^ 50` both one-digit fractions read back. -/
example : shortest .toEven (2 ^ 52 + 1) (-2) = ⟨11258999068426242, -1⟩ ∧
    shortest .up (2 ^ 52 + 1) (-2) = ⟨11258999068426243, -1⟩ := by decide +kernel

end Admission.Decimal
