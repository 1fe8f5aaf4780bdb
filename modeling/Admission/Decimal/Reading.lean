import Admission.Decimal.Rounding
import Admission.Double

/-!
# Reading decimals

The double nearest to a decimal. Exponents far outside the range of doubles are settled without
computing the power of ten.
-/

namespace Admission.Decimal

/-- The double nearest to `digits * 10 ^ exponent`; nothing where that is out of range. -/
def nearest? (digits : Nat) (exponent : Int) : Option Double :=
  let magnitude := (Decimal.digits digits).length + exponent
  if digits == 0 || magnitude < -400 then some 0.0
  else if magnitude > 400 then none
  else
    let x : Double := if exponent < 0 then OfScientific.ofScientific digits true (-exponent).toNat
      else OfScientific.ofScientific digits false exponent.toNat
    if x.isFinite then some x else none

def ofDigits (cs : List Char) : Nat := cs.foldl (fun n c => 10 * n + (c.toNat - '0'.toNat)) 0

/-- A whole number of so many bits, perhaps behind a plus sign. -/
def natOfText? (bits : Nat) (text : String) : Option Nat :=
  let ds := match text.toList with
    | '+' :: rest => rest
    | cs => cs
  let n := ofDigits ds
  if !ds.isEmpty && ds.all Char.isDigit && n < Nat.pow 2 bits then some n else none

/-- A whole number with a sign before it or none. -/
def intOfChars? : List Char → Option Int
  | '-' :: ds => if !ds.isEmpty && ds.all Char.isDigit then some (-(ofDigits ds : Int)) else none
  | '+' :: ds => if !ds.isEmpty && ds.all Char.isDigit then some (ofDigits ds) else none
  | ds => if !ds.isEmpty && ds.all Char.isDigit then some (ofDigits ds) else none

/-- Digits with at most one point among them and perhaps an exponent. Beyond the range of doubles the
number is infinite. -/
def positiveOfChars? (cs : List Char) : Option Double := do
  let isExponent (c : Char) : Bool := c == 'e' || c == 'E'
  let significand := cs.takeWhile fun c => !isExponent c
  let whole := significand.takeWhile (· != '.')
  let fraction := (significand.dropWhile (· != '.')).drop 1
  let ds := whole ++ fraction
  let exponent ← match cs.dropWhile (fun c => !isExponent c) with
    | [] => pure 0
    | _ :: rest => intOfChars? rest
  if ds.isEmpty || !ds.all Char.isDigit then none
  else (nearest? (ofDigits ds) (exponent - fraction.length)).or (some (1.0 / 0.0))

/-- A number with its sign. Infinity and undefined numbers have names. -/
def floatOfText? (text : String) : Option Double := do
  let (negative, cs) := match text.toList with
    | '-' :: rest => (true, rest)
    | '+' :: rest => (false, rest)
    | cs => (false, cs)
  let x ← match String.ofList (cs.map Char.toLower) with
    | "inf" | "infinity" => some (1.0 / 0.0)
    | "nan" => some (0.0 / 0.0)
    | _ => positiveOfChars? cs
  return if negative then -x else x

end Admission.Decimal
