import Admission.Decimal.Reading
import Admission.Json.Basic

/-!
# JSON numbers

A number with a point or an exponent is read in two steps: its digits as one whole number, then that
number multiplied or divided by a power of ten. Digits that no longer fit 64 bits are dropped. The
result can be a last place off the nearest double.
-/

namespace Admission.Json

def isNumberMark (c : Char) : Bool :=
  c.isDigit || c == '-' || c == '+' || c == '.' || c == 'e' || c == 'E'

/-- A power of ten, as the nearest double. -/
def powerOfTen (n : Nat) : Double := OfScientific.ofScientific 1 false n

/-- `x * 10 ^ exponent`, in steps of at most 308 places; nothing where that is out of range. The
number of steps is bounded by `steps`: after three divisions nothing is left of 64 bits. -/
def scaled? : (steps : Nat) → (x : Double) → (exponent : Int) → Option Double
  | 0, x, _ => some x
  | steps + 1, x, exponent =>
    if exponent.natAbs ≤ 308 then
      if exponent < 0 then some (x / powerOfTen exponent.natAbs)
      else
        let y := x * powerOfTen exponent.natAbs
        if y.isFinite then some y else none
    else if x ≤ 0.0 then some x
    else if exponent < 0 then scaled? steps (x / powerOfTen 308) (exponent + 308)
    else none

/-- Append digits to a number while it fits 64 bits. Left over are the first digit that does not fit
and all behind it. -/
def appendDigits (n : Nat) : List Char → Nat × List Char
  | [] => (n, [])
  | d :: rest =>
    let next := 10 * n + (d.toNat - '0'.toNat)
    if next < Nat.pow 2 64 then appendDigits next rest else (n, d :: rest)

/-- A number from its whole digits, those behind the point and its exponent. One that is out of the
range of doubles is infinite. -/
def floatValue (negative : Bool) (whole fraction : List Char) (exponent : Int) : Double :=
  let (n, dropped) := appendDigits 0 whole
  let (n, unread) := appendDigits n fraction
  let exponent := exponent + dropped.length - (fraction.length - unread.length : Nat)
  let size := (scaled? 4 ((n : Double)) exponent).getD (1.0 / 0.0)
  if negative then -size else size

/-- The digits of an exponent and its sign. -/
def exponent? : List Char → Option Int
  | [] => none
  | c :: rest =>
    let (negative, ds) := if c == '-' then (true, rest) else if c == '+' then (false, rest)
      else (false, c :: rest)
    if ds.isEmpty || !ds.all Char.isDigit then none
    else some (if negative then -(Decimal.ofDigits ds : Int) else Decimal.ofDigits ds)

/-- A number without its sign. A whole part has no leading zero; a point and the letter of an
exponent are followed by digits. -/
def unsigned? (negative : Bool) (marks : List Char) : Option Json :=
  let whole := marks.takeWhile Char.isDigit
  let rest := marks.dropWhile Char.isDigit
  if whole.isEmpty || (whole.head? == some '0' && whole.length > 1) then none
  else match rest with
    | [] =>
      let n : Int := if negative then -(Decimal.ofDigits whole : Int) else Decimal.ofDigits whole
      if fitsWord n && !(negative && n == 0) then some (.int n)
      else some (.float (floatValue negative whole [] 0))
    | '.' :: rest =>
      let fraction := rest.takeWhile Char.isDigit
      if fraction.isEmpty then none
      else match rest.dropWhile Char.isDigit with
        | [] => some (.float (floatValue negative whole fraction 0))
        | c :: rest =>
          if c == 'e' || c == 'E' then
            (exponent? rest).map fun e => .float (floatValue negative whole fraction e)
          else none
    | c :: rest =>
      if c == 'e' || c == 'E' then
        (exponent? rest).map fun e => .float (floatValue negative whole [] e)
      else none

def numberValue? : List Char → Option Json
  | '-' :: marks => unsigned? true marks
  | marks => unsigned? false marks

end Admission.Json
