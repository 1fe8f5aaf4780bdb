import Admission.Calendar
import Admission.Decimal.Reading
import Admission.Json.Token
import Admission.Text.Reader

/-!
# Numbers, words and times in TOML

Values that are written without quotes. Such a value ends where a character follows that none of
them can hold.
-/

namespace Admission.Toml

open Text Text.Reader

/-- A character of a bare value. -/
def isScalarMark (c : Char) : Bool :=
  c.isAlphanum || c == '+' || c == '-' || c == '_' || c == '.' || c == ':'

/-- Digits without the lines between them. A line stands between two digits. -/
def digitsOf? (isDigit : Char → Bool) : List Char → Option (List Char)
  | [] => none
  | [d] => if isDigit d then some [d] else none
  | d :: '_' :: rest => if isDigit d then (digitsOf? isDigit rest).map (d :: ·) else none
  | d :: rest => if isDigit d then (digitsOf? isDigit rest).map (d :: ·) else none

/-- A whole number of 64 bits with its sign. -/
def word? (n : Int) : Option Json := if -Nat.pow 2 63 ≤ n ∧ n < Nat.pow 2 63 then some (.int n) else none

/-- A whole number in another base than ten. -/
def inBase? (base : Nat) (cs : List Char) : Option Json := do
  let ds ← digitsOf? (fun c => (Json.hexValue? c).any (· < base)) cs
  let n := ds.foldl (fun n d => base * n + (Json.hexValue? d).getD 0) 0
  word? (n : Nat)

/-- The sign in front of a number: is it negative? -/
def signOf : List Char → Bool × List Char
  | '-' :: rest => (true, rest)
  | '+' :: rest => (false, rest)
  | cs => (false, cs)

/-- The whole part of a decimal number. Zero is its only leading zero. -/
def wholeDigits? (cs : List Char) : Option (List Char) := do
  let ds ← digitsOf? Char.isDigit cs
  if ds.head? == some '0' && cs.length > 1 then none else some ds

def exponentOf? (cs : List Char) : Option Int := do
  let (negative, ds) := signOf cs
  let n := Decimal.ofDigits (← digitsOf? Char.isDigit ds)
  return if negative then -n else n

/-- The nearest double. One above the greatest is refused, one below the least is infinite. -/
def floatOf? (negative : Bool) (digits : List Char) (exponent : Int) : Option Json :=
  match Decimal.nearest? (Decimal.ofDigits digits) exponent with
  | some x => some (.float (if negative then -x else x))
  | none => if negative then some (.float (-1.0 / 0.0)) else none

/-- A decimal number: digits, perhaps a fraction and an exponent. -/
def decimal? (cs : List Char) : Option Json := do
  let (negative, cs) := signOf cs
  let isExponent (c : Char) : Bool := c == 'e' || c == 'E'
  let significand := cs.takeWhile fun c => !isExponent c
  let whole := significand.takeWhile (· != '.')
  let ds ← wholeDigits? whole
  let fraction ← match significand.dropWhile (· != '.') with
    | [] => pure []
    | _ :: rest => digitsOf? Char.isDigit rest
  match cs.dropWhile (fun c => !isExponent c) with
  | [] =>
    if significand.length == whole.length then
      let n : Int := Decimal.ofDigits ds
      word? (if negative then -n else n)
    else floatOf? negative (ds ++ fraction) (-fraction.length)
  | _ :: rest => floatOf? negative (ds ++ fraction) ((← exponentOf? rest) - fraction.length)

/-- Two digits of at most `most`. -/
def twoDigits (most : Nat) : Reader Nat := do
  let n := Decimal.ofDigits [← one Char.isDigit, ← one Char.isDigit]
  if n ≤ most then return n else fail

def date : Reader Date := do
  let year ← (List.range 4).mapM fun _ => one Char.isDigit
  char '-'
  let month ← twoDigits 12
  char '-'
  let day ← twoDigits 31
  let d : Date := ⟨Decimal.ofDigits year, month, day⟩
  if d.isValid then return d else fail

/-- A time of day, as it is written again. Of a fraction nine places are kept. -/
def clock : Reader (List Char) := do
  let hour ← twoDigits 23
  char ':'
  let minute ← twoDigits 59
  char ':'
  let second ← twoDigits 60
  let fraction ← maybe do char '.'; runSome Char.isDigit
  let kept := (((fraction.getD []).take 9).reverse.dropWhile (· == '0')).reverse
  let pair := Decimal.padded 2
  return pair hour ++ ':' :: pair minute ++ ':' :: pair second ++
    if kept.isEmpty then [] else '.' :: kept

/-- The distance from Greenwich. -/
def offset : Reader (List Char) :=
  (do let _ ← one fun c => c == 'Z' || c == 'z'; return ['Z']) <|> do
    let sign ← one fun c => c == '+' || c == '-'
    let hour ← twoDigits 23
    char ':'
    let minute ← twoDigits 59
    let sign := if hour == 0 && minute == 0 then '+' else sign
    return sign :: Decimal.padded 2 hour ++ ':' :: Decimal.padded 2 minute

def dateChars (d : Date) : List Char :=
  Decimal.padded 4 d.year.toNat ++ '-' :: Decimal.padded 2 d.month ++ '-' :: Decimal.padded 2 d.day

/-- A time is handed on as its text under this name. -/
def timeName : String := "$__toml_private_datetime"

def timeValue (text : List Char) : Json := .obj [(timeName, .str (String.ofList text))]

/-- A date, a time of day, or both with a letter between them. -/
def time : Reader (List Char) :=
  (do
    let day ← date
    let rest ← maybe do
      let _ ← one fun c => c == 'T' || c == 't' || c == ' '
      let at' ← clock
      return 'T' :: at' ++ (← maybe offset).getD []
    return dateChars day ++ rest.getD []) <|> clock

def wordOf? (cs : List Char) : Option Json :=
  match String.ofList cs with
  | "true" => some (.bool true)
  | "false" => some (.bool false)
  | "inf" | "+inf" => some (.float (1.0 / 0.0))
  | "-inf" => some (.float (-1.0 / 0.0))
  | "nan" | "+nan" => some (.float (0.0 / 0.0))
  | "-nan" => some (.float .minusUndefined)
  | _ => none

def number? : List Char → Option Json
  | '0' :: 'x' :: rest => inBase? 16 rest
  | '0' :: 'o' :: rest => inBase? 8 rest
  | '0' :: 'b' :: rest => inBase? 2 rest
  | cs => decimal? cs

/-- The number or word of a run of marks. -/
def bare : Reader Json := do
  let cs ← runSome isScalarMark
  match (wordOf? cs).or (number? cs) with
  | some value => return value
  | none => fail

/-- A value without quotes or brackets. -/
def scalar : Reader Json :=
  (do
    let text ← time
    match ← peek? with
    | some c => if isScalarMark c then fail
    | none => pure ()
    return timeValue text) <|> bare

end Admission.Toml
