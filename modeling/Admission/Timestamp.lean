import Admission.Calendar
import Admission.Decimal.Reading
import Admission.Json.Decode
import Admission.Text.Blank

/-!
# Timestamps

A moment in UTC and its text after RFC 3339. Reading is lenient about blanks and leading zeros;
writing gives as many places of the second as are needed, in groups of three.
-/

namespace Admission

/-- Seconds since 1970 and nanoseconds within the second. In a leap second they run on past 10⁹. -/
structure Timestamp where
  seconds : Int
  nanos : Nat
  deriving DecidableEq, Repr, Inhabited

namespace Timestamp

/-- The first and the last second of the years -262143 to 262142. -/
def firstSecond : Int := -8334601228800
def lastSecond : Int := 8210266876799

/-- The moment of a second, if its year is one of those that are kept. -/
def ofSeconds? (seconds : Int) : Option Timestamp :=
  if firstSecond ≤ seconds ∧ seconds ≤ lastSecond then some ⟨seconds, 0⟩ else none

/-- The moment some hours before. From a leap second one goes back as from the second after it. -/
def hoursBefore (t : Timestamp) (hours : Nat) : Timestamp :=
  if hours == 0 then t
  else if t.nanos < 1000000000 then ⟨t.seconds - hours * 3600, t.nanos⟩
  else ⟨t.seconds + 1 - hours * 3600, t.nanos - 1000000000⟩

/-- Two digits at least. -/
def twoDigits (n : Nat) : List Char := Decimal.padded 2 n

def yearChars (year : Int) : List Char :=
  if 0 ≤ year ∧ year ≤ 9999 then Decimal.padded 4 year.toNat
  else (if year < 0 then '-' else '+') :: Decimal.padded 4 year.natAbs

def fractionChars (nanos : Nat) : List Char :=
  if nanos == 0 then []
  else if nanos % 1000000 == 0 then '.' :: Decimal.padded 3 (nanos / 1000000)
  else if nanos % 1000 == 0 then '.' :: Decimal.padded 6 (nanos / 1000)
  else '.' :: Decimal.padded 9 nanos

def text (t : Timestamp) : String :=
  let date := Date.ofDay (t.seconds.fdiv 86400)
  let inDay := (t.seconds.fmod 86400).toNat
  let extra := t.nanos / 1000000000
  String.ofList <|
    yearChars date.year ++ '-' :: twoDigits date.month ++ '-' :: twoDigits date.day ++ 'T' ::
      twoDigits (inDay / 3600) ++ ':' :: twoDigits (inDay / 60 % 60) ++ ':' ::
      twoDigits (inDay % 60 + extra) ++ fractionChars (t.nanos % 1000000000) ++ ['Z']

/-- Leading digits, at most `width` of them, and what follows. -/
def number? (width : Nat) (cs : List Char) : Option (Nat × List Char) :=
  let ds := (cs.take width).takeWhile Char.isDigit
  if ds.isEmpty then none else some (Decimal.ofDigits ds, cs.drop ds.length)

/-- A number after blanks. -/
def field? (cs : List Char) : Option (Nat × List Char) := number? 2 (Text.trimStart cs)

/-- A separator after blanks. -/
def mark? (mark : Char) (cs : List Char) : Option (List Char) :=
  match Text.trimStart cs with
  | c :: rest => if c == mark then some rest else none
  | [] => none

/-- Four digits, or any number of them after a sign. -/
def year? (cs : List Char) : Option (Int × List Char) :=
  match Text.trimStart cs with
  | '-' :: rest => (number? rest.length rest).map fun (n, rest) => (-(n : Int), rest)
  | '+' :: rest => (number? rest.length rest).map fun (n, rest) => ((n : Int), rest)
  | cs => (number? 4 cs).map fun (n, rest) => ((n : Int), rest)

/-- Digits after the point count up to the ninth. -/
def fraction? (cs : List Char) : Option (Nat × List Char) :=
  match cs with
  | '.' :: rest =>
    let ds := rest.takeWhile Char.isDigit
    if ds.isEmpty then none
    else
      let kept := ds.take 9
      some (Decimal.ofDigits kept * Nat.pow 10 (9 - kept.length), rest.dropWhile Char.isDigit)
  | cs => some (0, cs)

/-- Two digits, of which the first is below `bound`. -/
def pair? (bound : Char) (cs : List Char) : Option (Nat × List Char) :=
  match cs with
  | a :: b :: rest =>
    if a.isDigit && b.isDigit && a < bound then some (Decimal.ofDigits [a, b], rest) else none
  | _ => none

/-- Seconds east of Greenwich. -/
def offset? (cs : List Char) : Option (Int × List Char) :=
  match cs with
  | 'Z' :: rest | 'z' :: rest => some (0, rest)
  | sign :: rest =>
    if (String.ofList (cs.take 3)).toLower == "utc" then some (0, cs.drop 3)
    else if sign == '+' || sign == '-' || sign == '\u2212' then do
      let (hours, rest) ← pair? ':' rest
      let (minutes, rest) ← pair? '6' (rest.dropWhile fun c => c == ':' || Text.isBlank c)
      let seconds : Int := hours * 3600 + minutes * 60
      if seconds < 86400 then some (if sign == '+' then seconds else -seconds, rest) else none
    else none
  | [] => none

/-- Both the clock of the place and UTC have to show a year that is kept. -/
def ofText? (s : String) : Option Timestamp := do
  let (year, cs) ← year? s.toList
  let (month, cs) ← field? (← mark? '-' cs)
  let (day, cs) ← field? (← mark? '-' cs)
  let cs ← match cs with
    | 'T' :: rest | 't' :: rest | ' ' :: rest => some rest
    | _ => none
  let (hour, cs) ← field? cs
  let (minute, cs) ← field? (← mark? ':' cs)
  let (second, cs) ← field? (← mark? ':' cs)
  let (nanos, cs) ← fraction? cs
  let (offset, cs) ← offset? (Text.trimStart cs)
  let date : Date := ⟨year, month, day⟩
  if !(Text.trimStart cs).isEmpty || !date.isValid || hour > 23 || minute > 59 || second > 60 then none
  else
    let leap := second == 60
    let clock : Int := hour * 3600 + minute * 60 + if leap then 59 else second
    let here ← ofSeconds? (date.toDay * 86400 + clock)
    let t ← ofSeconds? (here.seconds - offset)
    some { t with nanos := if leap then nanos + 1000000000 else nanos }

def toJson (t : Timestamp) : Json := .str t.text

def ofJson : Decode Timestamp := fun _ j =>
  match j with
  | .str s =>
    match ofText? s with
    | some t => .ok t
    | none => .error .malformed
  | _ => .error .malformed

example : (Timestamp.mk 1773144000 125000000).text = "2026-03-10T12:00:00.125Z" := by decide +kernel

end Timestamp

end Admission
