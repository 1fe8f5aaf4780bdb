import Admission.Json.Token

/-!
# Reservation ids

128-bit handles, written as 32 hexadecimal digits in five groups.
-/

namespace Admission

structure ReservationId where
  bits : BitVec 128
  deriving DecidableEq, Repr, Inhabited

namespace ReservationId

def groups : List Nat := [8, 4, 4, 4, 12]

def hexDigits (id : ReservationId) : List Char :=
  (List.range 32).map fun i => Nat.digitChar (id.bits.toNat / Nat.pow 16 (31 - i) % 16)

/-- Cut into groups with a hyphen between them. -/
def hyphenate : List Nat → List Char → List Char
  | [], _ => []
  | [n], cs => cs.take n
  | n :: rest, cs => cs.take n ++ '-' :: hyphenate rest (cs.drop n)

/-- The digits of text in groups. -/
def unhyphenate? : List Nat → List Char → Option (List Char)
  | [], cs => if cs.isEmpty then some [] else none
  | [n], cs => if cs.length == n then some cs else none
  | n :: rest, cs =>
    match cs.drop n with
    | '-' :: tail => (unhyphenate? rest tail).map (cs.take n ++ ·)
    | _ => none

def text (id : ReservationId) : String := String.ofList (hyphenate groups id.hexDigits)

def ofHexDigits? (ds : List Char) : Option ReservationId :=
  if ds.length == 32 then
    (ds.mapM Json.hexValue?).map fun values => ⟨BitVec.ofNat 128 (values.foldl (16 * · + ·) 0)⟩
  else none

/-- The part of the text that holds the groups: braces and the name of the scheme fall away. -/
def body (cs : List Char) : List Char :=
  if cs.head? == some '{' && cs.getLast? == some '}' then cs.tail.dropLast
  else if (cs.take 9).map Char.toLower == "urn:uuid:".toList then cs.drop 9
  else cs

/-- Plain digits, or digits in groups, which may stand in braces or behind the name of the scheme. -/
def ofText? (s : String) : Option ReservationId :=
  match ofHexDigits? s.toList with
  | some id => some id
  | none => (unhyphenate? groups (body s.toList)).bind ofHexDigits?

/-- Random bits with the marks of a random id at their two places. -/
def ofRandom (bits : BitVec 128) : ReservationId :=
  let version := (bits &&& ~~~(0xF#128 <<< 76)) ||| (0x4#128 <<< 76)
  ⟨(version &&& ~~~(0x3#128 <<< 62)) ||| (0x2#128 <<< 62)⟩

end ReservationId

end Admission
