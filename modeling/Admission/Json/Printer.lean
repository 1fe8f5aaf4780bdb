import Admission.Decimal.Shortest
import Admission.Json.Basic

/-!
# Writing JSON

Numbers are written with the fewest digits that read back. From `1e-5` up to `1e16` the point has
its place among the digits, elsewhere an exponent with its sign follows. A number that JSON cannot
write is `null`.
-/

namespace Admission.Json

/-- Digits with the point `point` places after the first digit's left side, or an exponent. -/
def placed (ds : List Char) (point : Int) : List Char :=
  let n : Nat := ds.length
  if n ≤ point ∧ point ≤ 16 then
    ds ++ List.replicate (point - n).toNat '0' ++ ['.', '0']
  else if 0 < point ∧ point ≤ 16 then
    ds.take point.toNat ++ '.' :: ds.drop point.toNat
  else if -5 < point ∧ point ≤ 0 then
    ['0', '.'] ++ List.replicate (-point).toNat '0' ++ ds
  else
    let exponent := point - 1
    ds.take 1 ++ (if n == 1 then [] else '.' :: ds.drop 1) ++ 'e' ::
      ((if exponent < 0 then '-' else '+') :: Decimal.digits exponent.natAbs)

def floatChars (x : Double) : List Char :=
  match Decimal.Binary.ofDouble x with
  | .finite negative m e =>
    (if negative then ['-'] else []) ++
      if m == 0 then ['0', '.', '0']
      else
        let s := Decimal.shortest .toEven m e
        let ds := Decimal.digits s.digits
        placed ds (ds.length + s.exponent)
  | _ => ['n', 'u', 'l', 'l']

def intChars : Int → List Char
  | .ofNat n => Decimal.digits n
  | .negSucc n => '-' :: Decimal.digits (n + 1)

/-- A control character without a letter of its own. -/
def controlEscape (c : Char) : List Char :=
  ['\\', 'u', '0', '0', Nat.digitChar (c.toNat / 16), Nat.digitChar (c.toNat % 16)]

def escapeChar (c : Char) : List Char :=
  match c with
  | '"' => ['\\', '"']
  | '\\' => ['\\', '\\']
  | '\x08' => ['\\', 'b']
  | '\x0c' => ['\\', 'f']
  | '\n' => ['\\', 'n']
  | '\r' => ['\\', 'r']
  | '\t' => ['\\', 't']
  | c => if c.toNat < 0x20 then controlEscape c else [c]

def stringChars (s : String) : List Char := '"' :: s.toList.flatMap escapeChar ++ ['"']

def atomChars : Json → List Char
  | .bool true => ['t', 'r', 'u', 'e']
  | .bool false => ['f', 'a', 'l', 's', 'e']
  | .int n => intChars n
  | .float x => floatChars x
  | .str s => stringChars s
  | _ => ['n', 'u', 'l', 'l']

mutual

def compactChars : Json → List Char
  | .arr items => '[' :: compactItems items ++ [']']
  | .obj members => '{' :: compactMembers members ++ ['}']
  | atom => atomChars atom

def compactItems : List Json → List Char
  | [] => []
  | [item] => compactChars item
  | item :: rest => compactChars item ++ ',' :: compactItems rest

def compactMembers : List (String × Json) → List Char
  | [] => []
  | [(name, value)] => stringChars name ++ ':' :: compactChars value
  | (name, value) :: rest =>
    stringChars name ++ ':' :: compactChars value ++ ',' :: compactMembers rest

end

/-- A new line, two blanks in per level. -/
def newline (depth : Nat) : List Char := '\n' :: List.replicate (2 * depth) ' '

mutual

/-- The value over several lines, its parts indented below it. -/
def prettyChars (depth : Nat) : Json → List Char
  | .arr [] => ['[', ']']
  | .obj [] => ['{', '}']
  | .arr items => '[' :: prettyItems (depth + 1) items ++ newline depth ++ [']']
  | .obj members => '{' :: prettyMembers (depth + 1) members ++ newline depth ++ ['}']
  | atom => atomChars atom

def prettyItems (depth : Nat) : List Json → List Char
  | [] => []
  | [item] => newline depth ++ prettyChars depth item
  | item :: rest => newline depth ++ prettyChars depth item ++ ',' :: prettyItems depth rest

def prettyMembers (depth : Nat) : List (String × Json) → List Char
  | [] => []
  | [(name, value)] =>
    newline depth ++ stringChars name ++ ':' :: ' ' :: prettyChars depth value
  | (name, value) :: rest =>
    newline depth ++ stringChars name ++ ':' :: ' ' :: prettyChars depth value ++
      ',' :: prettyMembers depth rest

end

def compact (j : Json) : String := String.ofList (compactChars j)

def pretty (j : Json) : String := String.ofList (prettyChars 0 j)

end Admission.Json
