import Admission.Decimal.Shortest
import Admission.Json.Basic

/-!
# Writing TOML

Tables have headers of their own; the plain values of a table stand below its header, in front of the
tables inside it. A table that holds tables only has no header. Arrays of two or more values are
written over several lines.
-/

namespace Admission.Toml

/-- What TOML has no form for. -/
inductive Unwritable where
  | null
  /-- A whole number above the greatest of 64 bits with sign. -/
  | outOfRange
  deriving DecidableEq, Repr

def Unwritable.message : Unwritable → String
  | null => "unsupported unit type"
  | outOfRange => "out-of-range value for u64 type"

/-! ## Texts -/

/-- What decides between the forms of a text. -/
structure TextTraits where
  /-- The longest runs of quotes. -/
  singleQuotes : Nat := 0
  doubleQuotes : Nat := 0
  /-- Control characters other than tabs and line breaks. -/
  controls : Bool := false
  backslash : Bool := false
  newline : Bool := false

/-- The longest run of a character. -/
def longestRun (c : Char) (cs : List Char) : Nat :=
  let runs := cs.foldl (fun (best, now) d =>
    let now := if d == c then now + 1 else 0
    (max best now, now)) (0, 0)
  runs.1

def isControl (c : Char) : Bool := c.toNat ≤ 0x1F || c.toNat == 0x7F

def TextTraits.of (cs : List Char) : TextTraits where
  singleQuotes := longestRun '\'' cs
  doubleQuotes := longestRun '"' cs
  controls := cs.any fun c => isControl c && c != '\t' && c != '\n'
  backslash := cs.contains '\\'
  newline := cs.contains '\n'

/-- A control character in four hexadecimal digits. -/
def hexEscape (c : Char) : List Char :=
  let digit (n : Nat) : Char := (Nat.digitChar (n % 16)).toUpper
  ['\\', 'u', '0', '0', digit (c.toNat / 16), digit c.toNat]

def escapeChar (c : Char) : List Char :=
  match c with
  | '\x08' => ['\\', 'b']
  | '\t' => ['\\', 't']
  | '\n' => ['\\', 'n']
  | '\x0c' => ['\\', 'f']
  | '\r' => ['\\', 'r']
  | '"' => ['\\', '"']
  | '\\' => ['\\', '\\']
  | c => if isControl c then hexEscape c else [c]

/-- Escapes of a text over several lines: line breaks stay, and so do up to two quotes in a row. -/
def escapeLines : (quotes : Nat) → List Char → List Char
  | _, [] => []
  | quotes, '"' :: rest =>
    if quotes < 2 then '"' :: escapeLines (quotes + 1) rest else '\\' :: '"' :: escapeLines 0 rest
  | _, '\n' :: rest => '\n' :: escapeLines 0 rest
  | _, c :: rest => escapeChar c ++ escapeLines 0 rest

def basicForm (cs : List Char) : List Char := '"' :: cs.flatMap escapeChar ++ ['"']

def literalForm (cs : List Char) : List Char := '\'' :: cs ++ ['\'']

/-- Three quotes around a text; one that has line breaks begins on a line of its own. -/
def linesForm (quote : Char) (newline : Bool) (body : List Char) : List Char :=
  [quote, quote, quote] ++ (if newline then ['\n'] else []) ++ body ++ [quote, quote, quote]

/-- A text in the first form that needs no escapes; where all do, in double quotes. -/
def textChars (cs : List Char) : List Char :=
  let t := TextTraits.of cs
  let plain := !t.controls && !t.backslash
  if plain && t.doubleQuotes == 0 && !t.newline then basicForm cs
  else if !t.controls && t.singleQuotes == 0 && !t.newline then literalForm cs
  else if plain && t.doubleQuotes ≤ 2 then linesForm '"' t.newline (escapeLines 0 cs)
  else if !t.controls && t.singleQuotes ≤ 2 then linesForm '\'' t.newline cs
  else if t.newline then linesForm '"' true (escapeLines 0 cs)
  else basicForm cs

def isBareKey (cs : List Char) : Bool :=
  !cs.isEmpty && cs.all fun c => c.isAlphanum || c == '-' || c == '_'

/-- A key stays on its line. -/
def keyChars (cs : List Char) : List Char :=
  let t := TextTraits.of cs
  if isBareKey cs then cs
  else if t.controls || t.newline then basicForm cs
  else if !t.backslash && t.doubleQuotes == 0 then basicForm cs
  else if t.singleQuotes == 0 then literalForm cs
  else basicForm cs

def keyText (name : String) : String := String.ofList (keyChars name.toList)

/-! ## Numbers -/

/-- All digits of a number, without an exponent. -/
def positional (ds : List Char) (exponent : Int) : List Char :=
  if 0 ≤ exponent then ds ++ List.replicate exponent.toNat '0' ++ ['.', '0']
  else
    let places := (-exponent).toNat
    if places < ds.length then ds.take (ds.length - places) ++ '.' :: ds.drop (ds.length - places)
    else '0' :: '.' :: List.replicate (places - ds.length) '0' ++ ds

/-- The fewest digits that read back; of two equally near decimals the greater one. -/
def floatChars (x : Double) : List Char :=
  match Decimal.Binary.ofDouble x with
  | .nan => ['n', 'a', 'n']
  | .infinite negative => if negative then ['-', 'i', 'n', 'f'] else ['i', 'n', 'f']
  | .finite negative m e =>
    (if negative then ['-'] else []) ++
      if m == 0 then ['0', '.', '0']
      else
        let s := Decimal.shortest .up m e
        positional (Decimal.digits s.digits) s.exponent

example : floatChars 0.15 = "0.15".toList ∧ floatChars 1e3 = "1000.0".toList ∧
    floatChars (-1.5e-7) = "-0.00000015".toList := by decide +kernel

/-! ## Values -/

def indented (items : List String) : String :=
  match items with
  | [] => "[]"
  | [item] => "[" ++ item ++ "]"
  | items => "[\n    " ++ ",\n    ".intercalate items ++ ",\n]"

mutual

/-- A value on the line of its key. -/
def valueText : Json → Except Unwritable String
  | .null | .unusable => .error .null
  | .bool b => .ok (if b then "true" else "false")
  | .int n => if n < Nat.pow 2 63 then .ok (toString n) else .error .outOfRange
  | .float x => .ok (String.ofList (floatChars x))
  | .str s => .ok (String.ofList (textChars s.toList))
  | .arr items => (itemTexts items).map indented
  | .obj members => (memberTexts members).map fun texts =>
      if texts.isEmpty then "\x7b\x7d" else "\x7b " ++ ", ".intercalate texts ++ " \x7d"

def itemTexts : List Json → Except Unwritable (List String)
  | [] => .ok []
  | item :: rest => do
    let text ← valueText item
    return text :: (← itemTexts rest)

def memberTexts : List (String × Json) → Except Unwritable (List String)
  | [] => .ok []
  | (name, value) :: rest => do
    let text ← valueText value
    return (keyText name ++ " = " ++ text) :: (← memberTexts rest)

end

/-! ## Tables -/

def isObject : Json → Bool
  | .obj _ => true
  | _ => false

/-- A value with a header of its own: a table or a list of tables. -/
def hasHeader : Json → Bool
  | .obj _ => true
  | .arr items => !items.isEmpty && items.all isObject
  | _ => false

/-- A header, if any, and the lines below it. -/
abbrev Block := List String

/-- The lines of the plain values. -/
def plainLines (members : List (String × Json)) : Except Unwritable (List String) :=
  memberTexts (members.filter fun m => !hasHeader m.2)

def pathText (path : List String) : String := ".".intercalate (path.map keyText)

/-- The block of one table. A table of tables only has none, unless it is one item of a list. -/
def ownBlock (path : List String) (isItem : Bool) (members : List (String × Json)) :
    Except Unwritable (List Block) := do
  let lines ← plainLines members
  if path.isEmpty then return if lines.isEmpty then [] else [lines]
  else if isItem then return [("[[" ++ pathText path ++ "]]") :: lines]
  else if lines.isEmpty && !members.isEmpty then return []
  else return [("[" ++ pathText path ++ "]") :: lines]

mutual

def blocks (path : List String) (isItem : Bool) : Json → Except Unwritable (List Block)
  | .obj members => do
    let own ← ownBlock path isItem members
    return own ++ (← innerBlocks path members)
  | _ => .ok []

/-- The blocks of the tables inside a table. -/
def innerBlocks (path : List String) : List (String × Json) → Except Unwritable (List Block)
  | [] => .ok []
  | (name, value) :: rest => do
    let here ← match value with
      | .obj members => blocks (path ++ [name]) false (.obj members)
      | .arr items => if hasHeader value then itemBlocks (path ++ [name]) items else .ok []
      | _ => .ok []
    return here ++ (← innerBlocks path rest)

def itemBlocks (path : List String) : List Json → Except Unwritable (List Block)
  | [] => .ok []
  | item :: rest => do
    let here ← blocks path true item
    return here ++ (← itemBlocks path rest)

end

/-- The document of a tree; between two blocks stands a blank line. -/
def write (j : Json) : Except Unwritable String := do
  let all ← blocks [] false j
  return "\n".intercalate (all.map fun block => String.join (block.map (· ++ "\n")))

end Admission.Toml
