import Admission.Json.Number

/-!
# JSON tokens

Text is cut into tokens by a machine that looks at one character at a time. A character never has
to be read twice, so the tokens of a text in two parts are those of the first part followed by
those that the machine finds in the second.
-/

namespace Admission.Json

inductive Token where
  | openArray
  | closeArray
  | openObject
  | closeObject
  | comma
  | colon
  /-- A text, unless it has one half of a pair of code units without the other. -/
  | str (text : Option String)
  /-- A number or one of the three words. -/
  | atom (value : Json)
  deriving Inhabited

/-- The characters of a text, the last one first; nothing once half a pair has been found. -/
abbrev Letters := Option (List Char)

/-- What the last characters were part of. Words and numbers are kept with the last character
first. -/
inductive Mode where
  | between
  | word (letters : List Char)
  | number (marks : List Char)
  | string (text : Letters)
  | escape (text : Letters)
  /-- Inside the four digits of an escape, perhaps the second half of a pair. -/
  | hex (text : Letters) (high : Option Nat) (count value : Nat)
  /-- After the first half of a pair. -/
  | halfway (text : Letters) (high : Nat)
  | halfwayEscape (text : Letters) (high : Nat)

/-- Tokens are kept with the last one first. -/
structure Scan where
  mode : Mode
  tokens : List Token

/-- The four characters that separate tokens without being one. -/
def isGap (c : Char) : Bool := c == ' ' || c == '\n' || c == '\t' || c == '\r'

def wordValue? (letters : List Char) : Option Json :=
  match String.ofList letters with
  | "null" => some .null
  | "true" => some (.bool true)
  | "false" => some (.bool false)
  | _ => none

def punctuation? : Char → Option Token
  | '[' => some .openArray
  | ']' => some .closeArray
  | '{' => some .openObject
  | '}' => some .closeObject
  | ',' => some .comma
  | ':' => some .colon
  | _ => none

def escaped? : Char → Option Char
  | '"' => some '"'
  | '\\' => some '\\'
  | '/' => some '/'
  | 'b' => some '\x08'
  | 'f' => some '\x0c'
  | 'n' => some '\n'
  | 'r' => some '\r'
  | 't' => some '\t'
  | _ => none

def hexValue? (c : Char) : Option Nat :=
  if '0' ≤ c && c ≤ '9' then some (c.toNat - '0'.toNat)
  else if 'a' ≤ c && c ≤ 'f' then some (c.toNat - 'a'.toNat + 10)
  else if 'A' ≤ c && c ≤ 'F' then some (c.toNat - 'A'.toNat + 10)
  else none

/-- A character at the start of a token or in a gap. -/
def startToken (tokens : List Token) (c : Char) : Option Scan :=
  if isGap c then some ⟨.between, tokens⟩
  else if c == '"' then some ⟨.string (some []), tokens⟩
  else if c == '-' || c.isDigit then some ⟨.number [c], tokens⟩
  else if c.isLower then some ⟨.word [c], tokens⟩
  else (punctuation? c).map fun token => ⟨.between, token :: tokens⟩

/-- The four digits of an escape are complete: a character, or one half of a pair. -/
def closeEscape (text : Letters) (high : Option Nat) (value : Nat) : Mode :=
  let isHigh := 0xD800 ≤ value && value ≤ 0xDBFF
  let isLow := 0xDC00 ≤ value && value ≤ 0xDFFF
  match high with
  | some h =>
    if isLow then
      let n := 0x10000 + (h - 0xD800) * 0x400 + (value - 0xDC00)
      .string (text.map (Char.ofNat n :: ·))
    else .string none
  | none =>
    if isHigh then .halfway text value
    else if isLow then .string none
    else .string (text.map (Char.ofNat value :: ·))

def letterStep (tokens : List Token) (text : Letters) (c : Char) : Option Scan :=
  if c == '"' then some ⟨.between, .str (text.map fun cs => String.ofList cs.reverse) :: tokens⟩
  else if c == '\\' then some ⟨.escape text, tokens⟩
  else if c.toNat < 0x20 then none
  else some ⟨.string (text.map (c :: ·)), tokens⟩

def escapeStep (tokens : List Token) (text : Letters) (c : Char) : Option Scan :=
  if c == 'u' then some ⟨.hex text none 0 0, tokens⟩
  else (escaped? c).map fun e => ⟨.string (text.map (e :: ·)), tokens⟩

def Scan.step (s : Scan) (c : Char) : Option Scan :=
  match s.mode with
  | .between => startToken s.tokens c
  | .word letters =>
    if c.isLower then some { s with mode := .word (c :: letters) }
    else (wordValue? letters.reverse).bind fun value => startToken (.atom value :: s.tokens) c
  | .number marks =>
    if isNumberMark c then some { s with mode := .number (c :: marks) }
    else (numberValue? marks.reverse).bind fun value => startToken (.atom value :: s.tokens) c
  | .string text => letterStep s.tokens text c
  | .escape text => escapeStep s.tokens text c
  | .hex text high count value =>
    (hexValue? c).map fun digit =>
      if count == 3 then { s with mode := closeEscape text high (16 * value + digit) }
      else { s with mode := .hex text high (count + 1) (16 * value + digit) }
  | .halfway text high =>
    if c == '\\' then some { s with mode := .halfwayEscape text high } else letterStep s.tokens none c
  | .halfwayEscape text high =>
    if c == 'u' then some { s with mode := .hex text (some high) 0 0 } else escapeStep s.tokens none c

def Scan.run (s : Scan) (cs : List Char) : Option Scan := cs.foldlM Scan.step s

/-- The tokens, first one first, if the text does not end inside one. -/
def Scan.finish (s : Scan) : Option (List Token) :=
  match s.mode with
  | .between => some s.tokens.reverse
  | .word letters => (wordValue? letters.reverse).map fun value => (.atom value :: s.tokens).reverse
  | .number marks => (numberValue? marks.reverse).map fun value => (.atom value :: s.tokens).reverse
  | _ => none

def tokens? (cs : List Char) : Option (List Token) := (Scan.run ⟨.between, []⟩ cs).bind Scan.finish

end Admission.Json
