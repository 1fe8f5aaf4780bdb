import Admission.Decimal.Reading
import Admission.Json.Token
import Admission.Text.Reader

/-!
# Quoted text in TOML

Between double quotes a backslash begins an escape, between single quotes every character stands for
itself. Three quotes enclose text over several lines; a line break right behind them does not
count, and line breaks inside are read as `\n`.
-/

namespace Admission.Toml

open Text Text.Reader

/-- Blanks within a line. -/
def isGap (c : Char) : Bool := c == ' ' || c == '\t'

/-- A character that may stand in a comment or a text as itself. -/
def isPlain (c : Char) : Bool := c == '\t' || (0x20 ≤ c.toNat && c.toNat != 0x7F)

def newline : Reader Unit := chars ['\n'] <|> chars ['\r', '\n']

/-- So many hexadecimal digits that name a character. -/
def codePoint (digits : Nat) : Reader Char := do
  let ds ← (List.range digits).mapM fun _ => one fun c => (Json.hexValue? c).isSome
  let n := ds.foldl (fun n d => 16 * n + (Json.hexValue? d).getD 0) 0
  if n.isValidChar then return Char.ofNat n else fail

/-- What stands behind the backslash of an escape. -/
def escaped : Reader Char := do
  match ← one fun _ => true with
  | 'b' => return '\x08'
  | 't' => return '\t'
  | 'n' => return '\n'
  | 'f' => return '\x0c'
  | 'r' => return '\r'
  | '"' => return '"'
  | '\\' => return '\\'
  | 'u' => codePoint 4
  | 'U' => codePoint 8
  | _ => fail

/-- A character between single double quotes. -/
def basicChar : Reader Char :=
  (do char '\\'; escaped) <|> one fun c => isPlain c && c != '"' && c != '\\'

def basic : Reader String := do
  char '"'
  let cs ← many basicChar
  char '"'
  return String.ofList cs

def literal : Reader String := do
  char '\''
  let cs ← run fun c => isPlain c && c != '\''
  char '\''
  return String.ofList cs

/-- A backslash at the end of a line: the break and all blanks behind it do not count. -/
def continuation : Reader (List Char) := do
  char '\\'
  let _ ← run isGap
  newline
  let _ ← many ((do let _ ← one isGap) <|> newline)
  return []

/-- A piece of text over several lines that is no quote. -/
def linesPiece (escapes : Bool) (quote : Char) : Reader (List Char) :=
  (do newline; return ['\n']) <|>
  (if escapes then continuation <|> (do char '\\'; return [← escaped]) else fail) <|>
  (do return [← one fun c => isPlain c && c != quote && !(escapes && c == '\\')])

/-- One or two quotes that do not end the text. -/
def innerQuotes (quote : Char) : Reader (List Char) := do
  let qs ← runSome (· == quote)
  if qs.length ≤ 2 then return qs else fail

/-- The quotes at the end: three, before which up to two belong to the text. -/
def closingQuotes (quote : Char) : Reader (List Char) := do
  let qs ← runSome (· == quote)
  if 3 ≤ qs.length && qs.length ≤ 5 then return qs.drop 3 else fail

def overLines (escapes : Bool) (quote : Char) : Reader String := do
  chars [quote, quote, quote]
  let _ ← maybe newline
  let pieces ← many (linesPiece escapes quote <|> innerQuotes quote)
  return String.ofList (pieces.flatten ++ (← closingQuotes quote))

/-- Text in any of the four forms. -/
def quotedText : Reader String :=
  overLines true '"' <|> basic <|> overLines false '\'' <|> literal

end Admission.Toml
