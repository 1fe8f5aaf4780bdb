import Admission.Toml.Quoted
import Admission.Toml.Scalar
import Admission.Toml.Table

/-!
# TOML documents

A document is a list of lines: headers, keys with their values, and comments. Values and keys nest
less than 80 deep.
-/

namespace Admission.Toml

open Text Text.Reader

/-- Arrays and inline tables nest at most this deep, and a key has at most as many parts. -/
def maxDepth : Nat := 79

def gap : Reader Unit := do
  let _ ← run isGap

def comment : Reader Unit := do
  char '#'
  let _ ← run isPlain

/-- Blanks, comments and line breaks. -/
def spread : Reader Unit := do
  let _ ← many ((do let _ ← one isGap) <|> newline <|> comment)

def isBareMark (c : Char) : Bool := c.isAlphanum || c == '-' || c == '_'

/-- One part of a key, with the blanks around it. -/
def keyPart : Reader String := do
  gap
  let part ← basic <|> literal <|> (do return String.ofList (← runSome isBareMark))
  gap
  return part

/-- The parts of a key: the path that leads to it and the key itself. -/
def key : Reader (List String × String) := do
  let parts ← separated (char '.') keyPart
  match parts.getLast? with
  | some last => if parts.length ≤ maxDepth then return (parts.dropLast, last) else fail
  | none => fail

/-- Parts with commas between them. -/
def commas {α : Type} (part : Reader α) : Reader (List α) := do
  return (← maybe (separated (char ',') part)).getD []

/-- Values between brackets, also over several lines. -/
def array (value : Reader Json) : Reader Json := do
  char '['
  let items ← commas do
    spread
    let item ← value
    spread
    return item
  let _ ← if items.isEmpty then pure none else maybe (char ',')
  spread
  char ']'
  return .arr items

/-- Keys and values between braces, on one line. -/
def inlineTable (value : Reader Json) : Reader Json := do
  char '{'
  let pairs ← commas do
    let (path, last) ← key
    char '='
    gap
    let item ← value
    gap
    return (path, last, item)
  gap
  char '}'
  match pairs.foldlM (fun (t : Table) (path, last, item) => t.insert path last item) [] with
  | some t => return t.toJson
  | none => fail

/-- A value whose arrays and inline tables nest at most so deep. -/
def value : (depth : Nat) → Reader Json
  | 0 => (do return .str (← quotedText)) <|> scalar
  | depth + 1 =>
    (do return .str (← quotedText)) <|> array (value depth) <|> inlineTable (value depth) <|> scalar

/-- A line that says something. -/
inductive Statement where
  | header (path : List String) (key : String)
  | itemHeader (path : List String) (key : String)
  | assign (path : List String) (key : String) (value : Json)

/-- Comment and break at the end of a line. -/
def lineEnd : Reader Unit := do
  gap
  let _ ← maybe comment
  newline <|> atEnd

def header : Reader Statement := do
  char '['
  if (← peek?) == some '[' then
    char '['
    let (path, last) ← key
    chars [']', ']']
    return .itemHeader path last
  else
    let (path, last) ← key
    char ']'
    return .header path last

def assignment : Reader Statement := do
  let (path, last) ← key
  char '='
  gap
  return .assign path last (← value maxDepth)

/-- One line, blank ones and comments aside. -/
def statement : Reader Statement := do
  let _ ← many (do gap; let _ ← maybe comment; newline)
  gap
  let s ← header <|> assignment
  lineEnd
  return s

/-- All statements. Behind the last one may stand blanks and a comment. -/
def statements : Reader (List Statement) := do
  let _ ← maybe (char '\ufeff')
  let all ← many statement
  let _ ← many (do gap; let _ ← maybe comment; newline)
  gap
  let _ ← maybe comment
  return all

/-- The tables built so far, and the header that the next keys stand under. -/
structure Draft where
  root : Table := []
  current : List String := []

def Draft.add (d : Draft) : Statement → Option Draft
  | .header path key => (d.root.openTable path key).map fun root => ⟨root, path ++ [key]⟩
  | .itemHeader path key => (d.root.openItem path key).map fun root => ⟨root, path ++ [key]⟩
  | .assign path key value =>
    (d.root.insertAt d.current path key value).map fun root => { d with root }

/-- The tree that a text describes. -/
def read? (text : String) : Option Json := do
  let all ← readAll? statements text.toList
  let d ← all.foldlM Draft.add {}
  return d.root.toJson

end Admission.Toml
