/-!
# Readers of text

A reader takes a value from the front of a text or fails. Of two readers the second one is tried
from the same place when the first one fails.
-/

namespace Admission.Text

abbrev Reader := StateT (List Char) Option

namespace Reader

variable {α : Type}

def fail : Reader α := fun _ => none

/-- The next character, which stays where it is. -/
def peek? : Reader (Option Char) := fun cs => some (cs.head?, cs)

/-- A character of the class. -/
def one (isOk : Char → Bool) : Reader Char
  | c :: rest => if isOk c then some (c, rest) else none
  | [] => none

def char (c : Char) : Reader Unit := fun cs => (one (· == c) cs).map fun r => ((), r.2)

def chars : List Char → Reader Unit
  | [] => pure ()
  | c :: rest => do char c; chars rest

/-- All characters of the class up to the next other one. -/
def run (isOk : Char → Bool) : Reader (List Char) :=
  fun cs => some (cs.takeWhile isOk, cs.dropWhile isOk)

/-- At least one character of the class. -/
def runSome (isOk : Char → Bool) : Reader (List Char) := fun cs =>
  match cs.takeWhile isOk with
  | [] => none
  | taken => some (taken, cs.dropWhile isOk)

def maybe (r : Reader α) : Reader (Option α) := fun cs =>
  match r cs with
  | some (a, rest) => some (some a, rest)
  | none => some (none, cs)

/-- At most `steps` times, as long as `r` succeeds. -/
def atMost (r : Reader α) : (steps : Nat) → Reader (List α)
  | 0 => pure []
  | steps + 1 => do
    match ← maybe r with
    | some a => return a :: (← atMost r steps)
    | none => return []

/-- As often as `r` succeeds. A reader that takes at least one character succeeds no more often than
there are characters. -/
def many (r : Reader α) : Reader (List α) := fun cs => atMost r cs.length cs

/-- One or more, with `separator` between them. A separator that nothing follows stays. -/
def separated (separator : Reader Unit) (r : Reader α) : Reader (List α) := do
  let first ← r
  return first :: (← many do separator; r)

/-- Nothing is left. -/
def atEnd : Reader Unit := fun cs => if cs.isEmpty then some ((), cs) else none

/-- The value of a whole text. -/
def readAll? (r : Reader α) (cs : List Char) : Option α := do
  let (a, rest) ← r cs
  if rest.isEmpty then some a else none

end Reader

end Admission.Text
