import Admission.CommandLine.Flag

/-!
# Going through the words

The words of a command line are taken one by one. A flag's value is the rest of its word behind `=` or
the next word, which then must not look like a flag. Behind `--` nothing is a flag.
-/

namespace Admission.CommandLine

structure Given where
  context : Context
  switches : List String := []
  /-- Flags with their values, the last one first. -/
  values : List (String × String) := []
  operands : List String := []

/-- Why the words are not gone through to the end. -/
inductive Halt where
  | fault
  | version
  | help (topic : Topic)
  deriving DecidableEq, Repr

structure Scan where
  /-- The commands that this one stands under, the innermost first. -/
  outer : List Given := []
  given : Given := { context := .top }
  /-- The flag that waits for its value. -/
  pending : Option Flag := none
  /-- No flags any more. -/
  literal : Bool := false
  /-- What help is wanted for. -/
  helping : Option Topic := none

namespace Scan

/-- A word that cannot be a value. -/
def looksLikeFlag (word : String) : Bool := word.toList.head? == some '-' && word != "-"

def flag? (s : Scan) (name : String) : Option Flag :=
  s.given.context.flags.find? fun f => f.name == name

def flagOfLetter? (s : Scan) (letter : Char) : Option Flag :=
  s.given.context.flags.find? fun f => f.letter == some letter

/-- Set a switch, but not twice. -/
def setSwitch (s : Scan) (f : Flag) : Except Halt Scan :=
  if s.given.switches.contains f.name then .error .fault
  else .ok { s with given := { s.given with switches := f.name :: s.given.switches } }

def give (s : Scan) (f : Flag) (value : String) : Except Halt Scan :=
  let known := s.given.values.any fun v => v.1 == f.name
  if (known && !f.isRepeatable) || !(f.kind.all fun kind => kind.accepts value) then .error .fault
  else
    .ok { s with
      pending := none
      given := { s.given with values := (f.name, value) :: s.given.values } }

/-- A flag by its name, perhaps with its value in the same word. -/
def takeNamed (s : Scan) (body : List Char) : Except Halt Scan :=
  let name := String.ofList (body.takeWhile (· != '='))
  let attached := (body.dropWhile (· != '=')).tail?.map String.ofList
  match name, attached, s.flag? name with
  | _, none, some f => if f.kind.isSome then .ok { s with pending := some f } else s.setSwitch f
  | _, some value, some f => if f.kind.isSome then s.give f value else .error .fault
  | "help", none, none => .error (.help (.command s.given.context))
  | "version", none, none =>
    if s.given.context = .top then .error .version else .error .fault
  | _, _, none => .error .fault

/-- Switches by their letters, several of them in one word. -/
def takeLetters (s : Scan) : List Char → Except Halt Scan
  | [] => .ok s
  | c :: rest =>
    match s.flagOfLetter? c with
    | some f =>
      match s.setSwitch f with
      | .ok s => takeLetters s rest
      | .error halt => .error halt
    | none =>
      if c == 'h' then .error (.help (.command s.given.context))
      else if c == 'V' && s.given.context = .top then .error .version
      else .error .fault

/-- A word that is no flag: the name of a command or an operand. -/
def takeWord (s : Scan) (word : String) : Except Halt Scan :=
  let context := s.given.context
  match if s.literal then none else context.commands.lookup word with
  | some inner => .ok { s with outer := s.given :: s.outer, given := { context := inner } }
  | none =>
    if !s.literal && !context.commands.isEmpty && word == "help" then
      .ok { s with helping := some (.command context) }
    else if s.given.operands.length < context.operands then
      .ok { s with given := { s.given with operands := s.given.operands ++ [word] } }
    else .error .fault

/-- Behind `help` stand the names of commands, each among those of the one before it. -/
def takeTopic (s : Scan) (topic : Topic) (word : String) : Except Halt Scan :=
  match topic with
  | .help _ => .error .fault
  | .command c =>
    match c.commands.lookup word with
    | some inner => .ok { s with helping := some (.command inner) }
    | none =>
      if !c.commands.isEmpty && word == "help" then .ok { s with helping := some (.help c) }
      else .error .fault

def take (s : Scan) (word : String) : Except Halt Scan :=
  match s.helping, s.pending with
  | some topic, _ => s.takeTopic topic word
  | none, some f => if looksLikeFlag word then .error .fault else s.give f word
  | none, none =>
    if s.literal then s.takeWord word
    else match word.toList with
      | ['-', '-'] => .ok { s with literal := true }
      | '-' :: '-' :: body => s.takeNamed body
      | '-' :: c :: letters => s.takeLetters (c :: letters)
      | _ => s.takeWord word

def isComplete (g : Given) : Bool :=
  g.operands.length == g.context.operands &&
    g.context.flags.all fun f => !f.isRequired || g.values.any fun v => v.1 == f.name

/-- What was given at each level, the innermost first. -/
def finish (s : Scan) : Except Halt (List Given) :=
  match s.helping, s.pending with
  | some topic, _ => .error (.help topic)
  | none, some _ => .error .fault
  | none, none =>
    if s.given.context.commands.isEmpty && isComplete s.given then .ok (s.given :: s.outer)
    else .error .fault

def words (all : List String) : Except Halt (List Given) := do
  let s ← all.foldlM take {}
  s.finish

end Scan

end Admission.CommandLine
