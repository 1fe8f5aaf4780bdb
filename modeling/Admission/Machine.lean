import Admission.ReservationId
import Admission.Timestamp

/-!
# The machine underneath

What the program needs from the machine that it runs on: files, the environment, clocks, chance, and
lines in and out. The rules are written against this interface.
-/

namespace Admission

inductive FileFault where
  | notFound
  | isDirectory
  | notDirectory
  | alreadyExists
  | nameTooLong
  | busy
  /-- The name has a character of value zero in it. -/
  | zeroInName
  /-- What was read is no text. -/
  | notText
  | other (reason : String)
  deriving DecidableEq, Repr

def FileFault.message : FileFault → String
  | notFound => "No such file or directory (os error 2)"
  | isDirectory => "Is a directory (os error 21)"
  | notDirectory => "Not a directory (os error 20)"
  | alreadyExists => "File exists (os error 17)"
  | nameTooLong => "File name too long (os error 36)"
  | busy => "Device or resource busy (os error 16)"
  | zeroInName => "file name contained an unexpected NUL byte"
  | notText => "stream did not contain valid UTF-8"
  | other reason => reason

inductive Line where
  | text (content : String)
  /-- Bytes that are no text. -/
  | unreadable

class Machine (m : Type → Type) where
  /-- There is something at the path. -/
  hasPath : String → m Bool
  readText : String → m (Except FileFault String)
  /-- Make the directory and those that it lies in. -/
  createDirs : String → m (Except FileFault Unit)
  writeText : (path content : String) → m (Except FileFault Unit)
  /-- Write a file that only its owner can read. -/
  writePrivate : (path content : String) → m (Except FileFault Unit)
  /-- Put a file in the place of another one in a single step. -/
  rename : (path target : String) → m (Except FileFault Unit)
  /-- A variable of the environment. -/
  env? : String → m (Option String)
  now : m Timestamp
  /-- Nanoseconds of a clock that never goes back. -/
  instant : m Nat
  freshId : m ReservationId
  /-- A random number. -/
  dice : m Nat
  printLine : String → m Unit
  /-- Go through the input line by line, until it ends or the step says so. -/
  eachLine : {σ : Type} → σ → (Line → σ → m (Bool × σ)) → m σ

/-- The same machine under a further state. -/
instance {σ : Type} {m : Type → Type} [Monad m] [Machine m] : Machine (StateT σ m) where
  hasPath path := StateT.lift (Machine.hasPath path)
  readText path := StateT.lift (Machine.readText path)
  createDirs path := StateT.lift (Machine.createDirs path)
  writeText path content := StateT.lift (Machine.writeText path content)
  writePrivate path content := StateT.lift (Machine.writePrivate path content)
  rename path target := StateT.lift (Machine.rename path target)
  env? name := StateT.lift (Machine.env? name)
  now := StateT.lift Machine.now
  instant := StateT.lift Machine.instant
  freshId := StateT.lift Machine.freshId
  dice := StateT.lift Machine.dice
  printLine text := StateT.lift (Machine.printLine text)
  eachLine start step := fun state =>
    Machine.eachLine (start, state) fun line (value, state) => do
      let ((more, value), state) ← (step line value).run state
      return (more, value, state)

end Admission
