import Admission.Machine
import Std.Time.DateTime.Timestamp

/-!
# The real machine

Files, environment, clocks, chance and lines of the process that the program runs in.
-/

namespace Admission.Terminal

def faultOf : IO.Error → FileFault
  | .noFileOrDirectory .. => .notFound
  | .alreadyExists .. => .alreadyExists
  | .inappropriateType _ 21 _ => .isDirectory
  | .inappropriateType .. => .notDirectory
  | .resourceBusy .. => .busy
  | .invalidArgument _ 22 _ => .zeroInName
  | .invalidArgument .. => .nameTooLong
  | error => .other (toString error)

def attempt {α : Type} (action : IO α) : IO (Except FileFault α) := do
  try return .ok (← action)
  catch error => return .error (faultOf error)

/-- Something that cannot be opened may still be there. -/
def hasPath (path : String) : IO Bool := do
  match ← attempt (IO.FS.Handle.mk path .read) with
  | .error .notFound | .error .notDirectory | .error .nameTooLong | .error .zeroInName => return false
  | _ => return true

def readText (path : String) : IO (Except FileFault String) := do
  match ← attempt (IO.FS.readBinFile path) with
  | .error fault => return .error fault
  | .ok bytes =>
    match String.fromUTF8? bytes with
    | some text => return .ok text
    | none => return .error .notText

/-- The rights are set before anything is written. -/
def writePrivate (path content : String) : IO Unit := do
  IO.FS.writeFile path ""
  IO.setAccessRights path { user := { read := true, write := true } }
  IO.FS.writeFile path content

def now : IO Timestamp := do
  let elapsed := (← Std.Time.Timestamp.now).toNanosecondsSinceUnixEpoch.val
  return ⟨elapsed.fdiv 1000000000, (elapsed.fmod 1000000000).toNat⟩

/-- A number of so many random bytes. -/
def random (bytes : USize) : IO Nat := do
  return (← IO.getRandomBytes bytes).foldl (fun n b => 256 * n + b.toNat) 0

/-- The bytes up to the next line break, and whether there is one. -/
partial def readLine (input : IO.FS.Stream) (line : ByteArray) : IO (ByteArray × Bool) := do
  let bytes ← input.read 1
  match bytes.toList with
  | [] => return (line, false)
  | byte :: _ => if byte == 10 then return (line, true) else readLine input (line.push byte)

def lineOf (bytes : ByteArray) : Line :=
  match String.fromUTF8? bytes with
  | some text =>
    match text.toList.reverse with
    | '\r' :: rest => .text (String.ofList rest.reverse)
    | _ => .text text
  | none => .unreadable

partial def eachLine {σ : Type} (input : IO.FS.Stream) (state : σ)
    (step : Line → σ → IO (Bool × σ)) : IO σ := do
  let (bytes, hasBreak) ← readLine input .empty
  if bytes.isEmpty && !hasBreak then return state
  let (more, state) ← step (lineOf bytes) state
  if more && hasBreak then eachLine input state step else return state

def printLine (line : String) : IO Unit := do
  let output ← IO.getStdout
  output.putStrLn line
  output.flush

instance : Machine IO where
  hasPath := hasPath
  readText := readText
  createDirs path := attempt (unless path == "" do IO.FS.createDirAll path)
  writeText path content := attempt (IO.FS.writeFile path content)
  writePrivate path content := attempt (writePrivate path content)
  rename path target := attempt (IO.FS.rename path target)
  env? name := IO.getEnv name
  now := now
  instant := IO.monoNanosNow
  freshId := do return .ofRandom (BitVec.ofNat 128 (← random 16))
  dice := random 8
  printLine := printLine
  eachLine state step := do eachLine (← IO.getStdin) state step

end Admission.Terminal
