import Admission.Machine
import Admission.Path
import Admission.Text.Pieces

/-!
# A machine in a value

A machine whose files, environment, clocks and lines are parts of one value. On it the program is a
function, and any single action on files can be made to fail.
-/

namespace Admission

inductive Node where
  | directory
  | file (content : String) (isPrivate : Bool)
  /-- A file whose bytes are no text. -/
  | binary
  deriving DecidableEq

inductive FileAction where
  | createDirs (path : String)
  | write (path : String)
  | rename (path target : String)
  deriving DecidableEq

structure Sandbox where
  /-- By the normal spelling of the path. -/
  nodes : Dict Node := ∅
  env : Dict String := ∅
  clock : Timestamp := ⟨0, 0⟩
  instant : Nat := 0
  /-- Time that passes from one look at a clock to the next. -/
  tickNanos : Nat := 1000
  ids : Nat := 0
  dice : Nat := 0
  input : List Line := []
  /-- Printed lines, the last one first. -/
  printed : List String := []
  /-- Actions that fail, whatever lies at their paths. -/
  failing : List FileAction := []

namespace Sandbox

/-- The directories above the one that one is in are always there. -/
def node? (s : Sandbox) (path : String) : Option Node :=
  let path := Path.normal path
  if (Path.parts path).all (· == "..") then some .directory else s.nodes.get? path

def put (s : Sandbox) (path : String) (node : Node) : Sandbox :=
  { s with nodes := s.nodes.insert (Path.normal path) node }

/-- A node together with the directories that lead to it. -/
def putWithParents (s : Sandbox) (path : String) (node : Node) : Sandbox :=
  let s := (Path.prefixes path).dropLast.foldl (fun s directory => s.put directory .directory) s
  s.put path node

/-- The paths of all files below the directory that one is in, sorted. -/
def files (s : Sandbox) : List String :=
  let all := (s.nodes.toList.filter fun entry => entry.2 != .directory).map (·.1)
  all.filter fun path => (Path.parts path).head? != some ".."

def remove (s : Sandbox) (path : String) : Sandbox :=
  { s with nodes := .ofList (s.nodes.toList.filter fun entry => entry.1 != Path.normal path) }

/-! ## Finding the way -/

/-- The greatest length of a name, in bytes. -/
def longestName : Nat := 255

/-- A path is shorter than this many bytes. -/
def pathLimit : Nat := 4096

/-- What is wrong with a path, wherever it leads. -/
def spellingFault? (path : String) : Option FileFault :=
  if path.toList.contains '\x00' then some .zeroInName
  else if path == "" then some .notFound
  else if pathLimit ≤ path.utf8ByteSize then some .nameTooLong
  else none

/-- What lies under the last name of a path whose directories are there. -/
def entry? (s : Sandbox) (path : String) : Except FileFault (Option Node) :=
  if (Path.steps path).getLast?.any fun name => longestName < name.utf8ByteSize then
    .error .nameTooLong
  else .ok (s.node? path)

def enter (s : Sandbox) (path : String) : Except FileFault Unit := do
  match ← s.entry? path with
  | some .directory => return
  | some _ => throw .notDirectory
  | none => throw .notFound

/-- Go through all directories that lead to the last name of the path. -/
def approach (s : Sandbox) (path : String) : Except FileFault Unit :=
  match spellingFault? path with
  | some fault => .error fault
  | none => (Path.prefixes path).dropLast.forM s.enter

/-- What lies at the path. Behind a slash there are only directories. -/
def look (s : Sandbox) (path : String) : Except FileFault (Option Node) := do
  s.approach path
  match ← s.entry? path with
  | some .directory => return some .directory
  | some node => if Path.endsInSlash path then throw .notDirectory else return some node
  | none => return none

def hasPath (s : Sandbox) (path : String) : Bool :=
  match s.look path with
  | .ok (some _) => true
  | _ => false

/-! ## Actions -/

def readText (s : Sandbox) (path : String) : Except FileFault String := do
  match ← s.look path with
  | some (.file content _) => return content
  | some .binary => throw .notText
  | some .directory => throw .isDirectory
  | none => throw .notFound

/-- Make one directory after the other. A file in the way is a fault: one that says so, unless it
stands behind a directory that was there before. -/
def makeAll (s : Sandbox) (made : Bool) : List String → Except FileFault Unit × Sandbox
  | [] => (.ok (), s)
  | directory :: rest =>
    match s.entry? directory with
    | .error fault => (.error fault, s)
    | .ok (some .directory) => makeAll s made rest
    | .ok (some _) => (.error (if made || rest.isEmpty then .alreadyExists else .notDirectory), s)
    | .ok none => makeAll (s.put directory .directory) true rest

/-- Directories that are made before a fault is met stay. -/
def createDirs (s : Sandbox) (path : String) : Except FileFault Unit × Sandbox :=
  match if path == "" then none else spellingFault? path with
  | some fault => (.error fault, s)
  | none => s.makeAll false (Path.prefixes path)

/-- A file that is overwritten keeps what it was, unless it is made private. No file is made under a
name that ends in a slash. -/
def write (s : Sandbox) (path content : String) (isPrivate : Bool) : Except FileFault Sandbox := do
  s.approach path
  if Path.endsInSlash path then throw .isDirectory
  match ← s.entry? path with
  | some .directory => throw .isDirectory
  | some (.file _ before) => return s.put path (.file content (isPrivate || before))
  | _ => return s.put path (.file content isPrivate)

/-- A file takes the place of another one. -/
def rename (s : Sandbox) (path target : String) : Except FileFault Sandbox := do
  match ← s.look path with
  | none => throw .notFound
  | some .directory => throw .isDirectory
  | some node =>
    s.approach target
    if (Path.steps target).getLast?.all fun name => name == "." || name == ".." then throw .busy
    if Path.endsInSlash target then throw .notDirectory
    match ← s.entry? target with
    | some .directory => throw .isDirectory
    | _ => return (s.remove path).put target node

end Sandbox

def linesOf (text : String) : List Line :=
  (Text.lines text).map fun line =>
    match line.toList.reverse with
    | '\r' :: rest => .text (String.ofList rest.reverse)
    | _ => .text line

abbrev SandboxM := StateM Sandbox

namespace SandboxM

/-- Do something to files, unless it is one of the actions that fail. -/
def attempt (action : FileAction) (f : Sandbox → Except FileFault Unit × Sandbox) :
    SandboxM (Except FileFault Unit) := fun s =>
  if s.failing.contains action then (.error (.other "injected"), s) else f s

/-- An action that is done as a whole or not at all. -/
def whole (f : Sandbox → Except FileFault Sandbox) (s : Sandbox) : Except FileFault Unit × Sandbox :=
  match f s with
  | .ok s => (.ok (), s)
  | .error fault => (.error fault, s)

def tick (s : Sandbox) : Sandbox :=
  let nanos := s.clock.nanos + s.tickNanos
  { s with
    clock := ⟨s.clock.seconds + (nanos / 1000000000 : Nat), nanos % 1000000000⟩
    instant := s.instant + s.tickNanos }

/-- Feed lines to a step until it says to stop. -/
def feed {σ : Type} (step : Line → σ → SandboxM (Bool × σ)) : List Line → σ → SandboxM σ
  | [], state => pure state
  | line :: rest, state => do
    let (more, state) ← step line state
    if more then feed step rest state else pure state

instance : Machine SandboxM where
  hasPath path := fun s => (s.hasPath path, s)
  readText path := fun s => (s.readText path, s)
  createDirs path := attempt (.createDirs path) fun s => s.createDirs path
  writeText path content := attempt (.write path) (whole fun s => s.write path content false)
  writePrivate path content := attempt (.write path) (whole fun s => s.write path content true)
  rename path target := attempt (.rename path target) (whole fun s => s.rename path target)
  env? name := fun s => (s.env.get? name, s)
  now := fun s => (s.clock, tick s)
  instant := fun s => (s.instant, tick s)
  freshId := fun s => (.ofRandom (BitVec.ofNat 128 s.ids), { s with ids := s.ids + 1 })
  dice := fun s => (s.dice, { s with dice := s.dice * 6364136223846793005 % Nat.pow 2 64 + 1442695 })
  printLine text := fun s => ((), { s with printed := text :: s.printed })
  eachLine state step := fun s => feed step s.input state { s with input := [] }

end SandboxM

end Admission
