import Admission.Json.Printer
import Admission.Json.Reader
import Admission.Ledger.Snapshot
import Admission.Machine
import Admission.Path

/-!
# Stores for the ledger

Where snapshots are kept. A file is replaced in one step: the text is written beside it first, and
then takes its name.
-/

namespace Admission

/-- A home for snapshots. Before the first save there is nothing to load. -/
structure Store (m : Type → Type) where
  load : m (Except LedgerError (Option (Snapshot Double)))
  save : Snapshot Double → m (Except LedgerError Unit)

namespace Snapshot

def text (s : Snapshot Double) : String := s.toJson.pretty

def ofText? (text : String) : Option (Snapshot Double) :=
  (Json.read? text).bind fun j => (ofJson .json j).toOption

end Snapshot

namespace Store

variable {m : Type → Type} [Monad m]

def ofFault {β : Type} (result : Except FileFault β) : Except LedgerError β :=
  result.mapError fun fault => .io fault.message

/-- One step after another, as long as none fails. -/
def andThen {β : Type} (first : m (Except FileFault Unit)) (next : m (Except FileFault β)) :
    m (Except FileFault β) := do
  match ← first with
  | .ok () => next
  | .error fault => return .error fault

variable [Machine m]

def loadFile (path : String) : m (Except LedgerError (Option (Snapshot Double))) := do
  if ← Machine.hasPath path then
    match ← Machine.readText path with
    | .error fault => return .error (.io fault.message)
    | .ok text =>
      match Snapshot.ofText? text with
      | some s => return .ok (some s)
      | none => return .error .serialization
  else return .ok none

/-- The name under which the new text waits. -/
def temporary (path : String) : String := Path.withEnding path "json.tmp"

/-- Make the directory of the file, if the path names one. -/
def createParent (path : String) : m (Except FileFault Unit) :=
  match Path.parent? path with
  | some directory => Machine.createDirs directory
  | none => pure (.ok ())

def saveFile (path : String) (s : Snapshot Double) : m (Except LedgerError Unit) :=
  ofFault <$> andThen (createParent path)
    (andThen (Machine.writePrivate (temporary path) s.text)
      (Machine.rename (temporary path) path))

/-- A file that holds the last snapshot. -/
def file (path : String) : Store m := ⟨loadFile path, saveFile path⟩

end Store

/-- A snapshot kept in memory and the number of saves. -/
structure MemoryStore where
  saved : Option (Snapshot Double) := none
  saves : Nat := 0

/-- A store in a part of the state. -/
def Store.memory {m : Type → Type} [Monad m] [MonadStateOf MemoryStore m] : Store m where
  load := return .ok (← getThe MemoryStore).saved
  save s := do
    modifyThe MemoryStore fun store => ⟨some s, store.saves + 1⟩
    return .ok ()

namespace Ledger

variable {m : Type → Type} [Monad m]

/-- Take in the stored snapshot; the answer is whether there is one. -/
def restore (store : Store m) (l : Ledger Double) : m (Except LedgerError Bool × Ledger Double) := do
  match ← store.load with
  | .error e => return (.error e, l)
  | .ok none => return (.ok false, l)
  | .ok (some s) =>
    match l.merge s with
    | .ok l => return (.ok true, l)
    | .error e => return (.error e, l)

/-- Save if there are unsaved changes; the answer is whether it was done. After a failure the changes
still count as unsaved. -/
def flush [Machine m] (store : Store m) (l : Ledger Double) :
    m (Except LedgerError Bool × Ledger Double) := do
  let (dirty, l) := l.takeDirty
  if dirty then
    match ← store.save (l.snapshot (← Machine.now)) with
    | .ok () => return (.ok true, l)
    | .error e => return (.error e, l.markDirty)
  else return (.ok false, l)

end Ledger

end Admission
