import Admission.Config.Load
import Admission.Controller
import Admission.Ledger.Store
import Admission.Toml.Printer

/-!
# A service in use

A configuration, the controller made from it, and the store from which the controller's ledger was
taken. Without persistence there is no store.
-/

namespace Admission

structure Places where
  config : Option String := none
  workspace : Option String := none
  deriving DecidableEq, Repr

inductive Failure where
  | config (error : ConfigError)
  /-- The configuration that is to be shown cannot be loaded. -/
  | nothingToShow (error : ConfigError)
  | refused (refusal : Refusal Double)
  | ledger (error : LedgerError)
  | unwritable (error : Toml.Unwritable)
  | file (fault : FileFault)

def Failure.message : Failure → String
  | config error => error.message
  | nothingToShow error => "Failed to load config: " ++ error.message
  | refused refusal => refusal.message
  | ledger error => error.message
  | unwritable error => error.message
  | file fault => fault.message

/-- Work on a machine that may fail. -/
abbrev Work (m : Type → Type) := ExceptT Failure m

namespace Work

variable {m : Type → Type} [Monad m]

/-- Work that fails in its own way. -/
def ofExcept {ε β : Type} (toFailure : ε → Failure) (work : m (Except ε β)) : Work m β :=
  ExceptT.mk ((·.mapError toFailure) <$> work)

def perform {β : Type} (action : m β) : Work m β := ExceptT.lift action

def print [Machine m] (line : String) : Work m Unit := perform (Machine.printLine line)

end Work

/-- Which of so many shards a key belongs to is decided by this number. -/
def keyNumber (key : String) : Nat := key.toList.foldl (fun n c => (31 * n + c.toNat) % 1000003) 7

namespace Places

variable {m : Type → Type} [Monad m] [Machine m]

/-- A file that is named is taken as it is; the environment has its say only where none is. -/
def load (p : Places) : m (Except ConfigError (Config Double)) :=
  match p.config with
  | some path => Config.loadFrom path
  | none => Config.load

def workspacePath (p : Places) : String := p.workspace.getD Config.workspacePath

end Places

structure Service (m : Type → Type) where
  config : Config Double
  controller : Controller Double
  store : Option (Store m)
  ledgerPath : String

namespace Service

variable {m : Type → Type} [Monad m] [Machine m]

/-- Load everything. A stored ledger is taken in before the first request. -/
def start (p : Places) : Work m (Service m) := do
  let config ← Work.ofExcept .config p.load
  let workspace ← Work.ofExcept .config (config.loadWorkspace p.workspacePath)
  let controller : Controller Double := .ofConfig keyNumber config workspace
  let ledgerPath ← Work.perform config.ledgerPath
  if config.budgets.persist then
    let store : Store m := .file ledgerPath
    let (restored, ledger) ← Work.perform (controller.desk.ledger.restore store)
    let _ ← Work.ofExcept .ledger (pure restored)
    return { config, controller := controller.setLedger ledger, store := some store, ledgerPath }
  else return { config, controller, store := none, ledgerPath }

/-- Save what is not saved yet; the answer is whether there is a store. -/
def save (s : Service m) : Work m Bool := do
  match s.store with
  | none => return false
  | some store =>
    let (saved, _) ← Work.perform (s.controller.desk.ledger.flush store)
    let _ ← Work.ofExcept .ledger (pure saved)
    return true

end Service

end Admission
