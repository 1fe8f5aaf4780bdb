import Admission.Config.Codec
import Admission.Config.Validate
import Admission.Machine
import Admission.Path
import Admission.Toml.Document

/-!
# Loading configuration

Where the files of the configuration lie and how they are read. A file that is not there stands for
the defaults. Variables of the environment go over a file that was not named on the command line.
-/

namespace Admission

inductive ConfigError where
  | unreadable (path : String) (fault : FileFault)
  /-- The text is no TOML, or a setting has a value of the wrong kind. -/
  | malformed (path : String)
  | invalid (fault : Invalid)
  deriving DecidableEq, Repr

/-- What is said of a text that is no configuration. -/
def ConfigError.malformedText : String := "the text is no configuration"

def ConfigError.message : ConfigError → String
  | unreadable path fault => "Failed to read config file at " ++ path ++ ": " ++ fault.message
  | malformed path => "Failed to parse config file at " ++ path ++ ": " ++ malformedText
  | invalid fault => "Configuration validation failed: " ++ fault.message

namespace Config

/-- The file of a workspace, seen from the directory that one is in. -/
def workspacePath : String := ".tollgate/workspace.toml"

structure Overrides where
  resetHour : Option String
  ledgerPath : Option String

def Overrides.apply {α : Type} (o : Overrides) (c : Config α) : Except Invalid (Config α) := do
  let hour ← match o.resetHour with
    | none => .ok c.budgets.resetHour
    | some text =>
      match Decimal.natOfText? 8 text with
      | some hour => .ok hour
      | none => .error (.notAnHour text)
  return { c with budgets := { c.budgets with
    resetHour := hour, ledgerPath := o.ledgerPath.or c.budgets.ledgerPath } }

/-- The configuration, if it is valid. -/
def checked {α : Type} [Amount α] (c : Config α) : Except ConfigError (Config α) :=
  (c.validate.mapError .invalid).map fun () => c

variable {m : Type → Type} [Monad m] [Machine m]

def directory : m String := do
  return Path.join ((← Machine.env? "HOME").getD "/tmp") ".tollgate"

def defaultPath : m String := do return Path.join (← directory) "config.toml"

def ledgerPath {α : Type} (c : Config α) : m String := do
  match c.budgets.ledgerPath with
  | some path => return path
  | none => return Path.join (← directory) "ledger.json"

def overrides : m Overrides := do
  return ⟨← Machine.env? "TOLLGATE_RESET_HOUR", ← Machine.env? "TOLLGATE_LEDGER_PATH"⟩

/-- What a file of settings says, if it is there. -/
def readFile {β : Type} (decode : Decode β) (path : String) : m (Except ConfigError (Option β)) := do
  if ← Machine.hasPath path then
    match ← Machine.readText path with
    | .error fault => return .error (.unreadable path fault)
    | .ok text =>
      match (Toml.read? text).bind fun j => (decode .toml j).toOption with
      | some value => return .ok (some value)
      | none => return .error (.malformed path)
  else return .ok none

/-- The configuration of one file. -/
def loadFrom (path : String) : m (Except ConfigError (Config Double)) := do
  match ← readFile Config.ofJson path with
  | .error e => return .error e
  | .ok none => return .ok .default
  | .ok (some c) => return c.checked

/-- The configuration of the file that the environment names, or of the default one, under the
overrides. -/
def load : m (Except ConfigError (Config Double)) := do
  let path ← match ← Machine.env? "TOLLGATE_CONFIG" with
    | some path => pure path
    | none => defaultPath
  match ← loadFrom path with
  | .error e => return .error e
  | .ok c =>
    let o ← overrides
    return ((o.apply c).mapError .invalid).bind checked

/-- The permissions of a workspace. Their tiers are those of the configuration. -/
def loadWorkspace (c : Config Double) (path : String) :
    m (Except ConfigError (Option (Permissions Double))) := do
  match ← readFile Permissions.ofWorkspaceJson path with
  | .error e => return .error e
  | .ok none => return .ok none
  | .ok (some p) => return ((checkLayer c.routing.tierSet p).mapError .invalid).map fun () => some p

end Config

end Admission
