import Admission.Command
import Admission.CommandLine.Help
import Admission.CommandLine.Scan

/-!
# The command line

From the words of a command line to a command and the files that it uses.
-/

namespace Admission.CommandLine

/-- The innermost value of a flag that every command knows. -/
def globalValue? (levels : List Given) (name : String) : Option String :=
  levels.findSome? fun g => g.values.lookup name

/-- The configuration that the environment names counts where a level names none; an empty name is
a fault. -/
def configOf (env : Option String) (levels : List Given) : Except Halt (Option String) :=
  let given := globalValue? levels "config"
  match env with
  | none => .ok given
  | some path =>
    if path == "" && levels.any (fun g => (g.values.lookup "config").isNone) then .error .fault
    else .ok (given.or (some path))

namespace Given

def text? (g : Given) (name : String) : Option String := g.values.lookup name

def count? (g : Given) (name : String) : Option Nat := (g.text? name).bind countOfText?

def isOn (g : Given) (name : String) : Bool := g.switches.contains name

def caller (g : Given) : Identity :=
  ⟨(g.text? "caller").getD "", (g.text? "channel").getD defaultChannel, g.isOn "trusted"⟩

def query (g : Given) : Query :=
  { identity := g.caller
    complexity := ((g.text? "complexity").bind Decimal.floatOfText?).getD 0
    inputTokens := (g.count? "input-tokens").getD Message.defaultInputTokens
    maxOutput := g.count? "max-output"
    model := g.text? "model"
    settleOutput := g.count? "settle-output" }

def command? (g : Given) : Option Command :=
  match g.context with
  | .route => some (.route g.query)
  | .caps => some (.caps g.caller)
  | .tool => some (.tool g.caller (g.operands.head?.getD ""))
  | .usage => some (.usage (g.text? "caller") ((g.text? "channel").getD defaultChannel))
  | .serve => some (.serve ((g.values.filter fun v => v.1 == "trust").reverse.map (·.2)))
  | .validate => some .validate
  | .show => some .show
  | .init => some (.init (g.isOn "force"))
  | .top | .config => none

end Given

def read (configEnv : Option String) (words : List String) : Except Halt (Places × Command) := do
  let levels ← Scan.words words
  let config ← configOf configEnv levels
  match levels.head?.bind Given.command? with
  | some command => return (⟨config, globalValue? levels "workspace"⟩, command)
  | none => .error .fault

def versionText : String := "tollgate 0.1.0"

variable {m : Type → Type} [Monad m] [Machine m]

/-- Do what the words ask for. The answer is the exit code, and what is wrong if it is not zero. -/
def main (words : List String) : m (Nat × Option String) := do
  let configEnv ← Machine.env? configVariable
  match read configEnv words with
  | .error .fault => return (2, some "error: unusable arguments\n\nFor more information, try '--help'.")
  | .error .version =>
    Machine.printLine versionText
    return (0, none)
  | .error (.help topic) =>
    (helpLines configEnv topic).forM Machine.printLine
    return (0, none)
  | .ok (places, command) =>
    match ← (Command.run places command).run with
    | .ok () => return (0, none)
    | .error failure => return (1, some ("Error: " ++ failure.message))

end Admission.CommandLine
