import Admission.Server.Message

/-!
# Flags

The commands of the program and the flags that each of them knows.
-/

namespace Admission.CommandLine

/-- Where on the command line one is: behind the name of the program or of a command. -/
inductive Context where
  | top
  | route
  | caps
  | tool
  | usage
  | serve
  | config
  | validate
  | show
  | init
  deriving DecidableEq, Repr

inductive Topic where
  | command (command : Context)
  /-- The command `help` beside the commands of another one. -/
  | help (beside : Context)
  deriving DecidableEq, Repr

inductive ValueKind where
  | text
  | path
  | number
  /-- A whole number of 32 bits. -/
  | count
  deriving DecidableEq, Repr

/-- A count as it is written. Zero may have either sign. -/
def countOfText? (text : String) : Option Nat :=
  (Decimal.intOfChars? text.toList).bind fun n => if 0 ≤ n ∧ n < Nat.pow 2 32 then some n.toNat else none

def ValueKind.accepts (kind : ValueKind) (value : String) : Bool :=
  match kind with
  | text => true
  | path => value != ""
  | number => (Decimal.floatOfText? value).isSome
  | count => (countOfText? value).isSome

structure Flag where
  name : String
  /-- The name in one letter. -/
  letter : Option Char := none
  /-- Without a kind of value it is a switch. -/
  kind : Option ValueKind := none
  isRequired : Bool := false
  /-- It may be given more than once. -/
  isRepeatable : Bool := false
  /-- The value where none is given. -/
  default : Option String := none
  /-- The variable of the environment that stands for the flag. -/
  envName : Option String := none
  about : String
  deriving DecidableEq, Repr

def defaultChannel : String := "cli"

/-- The variable that names the configuration. -/
def configVariable : String := "TOLLGATE_CONFIG"

/-- The flags that every command knows. -/
def Flag.global : List Flag :=
  [{ name := "verbose", letter := some 'v', about := "Enable verbose logging" },
    { name := "json-logs", about := "Emit logs as JSON lines" },
    { name := "config", kind := some .path, envName := some configVariable
      about := "Config file (defaults to ~/.tollgate/config.toml)" },
    { name := "workspace", kind := some .path, about := "Workspace permissions overlay" }]

def Flag.caller : List Flag :=
  [{ name := "caller", kind := some .text, isRequired := true
     about := "Caller id as reported by the channel" },
    { name := "channel", kind := some .text, default := some defaultChannel
      about := "Channel the request arrived on" },
    { name := "trusted", about := "Treat the caller as authenticated by the channel" }]

namespace Context

def ownFlags : Context → List Flag
  | route => Flag.caller ++
    [{ name := "complexity", kind := some .number, isRequired := true
       about := "Task complexity in [0, 1]" },
      { name := "input-tokens", kind := some .count
        default := some (toString Message.defaultInputTokens), about := "Estimated prompt size" },
      { name := "max-output", kind := some .count, about := "Requested output cap" },
      { name := "model", kind := some .text, about := "Explicit model (needs override permission)" },
      { name := "settle-output", kind := some .count
        about :=
          "Settle the reservation with this many output tokens and persist the ledger" }]
  | caps => Flag.caller
  | tool => Flag.caller
  | usage =>
    [{ name := "caller", kind := some .text, about := "Limit output to one caller" },
      { name := "channel", kind := some .text, default := some defaultChannel
        about := "Channel of `--caller`" }]
  | serve =>
    [{ name := "trust", kind := some .text, isRepeatable := true
       about := "Channel whose callers the upstream process authenticates (repeatable)" }]
  | init => [{ name := "force", about := "Overwrite an existing file" }]
  | _ => []

def flags (c : Context) : List Flag := c.ownFlags ++ Flag.global

/-- The names of the commands that may follow. -/
def commands : Context → List (String × Context)
  | top => [("route", route), ("caps", caps), ("tool", tool), ("usage", usage), ("serve", serve),
      ("config", config)]
  | config => [("validate", validate), ("show", «show»), ("init", init)]
  | _ => []

/-- How many names may stand by themselves; all of them have to. -/
def operands : Context → Nat
  | tool => 1
  | _ => 0

def about : Context → String
  | top => "Tollgate: admission control for AI agents"
  | route => "Dry-run a routing decision"
  | caps => "Print the resolved capability record"
  | tool => "Check whether a tool may be invoked"
  | usage => "Show ledger usage"
  | serve => "Answer JSON-line admission requests on stdin until EOF"
  | config => "Manage configuration"
  | validate => "Check the configuration for errors"
  | «show» => "Print the effective configuration"
  | init => "Write a starter config file"

end Context

end Admission.CommandLine
