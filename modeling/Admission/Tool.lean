import Admission.Capability

/-!
# Tools

Whether a tool may run. What is not allowed by name or by `*` is denied, and a denial by name wins.
An entry such as `file_*` is a name like any other.
-/

namespace Admission

/-- Why a tool is denied. -/
inductive ToolDenial where
  | noCapabilities
  | emptyName
  | denied (tool : String)
  | notAllowed (tool : String) (allowed : Nat) (level : Level)
  /-- Denied elsewhere, in words of its own. -/
  | other (reason : String)
  deriving DecidableEq, Repr

def ToolDenial.message : ToolDenial → String
  | noCapabilities => "No capabilities resolved (deny by default)"
  | emptyName => "Empty tool name"
  | denied tool => "Tool '" ++ tool ++ "' is explicitly denied"
  | notAllowed tool allowed level =>
    "Tool '" ++ tool ++ "' not in allowlist (" ++ toString allowed ++ " tools allowed at level " ++
      level.name ++ ")"
  | other reason => reason

inductive ToolVerdict where
  | allow
  | deny (reason : ToolDenial)
  deriving DecidableEq, Repr

namespace ToolVerdict

def isAllowed : ToolVerdict → Bool
  | allow => true
  | deny _ => false

def display : ToolVerdict → String
  | allow => "allow"
  | deny reason => "deny: " ++ reason.message

end ToolVerdict

/-- The list has the tool among its names, blanks at the ends aside. -/
def namesTool (names : List String) (tool : String) : Bool :=
  names.any fun name => Text.trim name == tool

def checkTool {α : Type} (caps : Option (Capabilities α)) (name : String) : ToolVerdict :=
  match caps with
  | none => .deny .noCapabilities
  | some caps =>
    let tool := Text.trim name
    if tool == "" then .deny .emptyName
    else if namesTool caps.toolDeny tool then .deny (.denied tool)
    else if namesTool caps.toolAllow "*" || namesTool caps.toolAllow tool then .allow
    else .deny (.notAllowed tool caps.toolAllow.length caps.level)

end Admission
