import Admission.CommandLine.Flag

/-!
# Help

What a command is for, how it is called, and what its flags mean.
-/

namespace Admission.CommandLine

def Context.path : Context → String
  | top => "tollgate"
  | route => "tollgate route"
  | caps => "tollgate caps"
  | tool => "tollgate tool"
  | usage => "tollgate usage"
  | serve => "tollgate serve"
  | config => "tollgate config"
  | validate => "tollgate config validate"
  | «show» => "tollgate config show"
  | init => "tollgate config init"

namespace Flag

def valueWord (f : Flag) : String :=
  if f.name == "trust" then "<CHANNEL>"
  else "<" ++ String.ofList (f.name.toList.map fun c => if c == '-' then '_' else c.toUpper) ++ ">"

def usageText (f : Flag) : String :=
  "--" ++ f.name ++ if f.kind.isSome then " " ++ f.valueWord else ""

def entry (f : Flag) : String :=
  (match f.letter with
    | some c => String.ofList ['-', c, ',', ' ']
    | none => "    ") ++ f.usageText

/-- What the flag means, with the values that count where it is not given. -/
def explanation (configEnv : Option String) (f : Flag) : String :=
  let fromEnv := f.envName.map fun name => " [env: " ++ name ++ "=" ++ configEnv.getD "" ++ "]"
  let default := f.default.map fun value => " [default: " ++ value ++ "]"
  f.about ++ fromEnv.getD "" ++ default.getD ""

def sortKey (f : Flag) : String :=
  match f.letter with
  | some c => String.ofList [c.toLower, if c.isLower then '0' else '1']
  | none => f.name

/-- The flags of a list with their places, the first of which is `first`. -/
def placed (first : Nat) (flags : List Flag) : List (Nat × Flag) :=
  flags.zipIdx.map fun (f, i) => (first + i, f)

/-- By place, and in one place by key. -/
def isBefore (f g : Nat × Flag) : Bool :=
  f.1 < g.1 || (f.1 == g.1 && f.2.sortKey ≤ g.2.sortKey)

/-- The flags of a command as they are listed. A command's own ones are counted from zero; those that
every command knows have their places behind the commands of the program. -/
def listed (c : Context) : List Flag :=
  ((placed 0 c.ownFlags ++ placed Context.top.commands.length global).mergeSort isBefore).map (·.2)

end Flag

def usageLine (c : Context) : String :=
  let required := (c.flags.filter (·.isRequired)).map fun f => " " ++ f.usageText
  "Usage: " ++ c.path ++ " [OPTIONS]" ++ String.join required ++
    (if c.operands == 0 then "" else " <NAME>") ++ if c.commands.isEmpty then "" else " <COMMAND>"

/-- Entries with their explanations in one column. -/
def columns (entries : List (String × String)) : List String :=
  let width := entries.foldl (fun w e => max w e.1.length) 0
  entries.map fun (entry, about) =>
    "  " ++ entry ++ String.ofList (List.replicate (width + 2 - entry.length) ' ') ++ about

def closingEntries (c : Context) : List (String × String) :=
  ("-h, --help", "Print help") ::
    if c = .top then [("-V, --version", "Print version")] else []

def helpAbout : String := "Print this message or the help of the given subcommand(s)"

/-- The help for a command; `configEnv` is what the environment says about the configuration. -/
def commandLines (configEnv : Option String) (c : Context) : List String :=
  let commands := c.commands.map fun (name, inner) => (name, inner.about)
  let flags := (Flag.listed c).map fun f => (f.entry, f.explanation configEnv)
  [c.about, "", usageLine c] ++
    (if commands.isEmpty then [] else ["", "Commands:"] ++ columns (commands ++ [("help", helpAbout)])) ++
    (if c.operands == 0 then [] else ["", "Arguments:"] ++ columns [("<NAME>", "Tool name")]) ++
    ["", "Options:"] ++ columns (flags ++ closingEntries c)

/-- The help for `help` among the commands of `c`. -/
def helpCommandLines (c : Context) : List String :=
  [helpAbout, "", "Usage: " ++ c.path ++ " help [COMMAND]...", "", "Arguments:"] ++
    columns [("[COMMAND]...", "Print help for the subcommand(s)")]

def helpLines (configEnv : Option String) : Topic → List String
  | .command c => commandLines configEnv c
  | .help c => helpCommandLines c

end Admission.CommandLine
