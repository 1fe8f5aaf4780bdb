import Admission.Server.Basic
import Admission.Service

/-!
# Commands

What an operator can ask for, and the lines that are printed in answer.
-/

namespace Admission

/-- A request to try out. -/
structure Query where
  identity : Identity
  complexity : Double
  inputTokens : Nat := Message.defaultInputTokens
  maxOutput : Option Nat := none
  model : Option String := none
  /-- Settle the reservation as if the output had so many tokens. -/
  settleOutput : Option Nat := none

inductive Command where
  | route (query : Query)
  | caps (who : Identity)
  | tool (who : Identity) (name : String)
  | usage (caller : Option String) (channel : String)
  | serve (trustedChannels : List String)
  | validate
  | show
  | init (force : Bool)

namespace Command

variable {m : Type → Type} [Monad m] [Machine m]

open Work (print perform)

def trustWord (trusted : Bool) : String := if trusted then "trusted" else "untrusted"

def showCaps (p : Places) (who : Identity) : Work m Unit := do
  let s ← Service.start p
  print ("🔑 " ++ who.display ++ " (" ++ trustWord who.trusted ++ ")")
  print (s.controller.capabilities who).toJson.pretty

def tryTool (p : Places) (who : Identity) (name : String) : Work m Unit := do
  let s ← Service.start p
  match (s.controller.authorizeTool (← perform Machine.now) who name).1 with
  | .allow => print ("✅ " ++ who.display ++ " may use '" ++ name ++ "'")
  | .deny reason =>
    print ("⛔ " ++ who.display ++ " may not use '" ++ name ++ "': " ++ reason.message)

def money (x : Double) : String := "$" ++ Decimal.fixed 4 x

def usageText (u : Usage Double) : String :=
  match u.remaining with
  | some remaining =>
    money u.spent ++ " spent / " ++ money u.limit ++ " limit (" ++ money remaining ++ " remaining)"
  | none => money u.spent ++ " spent (unlimited)"

def printReport (r : UsageReport Double) : Work m Unit := do
  print ("  " ++ r.key)
  print ("    Daily:   " ++ usageText r.daily)
  print ("    Monthly: " ++ usageText r.monthly)

/-- The limits of one caller are those that a trusted one would get; the list of all callers shows
none. -/
def showUsage (p : Places) (caller : Option String) (channel : String) : Work m Unit := do
  let s ← Service.start p
  if s.store.isNone then
    print "⚠️  Ledger persistence is disabled (budgets.persist = false); nothing to show."
  else
    let ledger := s.controller.desk.ledger
    let now ← perform Machine.now
    print ("📊 Ledger Usage (" ++ s.ledgerPath ++ ")")
    print (String.ofList (List.replicate 53 '─'))
    printReport (ledger.globalUsage now)
    match caller with
    | some caller =>
      let who : Identity := ⟨caller, channel, true⟩
      printReport (ledger.usage who (s.controller.capabilities who) now).1
    | none =>
      let keys := ledger.identities
      for key in keys do
        printReport (ledger.usageOfKey key 0 0 now).1
      print ""
      print ("  " ++ toString keys.length ++ " identities tracked")

def Query.request (q : Query) : Request Double :=
  { identity := q.identity, complexity := q.complexity, inputTokens := q.inputTokens
    maxOutputTokens := q.maxOutput, requestedModel := q.model }

/-- Route a request. Unless it is to be settled its reservation is given up again. -/
def tryRoute (p : Places) (q : Query) : Work m Unit := do
  let s ← Service.start p
  match s.controller.route (← perform Server.moment) (Query.request q) with
  | (.error refusal, _) =>
    print ("❌ " ++ refusal.message ++ " (" ++ refusal.kind ++ ")")
    if refusal.isRetryable then print "   Retryable later."
    throw (.refused refusal)
  | (.ok decision, controller) =>
    print decision.toJson.pretty
    match q.settleOutput with
    | none => return
    | some outputTokens =>
      let now ← perform Machine.now
      let (booked, controller) :=
        controller.reportUsage now decision.reservation q.inputTokens outputTokens
      match booked with
      | some cost =>
        print ("💵 Settled at $" ++ Decimal.fixed 6 cost ++ " (estimated $" ++
          Decimal.fixed 6 decision.costEstimate ++ ")")
      | none => print ("⚠️  Reservation " ++ decision.reservation.text ++ " was already settled")
      if ← Service.save { s with controller } then
        print ("   Ledger saved to " ++ s.ledgerPath)

/-- Answer the lines of the input. The ledger is saved also where the input ends badly. -/
def serveLines (p : Places) (trustedChannels : List String) : Work m Unit := do
  let s ← Service.start p
  let session ← perform (Server.serve ⟨s.controller, trustedChannels⟩)
  let _ ← Service.save { s with controller := session.server.controller }
  if session.intact then return else throw (.file .notText)

def hourText (hour : Nat) : String := String.ofList (Decimal.padded 2 hour) ++ ":00 UTC"

def printSummary (c : Config Double) : Work m Unit := do
  print ""
  print ("   Strategy:  " ++ c.routing.strategy.name)
  print ("   Tiers:     " ++ " < ".intercalate (c.routing.tiers.map (·.name)))
  print ("   Fallback:  " ++ c.routing.fallbackModel.getD "(none)")
  print ("   Reset:     " ++ hourText c.budgets.resetHour)
  print ("   Window:    " ++ toString c.rateLimiting.windowSeconds ++ "s")

def checkConfig (p : Places) : Work m Unit := do
  print "🔍 Validating configuration..."
  match ← perform p.load with
  | .error e =>
    print ("   ❌ Config error: " ++ e.message)
    throw (.config e)
  | .ok c =>
    print "   ✅ Config parsed and validated"
    let path := p.workspacePath
    match ← perform (c.loadWorkspace path) with
    | .ok (some _) => print ("   ✅ Workspace overlay valid: " ++ path)
    | .ok none => print ("   No workspace overlay at " ++ path)
    | .error e =>
      print ("   ❌ Workspace error: " ++ e.message)
      throw (.config e)
    printSummary c

def showConfig (p : Places) : Work m Unit := do
  let c ← Work.ofExcept .nothingToShow p.load
  let text ← Work.ofExcept .unwritable (pure (Toml.write c.toJson))
  print text

/-- The text of a configuration to start from. -/
def starterText : String := ((Toml.write (Config.default : Config Double).toJson).toOption).getD ""

/-- Write a configuration to start from; one that is there stays, unless it is to be replaced. -/
def writeStarter (p : Places) (force : Bool) : Work m Unit := do
  let path ← match p.config with
    | some path => pure path
    | none => perform Config.defaultPath
  if (← perform (Machine.hasPath path)) && !force then
    print ("⚠️  Config already exists at: " ++ path)
    print "   Edit it manually or re-run with --force."
  else
    Work.ofExcept .file (Store.createParent path)
    Work.ofExcept .file (Machine.writeText path starterText)
    print ("✅ Created config at: " ++ path)

def run (p : Places) : Command → Work m Unit
  | .route query => tryRoute p query
  | .caps who => showCaps p who
  | .tool who name => tryTool p who name
  | .usage caller channel => showUsage p caller channel
  | .serve trustedChannels => serveLines p trustedChannels
  | .validate => checkConfig p
  | .show => showConfig p
  | .init force => writeStarter p force

end Command

end Admission
