import Admission.Audit
import Admission.Resolve
import Admission.Router.Route

/-!
# The admission controller

The one entry for requests of agents: it resolves the permissions of the caller, routes the request
or checks the tool, and leaves an entry in the audit trail.
-/

namespace Admission

structure Controller (α : Type) where
  resolver : Resolver α
  router : Router α
  desk : Desk α
  /-- Without a trail nothing is kept of a verdict. -/
  trail : Option Trail := none

namespace Controller

variable {α : Type} [Amount α]

/-- All parts from one configuration; `assign` spreads the callers over shards. -/
def ofConfig (assign : String → Nat) (c : Config α) (workspace : Option (Permissions α)) :
    Controller α where
  resolver := ⟨c.permissions, workspace, c.routing.tierSet⟩
  router := .ofRouting c.routing (.configured c.pricing)
  desk :=
    { selector := .new c.routing.strategy c.routing.tierSet
      limiter := .new assign (.ofConfig c.rateLimiting)
      ledger := .new assign (.ofBudgets c.budgets) }

def capabilities (c : Controller α) (who : Identity) : Capabilities α := c.resolver.resolve who

def record (c : Controller α) (entry : AuditEntry) : Controller α :=
  { c with trail := c.trail.map (·.record entry) }

def setLedger (c : Controller α) (ledger : Ledger α) : Controller α :=
  { c with desk := { c.desk with ledger } }

/-- What the caller has left for the day. -/
def dailyRemaining (who : Identity) (caps : Capabilities α) (time : Timestamp) (desk : Desk α) :
    Option α × Desk α :=
  let (report, ledger) := desk.ledger.usage who caps time
  (report.daily.remaining, { desk with ledger })

/-- The limits of the caller at the time of a refusal. -/
def denialDetails (r : Router α) (m : Moment) (request : Request α) (caps : Capabilities α)
    (desk : Desk α) : DenialDetails α × Desk α :=
  let preview := r.preview? request caps
  let (budgetRemaining, desk) := dailyRemaining request.identity caps m.time desk
  let (rate, limiter) := desk.limiter.peek request.identity caps.rateLimit m.instant
  ({ requestedTier := preview.map (·.tier)
     allowedTier := caps.maxTier
     escalated := (preview.map (·.escalated)).getD false
     budgetRemaining
     rateRemaining := rate.remaining },
    { desk with limiter })

variable [Recordable α]

/-- Admit or refuse a request. What an admitted one may cost stays reserved until its usage is
reported or it is released. -/
def route (c : Controller α) (m : Moment) (request : Request α) :
    Except (Refusal α) (Decision α) × Controller α :=
  let caps := c.capabilities request.identity
  match c.router.route m request caps c.desk with
  | (.ok admitted, desk) =>
    let (remaining, desk) := dailyRemaining request.identity caps m.time desk
    (.ok admitted.decision, { c with desk }.record
      (.ofDecision admitted.decision caps admitted.rate.remaining remaining))
  | (.error refusal, desk) =>
    let (details, desk) := denialDetails c.router m request caps desk
    (.error refusal, { c with desk }.record
      (.ofRefusal m.time request.identity caps refusal details))

omit [Amount α] [Recordable α] in
/-- Check a tool against permissions that are already resolved. -/
def checkTool (c : Controller α) (now : Timestamp) (caps : Option (Capabilities α)) (tool : String) :
    ToolVerdict × Controller α :=
  let verdict := Admission.checkTool caps tool
  (verdict, c.record (.ofVerdict now none (caps.map (·.level)) tool verdict))

omit [Recordable α] in
def authorizeTool (c : Controller α) (now : Timestamp) (who : Identity) (tool : String) :
    ToolVerdict × Controller α :=
  let caps := c.capabilities who
  let verdict := Admission.checkTool (some caps) tool
  (verdict, c.record (.ofVerdict now (some who) (some caps.level) tool verdict))

omit [Recordable α] in
/-- Settle a reservation at the price of the tokens that were used. -/
def reportUsage (c : Controller α) (now : Timestamp) (id : ReservationId)
    (inputTokens outputTokens : Nat) : Option α × Controller α :=
  match c.desk.ledger.priceBasis? id with
  | none => (none, c)
  | some basis =>
    let actual :=
      c.router.prices.costOrBlended basis.model inputTokens outputTokens basis.tierCostPer1k
    let (booked, ledger) := c.desk.ledger.reconcile id actual now
    (booked, c.setLedger ledger)

omit [Recordable α] in
def release (c : Controller α) (now : Timestamp) (id : ReservationId) : Bool × Controller α :=
  let (done, ledger) := c.desk.ledger.release id now
  (done, c.setLedger ledger)

def outstanding (c : Controller α) : Nat := c.desk.ledger.pending.length

end Controller

end Admission
