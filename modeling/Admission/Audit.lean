import Admission.Refusal
import Admission.Request
import Admission.Tool

/-!
# Audit trail

Every verdict on a request or a tool leaves an entry. A trail keeps the newest entries.
-/

namespace Admission

inductive AuditEvent where
  | routeDecision (tier model : String)
  | routeDenied (kind : String)
  | toolCheck (tool : String)
  deriving DecidableEq, Repr

inductive Outcome where
  | allowed
  | denied
  deriving DecidableEq, Repr

structure AuditEntry where
  timestamp : Timestamp
  event : AuditEvent
  /-- The key of the caller. -/
  identity : String
  outcome : Outcome
  fields : Dict Json

namespace AuditEvent

def toJson : AuditEvent → Json
  | routeDecision tier model =>
    .obj [("type", .str "route_decision"), ("tier", .str tier), ("model", .str model)]
  | routeDenied kind => .obj [("type", .str "route_denied"), ("kind", .str kind)]
  | toolCheck tool => .obj [("type", .str "tool_check"), ("tool_name", .str tool)]

def ofJson : Decode AuditEvent :=
  .tagged "type"
    [("route_decision", .openStructure ["tier", "model"] <|
        routeDecision <$> .required "tier" .string <*> .required "model" .string),
      ("route_denied", .openStructure ["kind"] <| routeDenied <$> .required "kind" .string),
      ("tool_check", .openStructure ["tool_name"] <| toolCheck <$> .required "tool_name" .string)]

end AuditEvent

namespace Outcome

def name : Outcome → String
  | allowed => "allowed"
  | denied => "denied"

def ofJson : Decode Outcome := .oneOf [(allowed.name, allowed), (denied.name, denied)]

end Outcome

namespace AuditEntry

def toJson (e : AuditEntry) : Json :=
  .obj [("timestamp", e.timestamp.toJson), ("event", e.event.toJson), ("identity", .str e.identity),
    ("outcome", .str e.outcome.name), ("fields", .ofDict e.fields)]

def ofJson : Decode AuditEntry :=
  .openStructure ["timestamp", "event", "identity", "outcome", "fields"] <|
    AuditEntry.mk
      <$> .required "timestamp" Timestamp.ofJson
      <*> .required "event" AuditEvent.ofJson
      <*> .required "identity" .string
      <*> .required "outcome" Outcome.ofJson
      <*> .withDefault "fields" (.dictOf .anything) ∅

end AuditEntry

structure DenialDetails (α : Type) where
  /-- The tier that was planned, if any was in reach. -/
  requestedTier : Option String
  /-- The ceiling of the caller. -/
  allowedTier : String
  escalated : Bool
  /-- What is left for the day; nothing where there is no limit. -/
  budgetRemaining : Option α
  /-- Requests left in the window; nothing where there is no limit. -/
  rateRemaining : Option Nat

class Recordable (α : Type) where
  toJson : α → Json

instance : Recordable Double := ⟨fun x => (Json.float x).writable⟩

/-- A fraction as its two whole numbers. -/
instance : Recordable Rat := ⟨fun x => .arr [.int x.num, .int x.den]⟩

namespace AuditEntry

variable {α : Type}

def ofDecision [Recordable α] (d : Decision α) (caps : Capabilities α)
    (rateRemaining : Option Nat) (budgetRemaining : Option α) : AuditEntry where
  timestamp := d.decidedAt
  event := .routeDecision d.tier d.model
  identity := d.identity.key
  outcome := .allowed
  fields := .ofList
    [("level", caps.level.toJson), ("max_tier", .str caps.maxTier),
      ("tier_ordinal", .nat d.tierOrdinal), ("escalated", .bool d.escalated),
      ("budget_constrained", .bool d.budgetConstrained), ("used_fallback", .bool d.usedFallback),
      ("cost_estimate", Recordable.toJson d.costEstimate),
      ("reservation_id", .str d.reservation.text),
      ("rate_remaining", .nullable .nat rateRemaining),
      ("budget_remaining", .nullable Recordable.toJson budgetRemaining)]

/-- How long to wait, where the refusal says so. -/
def retryFields : Refusal α → List (String × Json)
  | .rateLimited seconds => [("retry_after_secs", .nat seconds)]
  | _ => []

def ofRefusal [Amount α] [Recordable α] (now : Timestamp) (who : Identity) (caps : Capabilities α)
    (refusal : Refusal α) (details : DenialDetails α) : AuditEntry where
  timestamp := now
  event := .routeDenied refusal.kind
  identity := who.key
  outcome := .denied
  fields := .ofList <|
    [("level", caps.level.toJson), ("requested_tier", .nullable .str details.requestedTier),
      ("allowed_tier", .str details.allowedTier), ("escalated", .bool details.escalated),
      ("budget_remaining", .nullable Recordable.toJson details.budgetRemaining),
      ("rate_remaining", .nullable .nat details.rateRemaining), ("reason", .str refusal.message)] ++
    retryFields refusal

/-- The caller of a check that was made for nobody in particular. -/
def unresolvedIdentity : String := "unresolved"

def ofVerdict (now : Timestamp) (who : Option Identity) (level : Option Level) (tool : String)
    (verdict : ToolVerdict) : AuditEntry where
  timestamp := now
  event := .toolCheck (Text.trim tool)
  identity := (who.map Identity.key).getD unresolvedIdentity
  outcome := if verdict.isAllowed then .allowed else .denied
  fields := .ofList <|
    (level.toList.map fun l => ("level", l.toJson)) ++
      match verdict with
      | .allow => []
      | .deny reason => [("reason", .str reason.message)]

end AuditEntry

/-- The newest entries, the oldest of them first. -/
structure Trail where
  capacity : Nat
  entries : List AuditEntry := []
  capacity_pos : 0 < capacity
  fits : entries.length ≤ capacity

namespace Trail

/-- A trail without entries; it keeps at least one. -/
def new (capacity : Nat) : Trail where
  capacity := max capacity 1
  capacity_pos := by omega
  fits := by simp

/-- The newest entry displaces the oldest one of a full trail. -/
def record (t : Trail) (e : AuditEntry) : Trail where
  capacity := t.capacity
  entries := (if t.entries.length = t.capacity then t.entries.drop 1 else t.entries) ++ [e]
  capacity_pos := t.capacity_pos
  fits := by
    have := t.fits
    have := t.capacity_pos
    split <;> simp <;> omega

def byOutcome (t : Trail) (outcome : Outcome) : List AuditEntry :=
  t.entries.filter fun e => e.outcome = outcome

def clear (t : Trail) : Trail := { t with entries := [], fits := by simp }

end Trail

end Admission
