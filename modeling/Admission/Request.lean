import Admission.Amount
import Admission.Identity
import Admission.ReservationId
import Admission.Timestamp

/-!
# Requests and decisions

A chat request as the router sees it, and the verdict on it.
-/

namespace Admission

structure Request (α : Type) where
  identity : Identity
  /-- How hard the task is, from 0 to 1. -/
  complexity : α
  inputTokens : Nat
  /-- The longest output that the caller asks for. -/
  maxOutputTokens : Option Nat := none
  /-- The model that the caller asks for. -/
  requestedModel : Option String := none
  stream : Bool := false

/-- The complexity within 0 to 1; an undefined one counts as 0. -/
def Request.normalizedComplexity {α : Type} [Amount α] (request : Request α) : α :=
  if Amount.isUndefined request.complexity then 0 else Amount.clamp 0 1.0 request.complexity

structure Decision (α : Type) where
  reservation : ReservationId
  identity : Identity
  provider : String
  model : String
  tier : String
  tierOrdinal : Nat
  /-- The reserved amount, with its margin. -/
  costEstimate : α
  escalated : Bool
  budgetConstrained : Bool
  usedFallback : Bool
  streaming : Bool
  maxContextTokens : Nat
  maxOutputTokens : Nat
  reason : String
  decidedAt : Timestamp

/-- The provider of a model and the model's own name. Without a provider it is `default`. -/
def splitModel (model : String) : String × String :=
  let cs := model.toList
  let provider := cs.takeWhile (· != '/')
  match cs.dropWhile (· != '/') with
  | _ :: rest =>
    if provider.isEmpty then ("default", model) else (String.ofList provider, String.ofList rest)
  | [] => ("default", model)

def Json.nullable {β : Type} (write : β → Json) : Option β → Json
  | some value => write value
  | none => .null

namespace Request

def toJson (request : Request Double) : Json :=
  .obj [("identity", request.identity.toJson), ("complexity", .float request.complexity),
    ("estimated_input_tokens", .int request.inputTokens),
    ("max_output_tokens", .nullable (fun n => .int n) request.maxOutputTokens),
    ("requested_model", .nullable .str request.requestedModel), ("stream", .bool request.stream)]

def ofJson : Decode (Request Double) :=
  .openStructure ["identity", "complexity", "estimated_input_tokens", "max_output_tokens",
      "requested_model", "stream"] <|
    Request.mk
      <$> .required "identity" Identity.ofJson
      <*> .required "complexity" .float
      <*> .required "estimated_input_tokens" (.nat 32)
      <*> .optional "max_output_tokens" (.nat 32)
      <*> .optional "requested_model" .string
      <*> .withDefault "stream" .bool false

end Request

def Decision.toJson (d : Decision Double) : Json :=
  .obj [("reservation_id", .str d.reservation.text), ("identity", d.identity.toJson),
    ("provider", .str d.provider), ("model", .str d.model), ("tier", .str d.tier),
    ("tier_ordinal", .int d.tierOrdinal), ("cost_estimate", .float d.costEstimate),
    ("escalated", .bool d.escalated), ("budget_constrained", .bool d.budgetConstrained),
    ("used_fallback", .bool d.usedFallback), ("streaming", .bool d.streaming),
    ("max_context_tokens", .int d.maxContextTokens),
    ("max_output_tokens", .int d.maxOutputTokens), ("reason", .str d.reason),
    ("decided_at", d.decidedAt.toJson)]

def ReservationId.ofJson : Decode ReservationId := fun _ j =>
  match j with
  | .str s =>
    match ReservationId.ofText? s with
    | some id => .ok id
    | none => .error .malformed
  | _ => .error .malformed

def Decision.ofJson : Decode (Decision Double) :=
  .openStructure ["reservation_id", "identity", "provider", "model", "tier", "tier_ordinal",
      "cost_estimate", "escalated", "budget_constrained", "used_fallback", "streaming",
      "max_context_tokens", "max_output_tokens", "reason", "decided_at"] <|
    Decision.mk
      <$> .required "reservation_id" ReservationId.ofJson
      <*> .required "identity" Identity.ofJson
      <*> .required "provider" .string
      <*> .required "model" .string
      <*> .required "tier" .string
      <*> .required "tier_ordinal" (.nat 32)
      <*> .required "cost_estimate" .float
      <*> .required "escalated" .bool
      <*> .required "budget_constrained" .bool
      <*> .required "used_fallback" .bool
      <*> .required "streaming" .bool
      <*> .required "max_context_tokens" (.nat 32)
      <*> .required "max_output_tokens" (.nat 32)
      <*> .required "reason" .string
      <*> .required "decided_at" Timestamp.ofJson

end Admission
