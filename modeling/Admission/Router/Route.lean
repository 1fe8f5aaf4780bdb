import Admission.Ledger.Basic
import Admission.Rate.Limiter
import Admission.Router.Plan
import Admission.Selection

/-!
# Routing

A tier and a model for one request. Every attempt of the plan reserves its estimated cost first; a
refused reservation falls through to the next attempt, and in the end to the fallback model, which
never lies above the ceiling. The rate limit is checked last, and a request that it refuses gives
its reservation back.
-/

namespace Admission

structure Router (α : Type) where
  tiers : TierSet α
  settings : RouterSettings α
  prices : PriceTable α

structure Desk (α : Type) where
  selector : Selector
  limiter : Limiter α
  ledger : Ledger α

/-- When a request comes in, and what chance has in store for it. -/
structure Moment where
  time : Timestamp
  /-- Nanoseconds of the clock that windows are measured by. -/
  instant : Nat
  /-- An id that no reservation has. -/
  id : ReservationId
  dice : Nat

/-- An admitted request and the state of its window. -/
structure Admitted (α : Type) where
  decision : Decision α
  rate : RateCheck

/-- A tier and a model whose cost is reserved. -/
structure Candidate (α : Type) where
  tier : Tier α
  model : String
  estimate : α
  escalated : Bool
  budgetConstrained : Bool
  usedFallback : Bool
  reason : String

/-- The tier that a request would be planned on. -/
structure Preview where
  tier : String
  escalated : Bool
  deriving DecidableEq, Repr

variable {α : Type} [Amount α]

/-- The output that a request gets: what it asks for, within the caller's cap. -/
def outputCap (request : Request α) (caps : Capabilities α) : Nat :=
  match request.maxOutputTokens with
  | some n => min n caps.maxOutputTokens
  | none => caps.maxOutputTokens

namespace Router

def ofRouting (routing : Routing α) (prices : PriceTable α) : Router α where
  tiers := routing.tierSet
  settings := .ofRouting routing
  prices := prices

/-- The cost of the tokens at the rate of the tier, with the margin. -/
def estimate (r : Router α) (tier : Tier α) (inputTokens outputTokens : Nat) : α :=
  tier.costPer1k * ((inputTokens + outputTokens : Nat) : α) / 1000.0 *
    (1.0 + r.settings.safetyMargin)

/-- Reserve the estimated cost of a request on a tier. -/
def reserve (r : Router α) (m : Moment) (request : Request α) (caps : Capabilities α)
    (tier : Tier α) (model : String) (desk : Desk α) : Except (Rejection α) α × Desk α :=
  let cost := r.estimate tier request.inputTokens (outputCap request caps)
  let (result, ledger) := desk.ledger.reserve m.id request.identity caps cost
    (some ⟨model, tier.costPer1k⟩) m.time
  (result.map fun () => cost, { desk with ledger })

/-- Check the rate of a request whose cost is reserved, and decide. -/
def conclude (m : Moment) (request : Request α) (caps : Capabilities α) (c : Candidate α)
    (desk : Desk α) : Except (Refusal α) (Admitted α) × Desk α :=
  let (rate, limiter) := desk.limiter.check request.identity caps.rateLimit m.instant
  if rate.allowed then
    let decision : Decision α :=
      { reservation := m.id
        identity := request.identity
        provider := (splitModel c.model).1
        model := c.model
        tier := c.tier.name
        tierOrdinal := c.tier.ordinal
        costEstimate := c.estimate
        escalated := c.escalated
        budgetConstrained := c.budgetConstrained
        usedFallback := c.usedFallback
        streaming := request.stream && caps.streamingAllowed
        maxContextTokens := min c.tier.maxContextTokens caps.maxContextTokens
        maxOutputTokens := outputCap request caps
        reason := c.reason
        decidedAt := m.time }
    (.ok ⟨decision, rate⟩, { desk with limiter })
  else
    let (_, ledger) := desk.ledger.release m.id m.time
    (.error (.rateLimited rate.retryAfterSeconds), { desk with limiter, ledger })

/-- A reserved attempt, or none with the first rejection on the way. -/
structure Attempted (α : Type) where
  reserved : Option (Tier α × String × α)
  rejection : Option (Rejection α)

/-- Try tiers one after the other until a reservation is made. -/
def attempt (r : Router α) (m : Moment) (request : Request α) (caps : Capabilities α) :
    List (Tier α) → Option (Rejection α) → Desk α → Attempted α × Desk α
  | [], rejection, desk => (⟨none, rejection⟩, desk)
  | tier :: rest, rejection, desk =>
    let (pick, selector) :=
      desk.selector.select r.prices m.dice tier (Selector.permitted tier caps)
    let desk := { desk with selector }
    match pick with
    | none => attempt r m request caps rest rejection desk
    | some model =>
      match r.reserve m request caps tier model desk with
      | (.ok cost, desk) => (⟨some (tier, model, cost), rejection⟩, desk)
      | (.error refused, desk) =>
        attempt r m request caps rest (rejection.or (some refused)) desk

/-- The fallback model and its tier, where the caller may use it. -/
def fallback? (r : Router α) (ceiling : Nat) (caps : Capabilities α) :
    Option (Tier α × String) :=
  r.settings.fallbackModel.bind fun model =>
    (r.tiers.tierOfModel? model).bind fun tier =>
      if tier.ordinal ≤ ceiling && caps.permitsModel model then some (tier, model) else none

def exhausted (caps : Capabilities α) : Option (Rejection α) → Refusal α
  | some rejection => .budgetExceeded rejection
  | none => .noTierAvailable (.noModel caps.maxTier)

def routeFallback (r : Router α) (m : Moment) (request : Request α) (caps : Capabilities α)
    (ceiling : Nat) (rejection : Option (Rejection α)) (desk : Desk α) :
    Except (Refusal α) (Admitted α) × Desk α :=
  match r.fallback? ceiling caps with
  | none => (.error (exhausted caps rejection), desk)
  | some (tier, model) =>
    match r.reserve m request caps tier model desk with
    | (.ok cost, desk) =>
      conclude m request caps
        { tier, model, estimate := cost, escalated := false
          budgetConstrained := rejection.isSome, usedFallback := true
          reason := (RouteReason.fallback model : RouteReason α).text } desk
    | (.error refused, desk) => (.error (exhausted caps (rejection.or (some refused))), desk)

/-- How the words of a plan end where another tier than the chosen one was taken. -/
def settledText (plan : Plan α) (tier : Tier α) : String :=
  plan.reason.text ++ if tier.ordinal = plan.chosen.ordinal then "" else ", settled on " ++ tier.name

def routePlanned (r : Router α) (m : Moment) (request : Request α) (caps : Capabilities α)
    (ceiling : Nat) (desk : Desk α) : Except (Refusal α) (Admitted α) × Desk α :=
  match Plan.make r.tiers r.settings ceiling caps request.normalizedComplexity with
  | none => (.error (.noTierAvailable (.noneBelow caps.maxTier)), desk)
  | some plan =>
    match r.attempt m request caps plan.attempts none desk with
    | (⟨some (tier, model, cost), rejection⟩, desk) =>
      conclude m request caps
        { tier, model, estimate := cost
          escalated := plan.escalated && tier.ordinal == plan.chosen.ordinal
          budgetConstrained := rejection.isSome, usedFallback := false
          reason := settledText plan tier } desk
    | (⟨none, rejection⟩, desk) => r.routeFallback m request caps ceiling rejection desk

/-- A request for one model, from a caller who may choose. -/
def routeRequested (r : Router α) (m : Moment) (request : Request α) (caps : Capabilities α)
    (ceiling : Nat) (model : String) (desk : Desk α) :
    Except (Refusal α) (Admitted α) × Desk α :=
  match r.tiers.tierOfModel? model with
  | none => (.error (.permissionDenied (.notConfigured model)), desk)
  | some tier =>
    if ceiling < tier.ordinal then
      (.error (.permissionDenied (.aboveCeiling model tier.name caps.maxTier)), desk)
    else if !caps.permitsModel model then
      (.error (.permissionDenied (.notPermitted model)), desk)
    else match r.reserve m request caps tier model desk with
      | (.ok cost, desk) =>
        conclude m request caps
          { tier, model, estimate := cost, escalated := false, budgetConstrained := false
            usedFallback := false
            reason := (RouteReason.requested model : RouteReason α).text } desk
      | (.error rejection, desk) => (.error (.budgetExceeded rejection), desk)

/-- The model that the caller asks for and may choose. -/
def honoredModel? (request : Request α) (caps : Capabilities α) : Option String :=
  if caps.canOverrideModel then request.requestedModel else none

def route (r : Router α) (m : Moment) (request : Request α) (caps : Capabilities α)
    (desk : Desk α) : Except (Refusal α) (Admitted α) × Desk α :=
  match r.tiers.ordinalOf? caps.maxTier with
  | none => (.error (.noTierAvailable (.unknownCeiling caps.maxTier)), desk)
  | some ceiling =>
    match honoredModel? request caps with
    | some model => r.routeRequested m request caps ceiling model desk
    | none => r.routePlanned m request caps ceiling desk

/-- Where a request would be planned. Nothing is reserved or counted. -/
def preview? (r : Router α) (request : Request α) (caps : Capabilities α) : Option Preview :=
  match honoredModel? request caps with
  | some model => (r.tiers.tierOfModel? model).map fun tier => ⟨tier.name, false⟩
  | none => do
    let ceiling ← r.tiers.ordinalOf? caps.maxTier
    let plan ← Plan.make r.tiers r.settings ceiling caps request.normalizedComplexity
    return ⟨plan.chosen.name, plan.escalated⟩

end Router

end Admission
