import Admission.Config.Basic
import Admission.Refusal

/-!
# Plans

The tiers that a request is to be tried on, before budgets are looked at. Within the ceiling of the
caller the highest tier that covers the complexity is chosen; escalation may reach a bounded
distance above the ceiling; otherwise the tier nearest to the complexity is taken. Below the chosen
tier follow the lower ones.
-/

namespace Admission

structure RouterSettings (α : Type) where
  fallbackModel : Option String
  safetyMargin : α
  escalationEnabled : Bool
  maxDistance : Nat

inductive RouteReason (α : Type) where
  | within (complexity : α) (tier : String)
  | escalated (complexity : α) (ceiling tier : String)
  | nearest (complexity : α) (tier : String)
  | fallback (model : String)
  | requested (model : String)

structure Plan (α : Type) where
  chosen : Tier α
  escalated : Bool
  /-- The chosen tier, and those to try after it. -/
  attempts : List (Tier α)
  reason : RouteReason α

variable {α : Type} [Amount α]

/-- No estimate has a smaller margin than this one. -/
def leastMargin : α := 0.10

def RouterSettings.ofRouting (r : Routing α) : RouterSettings α where
  fallbackModel := r.fallbackModel
  safetyMargin := Amount.larger r.safetyMargin leastMargin
  escalationEnabled := r.escalation.enabled
  maxDistance := r.escalation.maxDistance

def RouteReason.text : RouteReason α → String
  | within c tier => "complexity " ++ Amount.fixed 2 c ++ " within " ++ tier
  | escalated c ceiling tier =>
    "complexity " ++ Amount.fixed 2 c ++ " escalated from " ++ ceiling ++ " to " ++ tier
  | nearest c tier => "complexity " ++ Amount.fixed 2 c ++ " nearest to " ++ tier
  | fallback model => "fallback model " ++ model
  | requested model => "caller override to " ++ model

namespace Plan

/-- A tier and all candidates of lower ordinal, the highest first. -/
def fallThrough (candidates : List (Tier α)) (chosen : Tier α) : List (Tier α) :=
  chosen :: candidates.reverse.filter fun t => t.ordinal < chosen.ordinal

/-- The highest candidate that covers the complexity. -/
def covering? (candidates : List (Tier α)) (complexity : α) : Option (Tier α) :=
  candidates.reverse.find? fun t => t.range.contains complexity

/-- Escalation reaches this ordinal; ordinals have 32 bits. -/
def reach (settings : RouterSettings α) (ceiling : Nat) : Nat :=
  min (ceiling + settings.maxDistance) (Nat.pow 2 32 - 1)

/-- Both the settings and the caller's record let this complexity escalate. -/
def mayEscalate (settings : RouterSettings α) (caps : Capabilities α) (complexity : α) : Bool :=
  settings.escalationEnabled && caps.escalationAllowed && caps.escalationThreshold ≤ complexity

/-- The lowest tier above the ceiling, but within reach, that covers the complexity. -/
def escalation? (tiers : TierSet α) (settings : RouterSettings α) (ceiling : Nat)
    (caps : Capabilities α) (complexity : α) : Option (Tier α) :=
  if mayEscalate settings caps complexity then
    (tiers.toList.filter fun t => ceiling < t.ordinal && t.ordinal ≤ reach settings ceiling).find?
      fun t => t.range.contains complexity
  else none

/-- Nearer to the complexity, or as near and of higher ordinal. -/
def nearer (complexity : α) (a b : Tier α) : Bool :=
  let x := a.range.distance complexity
  let y := b.range.distance complexity
  Amount.precedes x y || (!Amount.precedes y x && b.ordinal < a.ordinal)

/-- The plan for a complexity under a ceiling; none if there is no tier at all. -/
def make (tiers : TierSet α) (settings : RouterSettings α) (ceiling : Nat) (caps : Capabilities α)
    (complexity : α) : Option (Plan α) :=
  let candidates := tiers.upTo ceiling
  match covering? candidates complexity with
  | some tier =>
    some ⟨tier, false, fallThrough candidates tier, .within complexity tier.name⟩
  | none =>
    match firstLeast? (nearer complexity) candidates,
        escalation? tiers settings ceiling caps complexity with
    | none, _ => none
    | some _, some tier =>
      some ⟨tier, true, tier :: candidates.reverse, .escalated complexity caps.maxTier tier.name⟩
    | some tier, none =>
      some ⟨tier, false, fallThrough candidates tier, .nearest complexity tier.name⟩

end Plan

end Admission
