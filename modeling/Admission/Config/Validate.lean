import Admission.Config.Basic

/-!
# Valid configuration

The checks that a configuration passes before it is used. They are made in a fixed order, and the
first one that fails is reported.
-/

namespace Admission

inductive Invalid where
  | noTiers
  | duplicateTier (name : String)
  | duplicateOrdinal (name : String) (ordinal : Nat)
  | badRange (tier : String)
  | negativeTierCost (tier : String)
  | noModels (tier : String)
  | unknownFallback (model : String)
  | negativeMargin
  | escalationsPerHour
  | namespacePolicy
  | badResetHour
  | negativeGlobalLimit
  | zeroWindow
  | zeroTracked
  | zeroPending
  | zeroFlush
  | negativePrice (model : String)
  | undefinedBuiltinTier (level : Level) (tier : String)
  | undefinedTier (label tier : String)
  | badThreshold (label : String)
  | negativeBudget (label : String)
  /-- The reset hour of the environment is none. -/
  | notAnHour (text : String)
  deriving DecidableEq, Repr

def Invalid.message : Invalid → String
  | noTiers => "routing.tiers must not be empty"
  | duplicateTier name => "duplicate tier name '" ++ name ++ "'"
  | duplicateOrdinal name ordinal => "tier '" ++ name ++ "' reuses ordinal " ++ toString ordinal
  | badRange tier => "tier '" ++ tier ++ "' complexity_range must satisfy 0 <= min <= max <= 1"
  | negativeTierCost tier => "tier '" ++ tier ++ "' cost_per_1k_tokens must be >= 0"
  | noModels tier => "tier '" ++ tier ++ "' must list at least one model"
  | unknownFallback model => "fallback_model '" ++ model ++ "' is not a member of any tier"
  | negativeMargin => "routing.safety_margin must be >= 0"
  | escalationsPerHour => "routing.escalation.max_per_hour is reserved and not supported yet"
  | namespacePolicy => "tools.namespace_policy is reserved and not supported yet"
  | badResetHour => "budgets.reset_hour_utc must be between 0 and 23"
  | negativeGlobalLimit => "global budget limits must be >= 0"
  | zeroWindow => "rate_limiting.window_secs must be > 0"
  | zeroTracked => "max_tracked_identities must be > 0"
  | zeroPending => "budgets.max_pending_reservations must be > 0"
  | zeroFlush => "budgets.flush_interval_secs must be > 0"
  | negativePrice model => "pricing for '" ++ model ++ "' must be >= 0"
  | undefinedBuiltinTier level tier =>
    "built-in " ++ level.name ++ " ceiling tier '" ++ tier ++ "' is not defined; set permissions." ++
      level.name ++ ".max_tier"
  | undefinedTier label tier => label ++ ".max_tier '" ++ tier ++ "' is not a defined tier"
  | badThreshold label => label ++ ".escalation_threshold must be between 0 and 1"
  | negativeBudget label => label ++ " cost budgets must be >= 0"
  | notAnHour text => "TOLLGATE_RESET_HOUR '" ++ text ++ "' is not an hour"

variable {α : Type} [Amount α]

def require (ok : Bool) (fault : Invalid) : Except Invalid Unit :=
  if ok then .ok () else .error fault

def inUnit (x : α) : Bool := 0 ≤ x && x ≤ 1.0

/-- An undefined number is not negative. -/
def nonNegative (x : α) : Bool := !decide (x < 0)

/-- One tier beside the ones before it. -/
def checkTier (before : List (Tier α)) (tier : Tier α) : Except Invalid Unit := do
  require (!before.any fun t => t.name == tier.name) (.duplicateTier tier.name)
  require (!before.any fun t => t.ordinal == tier.ordinal) (.duplicateOrdinal tier.name tier.ordinal)
  require (inUnit tier.range.min && inUnit tier.range.max && !decide (tier.range.max < tier.range.min))
    (.badRange tier.name)
  require (nonNegative tier.costPer1k) (.negativeTierCost tier.name)
  require (!tier.models.isEmpty) (.noModels tier.name)

def checkTiers (before : List (Tier α)) : List (Tier α) → Except Invalid Unit
  | [] => .ok ()
  | tier :: rest => do
    checkTier before tier
    checkTiers (before ++ [tier]) rest

/-- One override of a permission layer. -/
def checkOverride (tiers : TierSet α) (label : String) (o : Override α) : Except Invalid Unit := do
  match o.maxTier with
  | some tier => require (tiers.get? tier).isSome (.undefinedTier label tier)
  | none => .ok ()
  require (o.escalationThreshold.all inUnit) (.badThreshold label)
  require (o.dailyBudget.all nonNegative && o.monthlyBudget.all nonNegative) (.negativeBudget label)

def checkLayer (tiers : TierSet α) (p : Permissions α) : Except Invalid Unit :=
  p.labelled.forM fun (label, o) => checkOverride tiers label o

/-- The ceiling of a level is a tier even where the configuration does not set it. -/
def checkBuiltin (tiers : TierSet α) (p : Permissions α) (level : Level) : Except Invalid Unit :=
  let tier := (Capabilities.builtin level : Capabilities α).maxTier
  require ((p.ofLevel level).maxTier.isSome || (tiers.get? tier).isSome)
    (.undefinedBuiltinTier level tier)

def Config.validate (c : Config α) : Except Invalid Unit := do
  require (!c.routing.tiers.isEmpty) .noTiers
  checkTiers [] (c.routing.tiers.zipIdx.map fun (entry, position) => entry.toTier position)
  let tiers := c.routing.tierSet
  match c.routing.fallbackModel with
  | some model => require (tiers.tierOfModel? model).isSome (.unknownFallback model)
  | none => .ok ()
  require (nonNegative c.routing.safetyMargin) .negativeMargin
  require c.routing.escalation.maxPerHour.isNone .escalationsPerHour
  require c.tools.namespacePolicy.isNone .namespacePolicy
  require (c.budgets.resetHour ≤ 23) .badResetHour
  require (nonNegative c.budgets.globalDaily && nonNegative c.budgets.globalMonthly)
    .negativeGlobalLimit
  require (c.rateLimiting.windowSeconds != 0) .zeroWindow
  require (c.rateLimiting.maxTracked != 0 && c.budgets.maxTracked != 0) .zeroTracked
  require (c.budgets.maxPending != 0) .zeroPending
  require (c.budgets.flushSeconds != 0) .zeroFlush
  c.pricing.toList.forM fun (model, price) =>
    require (nonNegative price.inputPer1k && nonNegative price.outputPer1k) (.negativePrice model)
  Level.all.forM (checkBuiltin tiers c.permissions)
  checkLayer tiers c.permissions

end Admission
