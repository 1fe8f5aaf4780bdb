import Admission.Config.Basic

/-!
# Written configuration

The names of the settings. What is not set has its default, except that a tier needs a name, models
and a range, and a price both of its rates.
-/

namespace Admission

def ComplexityRange.ofPair : Decode (ComplexityRange Double) := fun format j =>
  match j with
  | .arr (low :: high :: rest) => do
    let low ← Decode.float format low
    let high ← Decode.float format high
    if format == .json && !rest.isEmpty then .error .malformed else .ok ⟨low, high⟩
  | _ => .error .malformed

/-- A path is written as text. -/
def optionalMember {β : Type} (name : String) (write : β → Json) (value : Option β) :
    List (String × Json) :=
  (value.map fun v => (name, write v)).toList

def TierEntry.toJson (entry : TierEntry Double) : Json :=
  .obj <| [("name", .str entry.name)] ++ optionalMember "ordinal" .nat entry.ordinal ++
    [("models", .texts entry.models),
      ("complexity_range", .arr [.float entry.range.min, .float entry.range.max]),
      ("cost_per_1k_tokens", .float entry.costPer1k),
      ("max_context_tokens", .nat entry.maxContextTokens)]

def TierEntry.ofJson : Decode (TierEntry Double) :=
  .openStructure ["name", "ordinal", "models", "complexity_range", "cost_per_1k_tokens",
      "max_context_tokens"] <|
    TierEntry.mk
      <$> .required "name" .string
      <*> .optional "ordinal" (.nat 32)
      <*> .required "models" (.listOf .string)
      <*> .required "complexity_range" ComplexityRange.ofPair
      <*> .withDefault "cost_per_1k_tokens" .float 0
      <*> .withDefault "max_context_tokens" (.nat 32) 8192

def Escalation.toJson (e : Escalation) : Json :=
  .obj <| [("enabled", .bool e.enabled), ("max_distance", .nat e.maxDistance)] ++
    optionalMember "max_per_hour" .nat e.maxPerHour

def Escalation.ofJson : Decode Escalation :=
  .openStructure ["enabled", "max_distance", "max_per_hour"] <|
    Escalation.mk
      <$> .withDefault "enabled" .bool true
      <*> .withDefault "max_distance" (.nat 32) 1
      <*> .optional "max_per_hour" (.nat 32)

def Routing.toJson (r : Routing Double) : Json :=
  .obj <| [("strategy", r.strategy.toJson)] ++ optionalMember "fallback_model" .str r.fallbackModel ++
    [("safety_margin", .float r.safetyMargin), ("escalation", r.escalation.toJson),
      ("tiers", .arr (r.tiers.map TierEntry.toJson))]

def Routing.ofJson : Decode (Routing Double) :=
  .openStructure ["strategy", "fallback_model", "safety_margin", "escalation", "tiers"] <|
    Routing.mk
      <$> .withDefault "strategy" Strategy.ofJson .preferenceOrder
      <*> .optional "fallback_model" .string
      <*> .withDefault "safety_margin" .float Routing.default.safetyMargin
      <*> .withDefault "escalation" Escalation.ofJson {}
      <*> .withDefault "tiers" (.listOf TierEntry.ofJson) TierEntry.defaults

def Budgets.toJson (b : Budgets Double) : Json :=
  .obj <| [("global_daily_limit_usd", .float b.globalDaily),
      ("global_monthly_limit_usd", .float b.globalMonthly), ("reset_hour_utc", .nat b.resetHour),
      ("persist", .bool b.persist)] ++ optionalMember "ledger_path" .str b.ledgerPath ++
    [("flush_interval_secs", .nat b.flushSeconds), ("max_tracked_identities", .nat b.maxTracked),
      ("max_pending_reservations", .nat b.maxPending)]

def Budgets.ofJson : Decode (Budgets Double) :=
  .openStructure ["global_daily_limit_usd", "global_monthly_limit_usd", "reset_hour_utc", "persist",
      "ledger_path", "flush_interval_secs", "max_tracked_identities",
      "max_pending_reservations"] <|
    Budgets.mk
      <$> .withDefault "global_daily_limit_usd" .float 0
      <*> .withDefault "global_monthly_limit_usd" .float 0
      <*> .withDefault "reset_hour_utc" (.nat 8) 0
      <*> .withDefault "persist" .bool true
      <*> .optional "ledger_path" .string
      <*> .withDefault "flush_interval_secs" (.nat 64) 30
      <*> .withDefault "max_tracked_identities" (.nat 64) 10000
      <*> .withDefault "max_pending_reservations" (.nat 64) 10000

def RateLimits.toJson (r : RateLimits) : Json :=
  .obj [("window_secs", .nat r.windowSeconds), ("max_tracked_identities", .nat r.maxTracked),
    ("max_exact_timestamps", .nat r.maxExact)]

def RateLimits.ofJson : Decode RateLimits :=
  .openStructure ["window_secs", "max_tracked_identities", "max_exact_timestamps"] <|
    RateLimits.mk
      <$> .withDefault "window_secs" (.nat 64) 60
      <*> .withDefault "max_tracked_identities" (.nat 64) 10000
      <*> .withDefault "max_exact_timestamps" (.nat 64) 1000

def Tools.toJson (t : Tools) : Json :=
  .obj (optionalMember "namespace_policy" .str t.namespacePolicy)

def Tools.ofJson : Decode Tools :=
  .openStructure ["namespace_policy"] <| Tools.mk <$> .optional "namespace_policy" .string

def Config.toJson (c : Config Double) : Json :=
  .obj [("routing", c.routing.toJson), ("budgets", c.budgets.toJson),
    ("rate_limiting", c.rateLimiting.toJson), ("permissions", c.permissions.toJson),
    ("pricing", .ofDict (c.pricing.map Price.toJson)), ("tools", c.tools.toJson)]

def Config.ofJson : Decode (Config Double) :=
  .openStructure ["routing", "budgets", "rate_limiting", "permissions", "pricing", "tools"] <|
    Config.mk
      <$> .withDefault "routing" Routing.ofJson .default
      <*> .withDefault "budgets" Budgets.ofJson .default
      <*> .withDefault "rate_limiting" RateLimits.ofJson {}
      <*> .withDefault "permissions" Permissions.ofJson .default
      <*> .withDefault "pricing" (.dictOf Price.ofJson) ∅
      <*> .withDefault "tools" Tools.ofJson {}

/-- The file of a workspace holds permissions only. -/
def Permissions.ofWorkspaceJson : Decode (Permissions Double) :=
  .openStructure ["permissions"] (.withDefault "permissions" Permissions.ofJson {})

end Admission
