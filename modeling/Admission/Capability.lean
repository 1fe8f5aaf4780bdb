import Admission.Amount
import Admission.Json.Reader
import Admission.Level
import Admission.Pattern

/-!
# Capabilities

What one caller may do, and what one layer of configuration says about it. In an override a field
that is not set leaves the matter open, while an empty list is a list.
-/

namespace Admission

/-- The resolved permissions of a caller. -/
structure Capabilities (α : Type) where
  level : Level
  /-- The highest tier within reach without escalation. -/
  maxTier : String
  modelAllow : List String
  modelDeny : List String
  toolAllow : List String
  toolDeny : List String
  maxContextTokens : Nat
  maxOutputTokens : Nat
  /-- Requests per window; 0 is no limit. -/
  rateLimit : Nat
  streamingAllowed : Bool
  escalationAllowed : Bool
  /-- The complexity from which on escalation may happen. -/
  escalationThreshold : α
  canOverrideModel : Bool
  /-- Spending per day; 0 is no limit. -/
  dailyBudget : α
  /-- Spending per month; 0 is no limit. -/
  monthlyBudget : α
  /-- Dimensions that this library does not know. -/
  extensions : Dict Json

/-- What one layer says about the permissions of a caller. -/
structure Override (α : Type) where
  level : Option Level := none
  maxTier : Option String := none
  modelAllow : Option (List String) := none
  modelDeny : Option (List String) := none
  toolAllow : Option (List String) := none
  toolDeny : Option (List String) := none
  maxContextTokens : Option Nat := none
  maxOutputTokens : Option Nat := none
  rateLimit : Option Nat := none
  streamingAllowed : Option Bool := none
  escalationAllowed : Option Bool := none
  escalationThreshold : Option α := none
  canOverrideModel : Option Bool := none
  dailyBudget : Option α := none
  monthlyBudget : Option α := none
  extensions : Option (Dict Json) := none

/-- Tools of a known user. -/
def standardTools : List String :=
  ["read_file", "write_file", "edit_file", "list_directory", "web_search", "web_fetch", "message"]

namespace Capabilities

variable {α : Type}

/-- The permissions of a level where no configuration says otherwise. -/
def builtin [Amount α] : Level → Capabilities α
  | .zeroTrust =>
    { level := .zeroTrust, maxTier := "free", modelAllow := ["*"], modelDeny := [], toolAllow := [],
      toolDeny := [], maxContextTokens := 4096, maxOutputTokens := 1024, rateLimit := 10,
      streamingAllowed := false, escalationAllowed := false, escalationThreshold := 1.0,
      canOverrideModel := false, dailyBudget := 0.10, monthlyBudget := 2.00, extensions := ∅ }
  | .standard =>
    { level := .standard, maxTier := "standard", modelAllow := ["*"], modelDeny := [],
      toolAllow := standardTools, toolDeny := [], maxContextTokens := 16384,
      maxOutputTokens := 4096, rateLimit := 60, streamingAllowed := true,
      escalationAllowed := true, escalationThreshold := 0.6, canOverrideModel := false,
      dailyBudget := 5.00, monthlyBudget := 100.00, extensions := ∅ }
  | .elevated =>
    { level := .elevated, maxTier := "elite", modelAllow := ["*"], modelDeny := [],
      toolAllow := ["*"], toolDeny := [], maxContextTokens := 200000, maxOutputTokens := 16384,
      rateLimit := 0, streamingAllowed := true, escalationAllowed := true,
      escalationThreshold := 0, canOverrideModel := true, dailyBudget := 0, monthlyBudget := 0,
      extensions := ∅ }

def permitsModel (caps : Capabilities α) (model : String) : Bool :=
  Pattern.permits caps.modelAllow caps.modelDeny model

/-- The list of tools grants every tool. -/
def allowsAllTools (caps : Capabilities α) : Bool := caps.toolAllow.contains "*"

end Capabilities

def Json.texts (names : List String) : Json := .arr (names.map .str)

def Json.nat (n : Nat) : Json := .int n

def Json.ofDict (d : Dict Json) : Json := .obj d.toList

def capabilityFields : List String :=
  ["level", "max_tier", "model_allow", "model_deny", "tool_allow", "tool_deny",
    "max_context_tokens", "max_output_tokens", "rate_limit", "streaming_allowed",
    "escalation_allowed", "escalation_threshold", "can_override_model", "cost_budget_daily",
    "cost_budget_monthly", "extensions"]

/-- The members that permissions have. -/
def Json.capabilityMembers : Json → Json
  | .obj members => .obj (members.filter fun m => capabilityFields.contains m.1)
  | other => other

/-- What a text says of permissions. Members that are passed over may nest as deep as they like. -/
def Decode.capabilityText? {β : Type} (decode : Decode β) (text : String) : Option β :=
  (Json.read? text).bind fun j =>
    if j.capabilityMembers.isWithin Json.maxDepth then (decode .json j).toOption else none

def Capabilities.toJson (caps : Capabilities Double) : Json :=
  .obj [("level", caps.level.toJson), ("max_tier", .str caps.maxTier),
    ("model_allow", .texts caps.modelAllow), ("model_deny", .texts caps.modelDeny),
    ("tool_allow", .texts caps.toolAllow), ("tool_deny", .texts caps.toolDeny),
    ("max_context_tokens", .nat caps.maxContextTokens),
    ("max_output_tokens", .nat caps.maxOutputTokens), ("rate_limit", .nat caps.rateLimit),
    ("streaming_allowed", .bool caps.streamingAllowed),
    ("escalation_allowed", .bool caps.escalationAllowed),
    ("escalation_threshold", .float caps.escalationThreshold),
    ("can_override_model", .bool caps.canOverrideModel),
    ("cost_budget_daily", .float caps.dailyBudget),
    ("cost_budget_monthly", .float caps.monthlyBudget), ("extensions", .ofDict caps.extensions)]

/-- Only `extensions` may be missing. -/
def Capabilities.ofJson : Decode (Capabilities Double) :=
  .openStructure capabilityFields <|
    Capabilities.mk
      <$> .required "level" Level.ofJson
      <*> .required "max_tier" .string
      <*> .required "model_allow" (.listOf .string)
      <*> .required "model_deny" (.listOf .string)
      <*> .required "tool_allow" (.listOf .string)
      <*> .required "tool_deny" (.listOf .string)
      <*> .required "max_context_tokens" (.nat 32)
      <*> .required "max_output_tokens" (.nat 32)
      <*> .required "rate_limit" (.nat 32)
      <*> .required "streaming_allowed" .bool
      <*> .required "escalation_allowed" .bool
      <*> .required "escalation_threshold" .float
      <*> .required "can_override_model" .bool
      <*> .required "cost_budget_daily" .float
      <*> .required "cost_budget_monthly" .float
      <*> .withDefault "extensions" (.dictOf .anything) ∅

def Capabilities.ofText? : String → Option (Capabilities Double) := ofJson.capabilityText?

namespace Override

/-- A field that is written only where it is set. -/
def member? {β : Type} (name : String) (write : β → Json) (field : Option β) :
    Option (String × Json) :=
  field.map fun value => (name, write value)

def toJson (layer : Override Double) : Json :=
  .obj <| List.filterMap id
    [member? "level" Level.toJson layer.level, member? "max_tier" .str layer.maxTier,
      member? "model_allow" .texts layer.modelAllow, member? "model_deny" .texts layer.modelDeny,
      member? "tool_allow" .texts layer.toolAllow, member? "tool_deny" .texts layer.toolDeny,
      member? "max_context_tokens" .nat layer.maxContextTokens,
      member? "max_output_tokens" .nat layer.maxOutputTokens,
      member? "rate_limit" .nat layer.rateLimit,
      member? "streaming_allowed" .bool layer.streamingAllowed,
      member? "escalation_allowed" .bool layer.escalationAllowed,
      member? "escalation_threshold" .float layer.escalationThreshold,
      member? "can_override_model" .bool layer.canOverrideModel,
      member? "cost_budget_daily" .float layer.dailyBudget,
      member? "cost_budget_monthly" .float layer.monthlyBudget,
      member? "extensions" .ofDict layer.extensions]

/-- Every field may be missing; a name that is none of them is a fault. -/
def ofJson : Decode (Override Double) :=
  .structured capabilityFields true <|
    Override.mk
      <$> .optional "level" Level.ofJson
      <*> .optional "max_tier" .string
      <*> .optional "model_allow" (.listOf .string)
      <*> .optional "model_deny" (.listOf .string)
      <*> .optional "tool_allow" (.listOf .string)
      <*> .optional "tool_deny" (.listOf .string)
      <*> .optional "max_context_tokens" (.nat 32)
      <*> .optional "max_output_tokens" (.nat 32)
      <*> .optional "rate_limit" (.nat 32)
      <*> .optional "streaming_allowed" .bool
      <*> .optional "escalation_allowed" .bool
      <*> .optional "escalation_threshold" .float
      <*> .optional "can_override_model" .bool
      <*> .optional "cost_budget_daily" .float
      <*> .optional "cost_budget_monthly" .float
      <*> .optional "extensions" (.dictOf .anything)

def ofText? : String → Option (Override Double) := ofJson.capabilityText?

def isEmpty {α : Type} (o : Override α) : Bool :=
  o.level.isNone && o.maxTier.isNone && o.modelAllow.isNone && o.modelDeny.isNone &&
    o.toolAllow.isNone && o.toolDeny.isNone && o.maxContextTokens.isNone &&
    o.maxOutputTokens.isNone && o.rateLimit.isNone && o.streamingAllowed.isNone &&
    o.escalationAllowed.isNone && o.escalationThreshold.isNone && o.canOverrideModel.isNone &&
    o.dailyBudget.isNone && o.monthlyBudget.isNone && o.extensions.isNone

end Override

end Admission
