import Admission.Permissions
import Admission.Price
import Admission.Strategy
import Admission.Tier

/-!
# Configuration

Everything that can be set, with its defaults.
-/

namespace Admission

structure TierEntry (α : Type) where
  name : String
  /-- Without one the tier has its position in the list. -/
  ordinal : Option Nat := none
  models : List String
  range : ComplexityRange α
  costPer1k : α
  maxContextTokens : Nat

structure Escalation where
  enabled : Bool := true
  /-- How far above the ceiling escalation may reach. -/
  maxDistance : Nat := 1
  /-- Kept free for a limit on escalations. -/
  maxPerHour : Option Nat := none
  deriving DecidableEq, Repr

structure Routing (α : Type) where
  strategy : Strategy
  /-- The model to fall back on where no tier fits the budget. -/
  fallbackModel : Option String
  /-- What is added to every estimate of a cost, as a share of it. -/
  safetyMargin : α
  escalation : Escalation
  tiers : List (TierEntry α)

structure Budgets (α : Type) where
  /-- Spending of all callers in a day; 0 is no limit. -/
  globalDaily : α
  /-- Spending of all callers in a month; 0 is no limit. -/
  globalMonthly : α
  /-- The hour in UTC at which a day begins. -/
  resetHour : Nat
  persist : Bool
  ledgerPath : Option String
  flushSeconds : Nat
  maxTracked : Nat
  maxPending : Nat

structure RateLimits where
  windowSeconds : Nat := 60
  maxTracked : Nat := 10000
  /-- Limits above this one are watched by counters. -/
  maxExact : Nat := 1000
  deriving DecidableEq, Repr

structure Tools where
  /-- Kept free for tools of equal names. -/
  namespacePolicy : Option String := none
  deriving DecidableEq, Repr

structure Config (α : Type) where
  routing : Routing α
  budgets : Budgets α
  rateLimiting : RateLimits
  permissions : Permissions α
  pricing : Dict (Price α)
  tools : Tools

variable {α : Type}

def TierEntry.toTier (entry : TierEntry α) (position : Nat) : Tier α where
  name := entry.name
  ordinal := entry.ordinal.getD position
  models := entry.models
  range := entry.range
  costPer1k := entry.costPer1k
  maxContextTokens := entry.maxContextTokens

def Routing.tierSet (routing : Routing α) : TierSet α :=
  .ofList (routing.tiers.zipIdx.map fun (entry, position) => entry.toTier position)

variable [Amount α]

def TierEntry.defaults : List (TierEntry α) :=
  [{ name := "free", models := ["groq/llama-3.1-8b", "openrouter/meta-llama/llama-3.1-8b"]
     range := ⟨0, 0.3⟩, costPer1k := 0, maxContextTokens := 8192 },
    { name := "standard", models := ["anthropic/claude-3.5-haiku", "openai/gpt-4o-mini"]
      range := ⟨0, 0.7⟩, costPer1k := 0.001, maxContextTokens := 16384 },
    { name := "premium", models := ["anthropic/claude-sonnet-4", "openai/gpt-4o"]
      range := ⟨0.3, 1.0⟩, costPer1k := 0.01, maxContextTokens := 128000 },
    { name := "elite", models := ["anthropic/claude-opus-4", "openai/o1"]
      range := ⟨0.7, 1.0⟩, costPer1k := 0.05, maxContextTokens := 200000 }]

def Routing.default : Routing α where
  strategy := .preferenceOrder
  fallbackModel := none
  safetyMargin := 0.15
  escalation := {}
  tiers := TierEntry.defaults

def Budgets.default : Budgets α where
  globalDaily := 0
  globalMonthly := 0
  resetHour := 0
  persist := true
  ledgerPath := none
  flushSeconds := 30
  maxTracked := 10000
  maxPending := 10000

def Config.default : Config α where
  routing := .default
  budgets := .default
  rateLimiting := {}
  permissions := .default
  pricing := ∅
  tools := {}

end Admission
