import Admission.Amount
import Admission.Json.Decode

/-!
# Refusals

Why a request is not admitted. A caller may branch on the kind: try again later, ask for a cheaper
tier, or give up.
-/

namespace Admission

inductive BudgetLimit where
  | identityDaily
  | identityMonthly
  | globalDaily
  | globalMonthly
  deriving DecidableEq, Repr, Inhabited

namespace BudgetLimit

def all : List BudgetLimit := [identityDaily, identityMonthly, globalDaily, globalMonthly]

def name : BudgetLimit → String
  | identityDaily => "identity_daily"
  | identityMonthly => "identity_monthly"
  | globalDaily => "global_daily"
  | globalMonthly => "global_monthly"

def display : BudgetLimit → String
  | identityDaily => "daily"
  | identityMonthly => "monthly"
  | globalDaily => "global daily"
  | globalMonthly => "global monthly"

def ofJson : Decode BudgetLimit := .oneOf (all.map fun limit => (limit.name, limit))

end BudgetLimit

/-- A reservation that the ledger refused. -/
structure Rejection (α : Type) where
  limit : BudgetLimit
  /-- What was spent and reserved at the time. -/
  spent : α
  /-- The ceiling that would have been crossed. -/
  cap : α
  deriving DecidableEq, Repr

def Rejection.remaining {α : Type} [Amount α] (r : Rejection α) : α :=
  Amount.larger (r.cap - r.spent) 0

/-- Why a model that the caller asked for is not given. -/
inductive ModelDenial where
  | notConfigured (model : String)
  | aboveCeiling (model tier ceiling : String)
  | notPermitted (model : String)
  | other (reason : String)
  deriving DecidableEq, Repr

def ModelDenial.message : ModelDenial → String
  | notConfigured model => "model '" ++ model ++ "' is not configured in any tier"
  | aboveCeiling model tier ceiling =>
    "model '" ++ model ++ "' is in tier '" ++ tier ++ "' above '" ++ ceiling ++ "'"
  | notPermitted model => "model '" ++ model ++ "' is not permitted"
  | other reason => reason

inductive NoTier where
  | unknownCeiling (ceiling : String)
  | noneBelow (ceiling : String)
  | noModel (ceiling : String)
  | other (reason : String)
  deriving DecidableEq, Repr

def NoTier.message : NoTier → String
  | unknownCeiling ceiling => "max_tier '" ++ ceiling ++ "' is not a configured tier"
  | noneBelow ceiling => "no tiers at or below '" ++ ceiling ++ "'"
  | noModel ceiling => "no permitted model at or below tier '" ++ ceiling ++ "'"
  | other reason => reason

inductive Refusal (α : Type) where
  /-- A model is not permitted. -/
  | permissionDenied (reason : ModelDenial)
  /-- A ceiling on spending would be crossed. -/
  | budgetExceeded (rejection : Rejection α)
  /-- The window of requests is full. -/
  | rateLimited (retryAfterSeconds : Nat)
  /-- Ceiling, patterns and budget leave no tier. -/
  | noTierAvailable (reason : NoTier)
  deriving DecidableEq, Repr

namespace Refusal

variable {α : Type}

def kind : Refusal α → String
  | permissionDenied _ => "permission_denied"
  | budgetExceeded _ => "budget_exceeded"
  | rateLimited _ => "rate_limited"
  | noTierAvailable _ => "no_tier_available"

/-- The same request may succeed later. -/
def isRetryable : Refusal α → Bool
  | budgetExceeded _ | rateLimited _ => true
  | permissionDenied _ | noTierAvailable _ => false

def message [Amount α] : Refusal α → String
  | permissionDenied reason => "Permission denied: " ++ reason.message
  | budgetExceeded r =>
    "Budget exceeded: " ++ r.limit.display ++ " limit reached (spent $" ++ Amount.fixed 4 r.spent ++
      " of $" ++ Amount.fixed 4 r.cap ++ ")"
  | rateLimited seconds => "Rate limited, retry after " ++ toString seconds ++ "s"
  | noTierAvailable reason => "No tier available: " ++ reason.message

end Refusal

end Admission
