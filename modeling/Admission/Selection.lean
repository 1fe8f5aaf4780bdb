import Admission.Config.Basic

/-!
# Selecting a model

One of the models of a tier that the caller may use, by the configured strategy.
-/

namespace Admission

/-- For every tier, how many models have been picked in turn. -/
structure Selector where
  strategy : Strategy
  cursors : Dict Nat

namespace Selector

variable {α : Type}

def new (strategy : Strategy) (tiers : TierSet α) : Selector where
  strategy := strategy
  cursors := .ofList (tiers.toList.map fun tier => (tier.name, 0))

/-- The models that the caller may use, the preferred ones first. -/
def permitted (tier : Tier α) (caps : Capabilities α) : List String :=
  tier.models.filter caps.permitsModel

/-- Take the turn of a tier. A tier without a cursor always has its first turn. -/
def turn (s : Selector) (tier : String) : Nat × Selector :=
  match s.cursors.get? tier with
  | some n => (n, { s with cursors := s.cursors.insert tier (n + 1) })
  | none => (0, s)

variable [Amount α]

/-- What ranks a model by price: its average, or the rate of its tier where it has none. -/
def priceOf (table : PriceTable α) (tier : Tier α) (model : String) : α :=
  ((table.get? model).map Price.average).getD tier.costPer1k

/-- Pick one of the models; nothing only if there is none. -/
def select (s : Selector) (table : PriceTable α) (dice : Nat) (tier : Tier α)
    (models : List String) : Option String × Selector :=
  if models.isEmpty then (none, s)
  else match s.strategy with
    | .preferenceOrder => (models.head?, s)
    | .roundRobin =>
      let (n, s) := s.turn tier.name
      (models[n % models.length]?, s)
    | .lowestCost =>
      (firstLeast? (fun a b => Amount.precedes (priceOf table tier a) (priceOf table tier b)) models, s)
    | .random => (models[dice % models.length]?, s)

end Selector

end Admission
