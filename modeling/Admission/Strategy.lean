import Admission.Json.Decode

/-!
# Strategies

How one model of a tier is picked.
-/

namespace Admission

inductive Strategy where
  /-- The first model that the caller may use. -/
  | preferenceOrder
  /-- One after the other, tier by tier. -/
  | roundRobin
  /-- The cheapest model by the price table. -/
  | lowestCost
  /-- Any model with the same chance. -/
  | random
  deriving DecidableEq, Repr, Inhabited

namespace Strategy

def all : List Strategy := [preferenceOrder, roundRobin, lowestCost, random]

def name : Strategy → String
  | preferenceOrder => "preference_order"
  | roundRobin => "round_robin"
  | lowestCost => "lowest_cost"
  | random => "random"

def toJson (s : Strategy) : Json := .str s.name

def ofJson : Decode Strategy := .oneOf (all.map fun s => (s.name, s))

end Strategy

end Admission
