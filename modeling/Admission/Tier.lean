import Admission.Amount
import Admission.Json.Decode

/-!
# Model tiers

Buckets of interchangeable models in ascending order of an ordinal. The lower the ordinal, the
cheaper and simpler the models; ranges of complexity may overlap.
-/

namespace Admission

/-- An interval of complexities, both ends included. -/
structure ComplexityRange (α : Type) where
  min : α
  max : α
  deriving DecidableEq, Repr

namespace ComplexityRange

variable {α : Type} [Amount α]

def contains (range : ComplexityRange α) (complexity : α) : Bool :=
  range.min ≤ complexity && complexity ≤ range.max

/-- How far the complexity lies outside. -/
def distance (range : ComplexityRange α) (complexity : α) : α :=
  if complexity < range.min then range.min - complexity
  else if range.max < complexity then complexity - range.max
  else 0

end ComplexityRange

structure Tier (α : Type) where
  name : String
  ordinal : Nat
  /-- Members as `provider/model`, the preferred ones first. -/
  models : List String
  range : ComplexityRange α
  /-- Blended price of a thousand tokens. -/
  costPer1k : α
  maxContextTokens : Nat

namespace Tier

def lists {α : Type} (tier : Tier α) (model : String) : Bool := tier.models.contains model

def toJson (tier : Tier Double) : Json :=
  .obj [("name", .str tier.name), ("ordinal", .int tier.ordinal),
    ("models", .arr (tier.models.map .str)),
    ("complexity_range", .obj [("min", .float tier.range.min), ("max", .float tier.range.max)]),
    ("cost_per_1k_tokens", .float tier.costPer1k),
    ("max_context_tokens", .int tier.maxContextTokens)]

/-- The range is written as a structure of its own. -/
def ofJson : Decode (Tier Double) :=
  .openStructure ["name", "ordinal", "models", "complexity_range", "cost_per_1k_tokens",
      "max_context_tokens"] <|
    Tier.mk
      <$> .required "name" .string
      <*> .required "ordinal" (.nat 32)
      <*> .required "models" (.listOf .string)
      <*> .required "complexity_range" (.openStructure ["min", "max"] <|
        ComplexityRange.mk <$> .required "min" .float <*> .required "max" .float)
      <*> .required "cost_per_1k_tokens" .float
      <*> .required "max_context_tokens" (.nat 32)

end Tier

/-- Tiers in ascending order of their ordinals. -/
structure TierSet (α : Type) where
  toList : List (Tier α)
  sorted : toList.Pairwise fun a b => a.ordinal ≤ b.ordinal

namespace TierSet

variable {α : Type}

/-- Put a tier in front of the first one whose ordinal is not lower. -/
def place (tier : Tier α) : List (Tier α) → List (Tier α)
  | [] => [tier]
  | other :: rest =>
    if tier.ordinal ≤ other.ordinal then tier :: other :: rest else other :: place tier rest

theorem mem_place {tier other : Tier α} {tiers : List (Tier α)} :
    other ∈ place tier tiers ↔ other = tier ∨ other ∈ tiers := by
  fun_induction place tier tiers <;> grind

theorem place_sorted (tier : Tier α) {tiers : List (Tier α)}
    (h : tiers.Pairwise fun a b => a.ordinal ≤ b.ordinal) :
    (place tier tiers).Pairwise fun a b => a.ordinal ≤ b.ordinal := by
  fun_induction place tier tiers with
  | case1 => simp
  | case2 other rest le =>
    refine List.pairwise_cons.2 ⟨fun b hb => ?_, h⟩
    rcases List.mem_cons.1 hb with rfl | hb
    · exact le
    · exact Nat.le_trans le (List.rel_of_pairwise_cons h hb)
  | case3 other rest gt ih =>
    refine List.pairwise_cons.2 ⟨fun b hb => ?_, ih h.of_cons⟩
    rcases mem_place.1 hb with rfl | hb
    · omega
    · exact List.rel_of_pairwise_cons h hb

def empty : TierSet α := ⟨[], .nil⟩

/-- The tiers in their order; those of one ordinal keep the order of the list. -/
def ofList : List (Tier α) → TierSet α
  | [] => empty
  | tier :: rest => ⟨place tier (ofList rest).toList, place_sorted tier (ofList rest).sorted⟩

@[simp] theorem mem_ofList {tier : Tier α} {tiers : List (Tier α)} :
    tier ∈ (ofList tiers).toList ↔ tier ∈ tiers := by
  induction tiers with
  | nil => simp [ofList, empty]
  | cons t rest ih => simp [ofList, mem_place, ih]

def get? (set : TierSet α) (name : String) : Option (Tier α) :=
  set.toList.find? fun tier => tier.name == name

def ordinalOf? (set : TierSet α) (name : String) : Option Nat := (set.get? name).map (·.ordinal)

/-- The lowest tier that lists the model. -/
def tierOfModel? (set : TierSet α) (model : String) : Option (Tier α) :=
  set.toList.find? fun tier => tier.lists model

/-- The tiers that do not lie above the ceiling. -/
def upTo (set : TierSet α) (ceiling : Nat) : List (Tier α) :=
  set.toList.filter fun tier => tier.ordinal ≤ ceiling

def size (set : TierSet α) : Nat := set.toList.length

def isEmpty (set : TierSet α) : Bool := set.toList.isEmpty

end TierSet

end Admission
