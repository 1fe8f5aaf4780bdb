import Admission.Extremum
import Admission.Request

/-!
# Prices

What a model charges for a thousand tokens in and a thousand tokens out. A model that has no entry
of its own is priced like the longest known name that its own name begins with.
-/

namespace Admission

structure Price (α : Type) where
  inputPer1k : α
  outputPer1k : α
  deriving DecidableEq, Repr

namespace Price

variable {α : Type} [Amount α]

def blended (per1k : α) : Price α := ⟨per1k, per1k⟩

def cost (p : Price α) (inputTokens outputTokens : Nat) : α :=
  ((inputTokens : α) * p.inputPer1k + (outputTokens : α) * p.outputPer1k) / 1000.0

def average (p : Price α) : α := (p.inputPer1k + p.outputPer1k) / 2.0

def toJson (p : Price Double) : Json :=
  .obj [("input_per_1k", .float p.inputPer1k), ("output_per_1k", .float p.outputPer1k)]

def ofJson : Decode (Price Double) :=
  .openStructure ["input_per_1k", "output_per_1k"] <|
    Price.mk <$> .required "input_per_1k" .float <*> .required "output_per_1k" .float

end Price

/-- Prices by the full name of the model. -/
structure PriceTable (α : Type) where
  prices : Dict (Price α)

namespace PriceTable

variable {α : Type}

def empty : PriceTable α := ⟨∅⟩

def set (table : PriceTable α) (model : String) (price : Price α) : PriceTable α :=
  ⟨table.prices.insert model price⟩

/-- An entry of the table is for the same provider and begins the model's own name. -/
def begins (model entry : String) : Bool :=
  let (provider, name) := splitModel model
  let (entryProvider, entryName) := splitModel entry
  entryProvider == provider && entryName.toList.isPrefixOf name.toList

def get? (table : PriceTable α) (model : String) : Option (Price α) :=
  match table.prices.get? model with
  | some price => some price
  | none =>
    (lastGreatest? (fun a b => a.1.utf8ByteSize < b.1.utf8ByteSize)
      (table.prices.toList.filter fun entry => begins model entry.1)).map (·.2)

variable [Amount α]

/-- The prices that are known without any configuration. -/
def defaults : PriceTable α :=
  ⟨.ofList
    [("anthropic/claude-opus-4", ⟨0.015, 0.075⟩), ("anthropic/claude-sonnet-4", ⟨0.003, 0.015⟩),
      ("anthropic/claude-3.5-haiku", ⟨0.0008, 0.004⟩), ("openai/o1", ⟨0.015, 0.06⟩),
      ("openai/gpt-4o", ⟨0.0025, 0.01⟩), ("openai/gpt-4o-mini", ⟨0.00015, 0.0006⟩),
      ("groq/llama-3.1-8b", ⟨0.00005, 0.00008⟩),
      ("openrouter/meta-llama/llama-3.1-8b", ⟨0.000055, 0.000055⟩)]⟩

/-- The configured prices over the known ones. -/
def configured (prices : Dict (Price α)) : PriceTable α := ⟨defaults.prices.overlay prices⟩

def cost? (table : PriceTable α) (model : String) (inputTokens outputTokens : Nat) : Option α :=
  (table.get? model).map fun price => price.cost inputTokens outputTokens

/-- The cost at the model's price, or at the given rate where it has none. -/
def costOrBlended (table : PriceTable α) (model : String) (inputTokens outputTokens : Nat)
    (per1k : α) : α :=
  ((table.get? model).getD (.blended per1k)).cost inputTokens outputTokens

end PriceTable

end Admission
