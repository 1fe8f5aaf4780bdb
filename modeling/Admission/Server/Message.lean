import Admission.Json.Reader
import Admission.Request

/-!
# Messages

What a line of input asks the server for. A line is one JSON object whose `op` names the kind of
message.
-/

namespace Admission

inductive Message (α : Type) where
  /-- Admit a request. -/
  | route (caller channel : String) (complexity : α) (inputTokens : Nat) (maxOutput : Option Nat)
      (model : Option String)
  /-- Settle a reservation. -/
  | usage (id : ReservationId) (inputTokens outputTokens : Nat)
  /-- Give a reservation up. -/
  | release (id : ReservationId)
  /-- May the tool be used? -/
  | tool (caller channel tool : String)

namespace Message

/-- The input that is assumed for a request that does not say. -/
def defaultInputTokens : Nat := 1000

def routeOfJson : Decode (Message Double) :=
  .openStructure ["caller", "channel", "complexity", "input_tokens", "max_output", "model"] <|
    route
      <$> .required "caller" .string
      <*> .required "channel" .string
      <*> .required "complexity" .float
      <*> .withDefault "input_tokens" (.nat 32) defaultInputTokens
      <*> .optional "max_output" (.nat 32)
      <*> .optional "model" .string

def usageOfJson : Decode (Message Double) :=
  .openStructure ["reservation_id", "tokens_in", "tokens_out"] <|
    usage
      <$> .required "reservation_id" ReservationId.ofJson
      <*> .required "tokens_in" (.nat 32)
      <*> .required "tokens_out" (.nat 32)

def releaseOfJson : Decode (Message Double) :=
  .openStructure ["reservation_id"] <| release <$> .required "reservation_id" ReservationId.ofJson

def toolOfJson : Decode (Message Double) :=
  .openStructure ["caller", "channel", "tool"] <|
    tool <$> .required "caller" .string <*> .required "channel" .string <*> .required "tool" .string

def ofJson : Decode (Message Double) :=
  .tagged "op" [("route", routeOfJson), ("usage", usageOfJson), ("release", releaseOfJson),
    ("tool", toolOfJson)]

/-- How deep the containers of a line may nest. -/
def maxDepth : Nat := Json.maxDepth

/-- The message of a line. A part that cannot be used spoils the line, wherever it stands. -/
def ofText? (line : String) : Option (Message Double) :=
  (Json.read? line).bind fun j =>
    if j.isWithin maxDepth && j.isUsable then (ofJson .json j).toOption else none

end Message

end Admission
