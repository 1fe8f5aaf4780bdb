import Admission.Json.Printer
import Admission.Refusal
import Admission.Request
import Admission.Tool

/-!
# Replies

What the server answers to a line, again as one line of JSON with its names in order.
-/

namespace Admission

inductive Reply (α : Type) where
  | admitted (decision : Decision α)
  | refused (refusal : Refusal α)
  /-- A reservation was settled at this cost. -/
  | settled (cost : α)
  /-- The reservation to settle is not open. -/
  | unknownReservation
  /-- Whether a reservation was given up. -/
  | released (done : Bool)
  | verdict (verdict : ToolVerdict)
  /-- The line is no message. -/
  | badRequest

namespace Reply

/-- What is said about a line that is no message. It is one text for all such lines and stands for the words of whoever
read the line. -/
def badRequestText : String := "the line is not a request"

def toJson : Reply Double → Json
  | admitted decision => .obj [("ok", .bool true), ("decision", decision.toJson)]
  | refused refusal =>
    .obj [("ok", .bool false), ("kind", .str refusal.kind), ("error", .str refusal.message),
      ("retryable", .bool refusal.isRetryable)]
  | settled cost => .obj [("ok", .bool true), ("cost", .float cost)]
  | unknownReservation => .obj [("ok", .bool false), ("kind", .str "unknown_reservation")]
  | released done => .obj [("ok", .bool done)]
  | verdict .allow => .obj [("ok", .bool true), ("allowed", .bool true)]
  | verdict (.deny reason) =>
    .obj [("ok", .bool true), ("allowed", .bool false), ("reason", .str reason.message)]
  | badRequest =>
    .obj [("ok", .bool false), ("kind", .str "bad_request"), ("error", .str badRequestText)]

def text (reply : Reply Double) : String := reply.toJson.sortKeys.compact

end Reply

end Admission
