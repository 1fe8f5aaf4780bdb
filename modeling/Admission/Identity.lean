import Admission.Json.Decode

/-!
# Identities

Who asks, and over which channel. Whether an identity is trusted is said by the boundary that
authenticated it; written data cannot claim it.
-/

namespace Admission

structure Identity where
  /-- Stable id within the channel. -/
  caller : String
  /-- The channel that the request came in on. -/
  channel : String
  trusted : Bool
  deriving DecidableEq, Repr, Inhabited

namespace Identity

/-- The name under which spending and request rates are kept. -/
def key (who : Identity) : String := who.channel ++ ":" ++ who.caller

def display (who : Identity) : String := who.key ++ if who.trusted then "" else " (untrusted)"

def toJson (who : Identity) : Json :=
  .obj [("caller_id", .str who.caller), ("channel", .str who.channel), ("trusted", .bool who.trusted)]

/-- What is read is never trusted. -/
def ofJson : Decode Identity :=
  .openStructure ["caller_id", "channel"] <|
    (fun caller channel => ⟨caller, channel, false⟩)
      <$> .required "caller_id" .string <*> .required "channel" .string

end Identity

end Admission
