import Admission.Capability

/-!
# Permission layers

One source of permissions: an override for each level, and overrides for channels and for callers.
The global configuration and the overlay of a workspace have the same shape.
-/

namespace Admission

structure Permissions (α : Type) where
  zeroTrust : Override α := {}
  standard : Override α := {}
  elevated : Override α := {}
  /-- Keyed by the bare id of the caller, on whatever channel. -/
  users : Dict (Override α) := ∅
  channels : Dict (Override α) := ∅

namespace Permissions

variable {α : Type}

def ofLevel (p : Permissions α) : Level → Override α
  | .zeroTrust => p.zeroTrust
  | .standard => p.standard
  | .elevated => p.elevated

/-- Every override with the words that name it in a message. -/
def labelled (p : Permissions α) : List (String × Override α) :=
  (Level.all.map fun level => ("permissions." ++ level.name, p.ofLevel level)) ++
    (p.users.toList.map fun (caller, o) => ("permissions.users." ++ caller, o)) ++
    p.channels.toList.map fun (channel, o) => ("permissions.channels." ++ channel, o)

/-- The terminal of a local operator is elevated by an entry for its channel. -/
def default : Permissions α :=
  { channels := Dict.empty.insert "cli" { level := some .elevated } }

def toJson (p : Permissions Double) : Json :=
  .obj [("zero_trust", p.zeroTrust.toJson), ("standard", p.standard.toJson),
    ("elevated", p.elevated.toJson), ("users", .ofDict (p.users.map Override.toJson)),
    ("channels", .ofDict (p.channels.map Override.toJson))]

def ofJson : Decode (Permissions Double) :=
  .openStructure ["zero_trust", "standard", "elevated", "users", "channels"] <|
    Permissions.mk
      <$> .withDefault "zero_trust" Override.ofJson {}
      <*> .withDefault "standard" Override.ofJson {}
      <*> .withDefault "elevated" Override.ofJson {}
      <*> .withDefault "users" (.dictOf Override.ofJson) ∅
      <*> .withDefault "channels" (.dictOf Override.ofJson) ∅

end Permissions

end Admission
