import Admission.Json.Basic

/-!
# Decoding

From a JSON tree to a value of the domain. A structure is written as an object or as an array of its
fields in their fixed order. The fields are looked at one after the other, and the first fault is
the one reported; a missing field is noticed last.
-/

namespace Admission

/-- The notation that a tree was read from. The two differ in what they let pass. -/
inductive Format where
  | json
  | toml
  deriving DecidableEq

/-- Why a tree is no value of a type. -/
inductive Fault where
  | malformed
  /-- The type refuses the value in its own words. -/
  | refused (reason : String)
  deriving DecidableEq, Repr, Inhabited

abbrev Decode (α : Type) := Format → Json → Except Fault α

/-- The parts of a structure in the order in which they are looked at. -/
structure Parts where
  format : Format
  named : List (String × Json)

abbrev Placed := Nat × Fault

/-- A reader of some of the parts. Of two faults the one in the earlier part is kept. -/
structure Fields (α : Type) where
  run : Parts → Except Placed α

namespace Fields

variable {α β : Type}

def merge (f : Except Placed (α → β)) (x : Except Placed α) : Except Placed β :=
  match f, x with
  | .ok g, .ok a => .ok (g a)
  | .ok _, .error e => .error e
  | .error e, .ok _ => .error e
  | .error e, .error e' => .error (if e'.1 < e.1 then e' else e)

instance : Functor Fields where
  map g x := ⟨fun parts => (x.run parts).map g⟩

instance : Applicative Fields where
  pure a := ⟨fun _ => .ok a⟩
  seq f x := ⟨fun parts => merge (f.run parts) ((x ()).run parts)⟩

/-- Read the part with its decoder, or what to do where it is missing. -/
def part (name : String) (decode : Decode α) (missing : Option α) : Fields α where
  run parts :=
    match parts.named.zipIdx.find? fun entry => entry.1.1 == name with
    | some ((_, value), place) => (decode parts.format value).mapError fun fault => (place, fault)
    | none =>
      match missing with
      | some a => .ok a
      | none => .error (parts.named.length, .malformed)

def required (name : String) (decode : Decode α) : Fields α := part name decode none

def withDefault (name : String) (decode : Decode α) (default : α) : Fields α :=
  part name decode (some default)

end Fields

namespace Decode

variable {α : Type}

def nullable (decode : Decode α) : Decode (Option α) := fun format j =>
  match j with
  | .null => .ok none
  | j => (decode format j).map some

end Decode

/-- A part that may be missing or `null`. -/
def Fields.optional {α : Type} (name : String) (decode : Decode α) : Fields (Option α) :=
  .part name decode.nullable (some none)

namespace Decode

variable {α β : Type}

def bool : Decode Bool := fun _ j =>
  match j with
  | .bool b => .ok b
  | _ => .error .malformed

def string : Decode String := fun _ j =>
  match j with
  | .str s => .ok s
  | _ => .error .malformed

/-- A whole number from `low` up to, but not including, `high`. -/
def intWithin (low high : Int) : Decode Int := fun _ j =>
  match j with
  | .int n => if low ≤ n ∧ n < high then .ok n else .error .malformed
  | _ => .error .malformed

def nat (bits : Nat) : Decode Nat := fun format j =>
  (intWithin 0 (Nat.pow 2 bits) format j).map Int.toNat

/-- A number, whole or not. In JSON there is no infinite one. -/
def float : Decode Double := fun format j =>
  match j with
  | .int n => .ok n
  | .float x => if format == .json && !x.isFinite then .error .malformed else .ok x
  | _ => .error .malformed

/-- Any value. Names are sorted, and what JSON cannot write becomes `null`. -/
def anything : Decode Json := fun format j =>
  if format == .json && !j.isUsable then .error .malformed else .ok j.writable.sortKeys

def listOf (decode : Decode α) : Decode (List α) := fun format j =>
  match j with
  | .arr items => items.mapM (decode format)
  | _ => .error .malformed

/-- Keys in their order. Of equal keys the last counts, and the others are decoded all the same. -/
def dictOf (decode : Decode α) : Decode (Dict α) := fun format j =>
  match j with
  | .obj members => do
    let entries ← (members.mergeSort fun m n => m.1 ≤ n.1).mapM fun (key, value) =>
      (decode format value).map fun a => (key, a)
    return .ofList entries
  | _ => .error .malformed

/-- One of the named cases, as its name or as the only member of an object. -/
def oneOf (cases : List (String × α)) : Decode α := fun format j =>
  let named (name : String) : Except Fault α :=
    match cases.find? fun entry => entry.1 == name with
    | some (_, a) => .ok a
    | none => .error .malformed
  match format, j with
  | _, .str name => named name
  | .json, .obj [(name, .null)] => named name
  | .toml, .obj [(name, .obj [])] => named name
  | .toml, .obj [(name, .arr [])] => named name
  | _, _ => .error .malformed

def repeats (names : List String) (members : List (String × Json)) : Bool :=
  names.any fun name => (members.filter fun m => m.1 == name).length > 1

/-- The place of the first part that is none of the fields. -/
def firstUnknown? (names : List String) (named : List (String × Json)) : Option Nat :=
  named.findIdx? fun part => !names.contains part.1

/-- The parts of an object by name, those of an array by position. -/
def Parts.of? (names : List String) (format : Format) : Json → Option Parts
  | .obj members => if repeats names members then none else some ⟨format, (Dict.ofList members).toList⟩
  | .arr items => some ⟨format, names.zip items⟩
  | _ => none

/-- Only JSON counts the items of an array that stands for a structure. -/
def surplus (names : List String) (format : Format) : Json → Bool
  | .arr items => format == .json && names.length < items.length
  | _ => false

/-- A structure with these fields. In a closed one an unknown name is a fault. -/
def structured (names : List String) (closed : Bool) (fields : Fields α) : Decode α :=
  fun format j =>
    match Parts.of? names format j with
    | none => .error .malformed
    | some parts =>
      let unknown := if closed then firstUnknown? names parts.named else none
      match fields.run parts, unknown with
      | .ok a, none => if surplus names format j then .error .malformed else .ok a
      | .ok _, some _ => .error .malformed
      | .error (place, fault), some u => .error (if u < place then .malformed else fault)
      | .error (_, fault), none => .error fault

/-- Fields of which any may be missing and unknown names are passed over. -/
def openStructure (names : List String) (fields : Fields α) : Decode α :=
  structured names false fields

/-- One of several structures, told apart by the text at `tag`; in an array it comes first. -/
def tagged (tag : String) (cases : List (String × Decode α)) : Decode α := fun format j =>
  let named (name : String) (rest : Json) : Except Fault α :=
    match cases.find? fun entry => entry.1 == name with
    | some (_, decode) => decode format rest
    | none => .error .malformed
  match j with
  | .obj members =>
    match members.filter fun m => m.1 == tag with
    | [(_, .str name)] => named name (.obj (members.filter fun m => m.1 != tag))
    | _ => .error .malformed
  | .arr (.str name :: rest) => named name (.arr rest)
  | _ => .error .malformed

end Decode

end Admission
