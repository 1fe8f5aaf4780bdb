import Admission.Json.Decode
import Admission.Text.Blank
import Admission.Text.Lowercase

/-!
# Permission levels

How far a caller is trusted: three levels in ascending order, each with an ordinal, a name and some
further spellings.
-/

namespace Admission

inductive Level where
  /-- Unauthenticated or unknown callers. -/
  | zeroTrust
  /-- Known users. -/
  | standard
  /-- Operators and administrators. -/
  | elevated
  deriving DecidableEq, Repr, Inhabited

inductive LevelError where
  | unknownName (name : String)
  | outOfRange (ordinal : Nat)
  deriving DecidableEq, Repr

def LevelError.message : LevelError → String
  | unknownName name =>
    "invalid permission level '" ++ name ++ "', expected: zero_trust, standard, elevated"
  | outOfRange ordinal => "permission level " ++ toString ordinal ++ " out of range 0..=2"

namespace Level

def all : List Level := [zeroTrust, standard, elevated]

def ordinal : Level → Nat
  | zeroTrust => 0
  | standard => 1
  | elevated => 2

def ofOrdinal? : Nat → Option Level
  | 0 => some zeroTrust
  | 1 => some standard
  | 2 => some elevated
  | _ => none

theorem ofOrdinal?_ordinal (level : Level) : ofOrdinal? level.ordinal = some level := by
  cases level <;> rfl

instance : LE Level := ⟨fun a b => a.ordinal ≤ b.ordinal⟩
instance (a b : Level) : Decidable (a ≤ b) := inferInstanceAs (Decidable (a.ordinal ≤ b.ordinal))
instance : Min Level := ⟨fun a b => if a ≤ b then a else b⟩

def name : Level → String
  | zeroTrust => "zero_trust"
  | standard => "standard"
  | elevated => "elevated"

def spellings : List (String × Level) :=
  [("zero_trust", zeroTrust), ("zero-trust", zeroTrust), ("zerotrust", zeroTrust), ("0", zeroTrust),
    ("standard", standard), ("user", standard), ("1", standard),
    ("elevated", elevated), ("admin", elevated), ("2", elevated)]

/-- The level of a spelling; blanks at the ends and capitals do not matter. -/
def ofText (s : String) : Except LevelError Level :=
  let name := Text.lower (Text.trim s)
  match spellings.find? fun entry => entry.1 == name with
  | some (_, level) => .ok level
  | none => .error (.unknownName name)

theorem ofText_name (level : Level) : ofText level.name = .ok level := by
  cases level <;> rfl

/-- A level is written by its name, and read from a spelling or from its ordinal. -/
def toJson (level : Level) : Json := .str level.name

def ofJson : Decode Level := fun format j =>
  match j with
  | .str s => (ofText s).mapError fun e => .refused e.message
  | j => do
    let n ← Decode.nat 8 format j
    match ofOrdinal? n with
    | some level => .ok level
    | none => .error (.refused (LevelError.outOfRange n).message)

theorem ofJson_toJson (format : Format) (level : Level) : ofJson format level.toJson = .ok level := by
  simp only [ofJson, toJson, ofText_name]
  rfl

end Level

end Admission
