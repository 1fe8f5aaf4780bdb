import Admission.Dict
import Admission.Double

/-!
# JSON values

A value keeps the members of its objects in the order in which they were written, repeated names
included. Whole numbers of at most 64 bits are told apart from all other numbers. Text that is well
formed and still means nothing is harmless as long as nobody asks for it.
-/

namespace Admission

inductive Json where
  | null
  | bool (value : Bool)
  | int (value : Int)
  | float (value : Double)
  | str (text : String)
  | arr (items : List Json)
  | obj (members : List (String × Json))
  /-- Text with one half of a pair of code units, or an object with such a name. -/
  | unusable
  deriving Inhabited

namespace Json

/-- Whole numbers that are kept exactly: those of 64 bits, signed or unsigned. -/
def fitsWord (n : Int) : Bool := -Nat.pow 2 63 ≤ n && n < Nat.pow 2 64

mutual

/-- Members in the order of their names. Of members with one name the last stays. -/
def sortKeys : Json → Json
  | .arr items => .arr (sortItems items)
  | .obj members => .obj (Dict.ofList (sortMembers members)).toList
  | other => other

def sortItems : List Json → List Json
  | [] => []
  | item :: rest => sortKeys item :: sortItems rest

def sortMembers : List (String × Json) → List (String × Json)
  | [] => []
  | (name, value) :: rest => (name, sortKeys value) :: sortMembers rest

end

mutual

/-- Every part can be used: no number is out of the range of doubles, every text is whole. -/
def isUsable : Json → Bool
  | .float x => x.isFinite
  | .arr items => areUsable items
  | .obj members => haveUsable members
  | .unusable => false
  | _ => true

def areUsable : List Json → Bool
  | [] => true
  | item :: rest => isUsable item && areUsable rest

def haveUsable : List (String × Json) → Bool
  | [] => true
  | (_, value) :: rest => isUsable value && haveUsable rest

end

mutual

/-- Containers nest at most `depth` deep. -/
def isWithin (depth : Nat) : Json → Bool
  | .arr items => match depth with
    | 0 => false
    | depth + 1 => areWithin depth items
  | .obj members => match depth with
    | 0 => false
    | depth + 1 => haveWithin depth members
  | _ => true

def areWithin (depth : Nat) : List Json → Bool
  | [] => true
  | item :: rest => isWithin depth item && areWithin depth rest

def haveWithin (depth : Nat) : List (String × Json) → Bool
  | [] => true
  | (_, value) :: rest => isWithin depth value && haveWithin depth rest

end

mutual

/-- The value with `null` in the place of every number that JSON cannot write. -/
def writable : Json → Json
  | .float x => if x.isFinite then .float x else .null
  | .arr items => .arr (writableItems items)
  | .obj members => .obj (writableMembers members)
  | other => other

def writableItems : List Json → List Json
  | [] => []
  | item :: rest => writable item :: writableItems rest

def writableMembers : List (String × Json) → List (String × Json)
  | [] => []
  | (name, value) :: rest => (name, writable value) :: writableMembers rest

end

/-- The last member of that name. -/
def member? (j : Json) (name : String) : Option Json :=
  match j with
  | .obj members => (members.reverse.find? fun m => m.1 == name).map (·.2)
  | _ => none

end Json

end Admission
