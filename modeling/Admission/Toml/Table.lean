import Admission.Json.Basic

/-!
# Tables in the making

How headers and dotted keys build up a tree of tables. A table is written in one place: what a header
has defined is not extended by dotted keys, what dotted keys have defined gets no header, and no key
is given twice.
-/

namespace Admission.Toml

/-- How a table came to be. -/
inductive Origin where
  /-- It has a header or braces of its own. -/
  | header
  /-- It leads to a table with a header. -/
  | implied
  /-- Dotted keys lead through it. -/
  | dotted
  deriving DecidableEq

inductive Entry where
  | value (value : Json)
  | table (origin : Origin) (entries : List (String × Entry))
  /-- Tables under one name, the last one first. -/
  | tables (done : List (List (String × Entry)))

abbrev Table := List (String × Entry)

mutual

def Entry.toJson : Entry → Json
  | .value value => value
  | .table _ entries => .obj (membersOf entries)
  | .tables done => .arr (itemsOf done).reverse

def membersOf : List (String × Entry) → List (String × Json)
  | [] => []
  | (key, entry) :: rest => (key, entry.toJson) :: membersOf rest

def itemsOf : List (List (String × Entry)) → List Json
  | [] => []
  | entries :: rest => .obj (membersOf entries) :: itemsOf rest

end

namespace Table

/-- Change the entry of a key. -/
def replace (key : String) (entry : Entry) (t : Table) : Table :=
  t.map fun e => if e.1 == key then (key, entry) else e

/-- Follow a path of keys and change the table at its end. On the way new tables spring up. A path of
dotted keys does not lead through a table with a header. -/
def update (dotted : Bool) (f : Origin → Table → Option Table) :
    List String → Origin → Table → Option Table
  | [], origin, t => f origin t
  | key :: rest, _, t =>
    match t.lookup key with
    | none =>
      let origin := if dotted then Origin.dotted else .implied
      (update dotted f rest origin []).map fun inner => t ++ [(key, .table origin inner)]
    | some (.table origin inner) =>
      if dotted && origin == .header then none
      else (update dotted f rest origin inner).map fun inner => t.replace key (.table origin inner)
    | some (.tables (last :: before)) =>
      (update dotted f rest .header last).map fun last => t.replace key (.tables (last :: before))
    | some _ => none

/-- Give the key at the end of a path of dotted keys its value. -/
def insert (path : List String) (key : String) (value : Json) (t : Table) : Option Table :=
  t.update true (fun origin inner =>
    if (origin == .dotted) == path.isEmpty || (inner.lookup key).isSome then none
    else some (inner ++ [(key, .value value)])) path .header

/-- Open the table of a header. -/
def openTable (path : List String) (key : String) (t : Table) : Option Table :=
  t.update false (fun _ outer =>
    match outer.lookup key with
    | none => some (outer ++ [(key, .table .header [])])
    | some (.table .implied inner) => some (Table.replace key (.table .header inner) outer)
    | some _ => none) path .header

/-- Open one more table under the name of a header in double brackets. -/
def openItem (path : List String) (key : String) (t : Table) : Option Table :=
  t.update false (fun _ outer =>
    match outer.lookup key with
    | none => some (outer ++ [(key, .tables [[]])])
    | some (.tables done) => some (Table.replace key (.tables ([] :: done)) outer)
    | some _ => none) path .header

/-- Give a key its value inside the table that was opened last under `at'`. -/
def insertAt (at' path : List String) (key : String) (value : Json) (t : Table) : Option Table :=
  t.update false (fun _ inner => Table.insert path key value inner) at' .header

def toJson (t : Table) : Json := .obj (membersOf t)

end Table

end Admission.Toml
