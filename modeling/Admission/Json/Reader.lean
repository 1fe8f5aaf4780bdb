import Admission.Json.Token

/-!
# Reading JSON

Tokens become a value on a stack of unfinished arrays and objects.
-/

namespace Admission.Json

/-- Members of an object with their names as they were read, the last one first. -/
abbrev Members := List (Option String × Json)

/-- A container of which some parts are read, the last one first. -/
inductive Frame where
  | items (done : List Json)
  | members (done : Members) (name : Option String)

inductive Expect where
  | value
  /-- A value or the end of an array that has just begun. -/
  | firstItem
  /-- A name or the end of an object that has just begun. -/
  | firstName (done : Members)
  | name (done : Members)
  | colon (done : Members) (name : Option String)
  | separator
  | nothing (value : Json)

structure Build where
  stack : List Frame
  expect : Expect

/-- The object of these members, if they all have names. -/
def ofMembers (done : Members) : Json :=
  match done.reverse.mapM fun (name, value) => name.map (·, value) with
  | some members => .obj members
  | none => .unusable

/-- Hand a finished value to the innermost container. -/
def Build.accept (stack : List Frame) (value : Json) : Build :=
  match stack with
  | [] => ⟨[], .nothing value⟩
  | .items done :: rest => ⟨.items (value :: done) :: rest, .separator⟩
  | .members done name :: rest => ⟨.members ((name, value) :: done) name :: rest, .separator⟩

def Build.start (stack : List Frame) : Token → Option Build
  | .str text => some (.accept stack ((text.map Json.str).getD .unusable))
  | .atom value => some (.accept stack value)
  | .openArray => some ⟨.items [] :: stack, .firstItem⟩
  | .openObject => some ⟨stack, .firstName []⟩
  | _ => none

def Build.step (b : Build) (token : Token) : Option Build :=
  match b.expect, token, b.stack with
  | .value, token, stack => Build.start stack token
  | .firstItem, .closeArray, .items done :: rest => some (.accept rest (.arr done.reverse))
  | .firstItem, token, stack => Build.start stack token
  | .firstName done, .closeObject, stack => some (.accept stack (ofMembers done))
  | .firstName done, .str name, stack => some ⟨stack, .colon done name⟩
  | .name done, .str name, stack => some ⟨stack, .colon done name⟩
  | .colon done name, .colon, stack => some ⟨.members done name :: stack, .value⟩
  | .separator, .comma, .items done :: rest => some ⟨.items done :: rest, .value⟩
  | .separator, .closeArray, .items done :: rest => some (.accept rest (.arr done.reverse))
  | .separator, .comma, .members done _ :: rest => some ⟨rest, .name done⟩
  | .separator, .closeObject, .members done _ :: rest => some (.accept rest (ofMembers done))
  | _, _, _ => none

def Build.run (b : Build) (tokens : List Token) : Option Build := tokens.foldlM Build.step b

/-- The value that the tokens write, if they write exactly one. -/
def ofTokens? (tokens : List Token) : Option Json :=
  match Build.run ⟨[], .value⟩ tokens with
  | some ⟨_, .nothing value⟩ => some value
  | _ => none

/-- The value of a text. Numbers out of the range of doubles are read as infinite. -/
def read? (text : String) : Option Json := (tokens? text.toList).bind ofTokens?

/-- How deep the containers of a text may nest where they are not passed over. -/
def maxDepth : Nat := 127

end Admission.Json
