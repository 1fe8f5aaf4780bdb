import Admission.Text.Blank

/-!
# Model patterns

A pattern is `*`, which matches every model, or a start followed by `*`, or the name of one model.
A star in any other place stands for itself.
-/

namespace Admission.Pattern

/-- The part in front of a final star. -/
def stem? (pattern : List Char) : Option (List Char) :=
  if pattern.getLast? == some '*' then some pattern.dropLast else none

/-- The pattern without the blanks at its ends matches the model. -/
def matchesModel (pattern model : String) : Bool :=
  let p := Text.trim pattern
  if p == "*" then true
  else match stem? p.toList with
    | some stem => if stem.contains '*' then p == model else stem.isPrefixOf model.toList
    | none => p == model

def anyMatches (patterns : List String) (model : String) : Bool :=
  patterns.any fun pattern => matchesModel pattern model

/-- A refusal wins; nothing is permitted that is not allowed somewhere. -/
def permits (allow deny : List String) (model : String) : Bool :=
  !anyMatches deny model && anyMatches allow model

end Admission.Pattern
