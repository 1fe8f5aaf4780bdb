/-!
# Pieces

A text cut at every mark, and in particular into its lines.
-/

namespace Admission.Text

/-- What stands between the marks: one piece more than there are marks. -/
def pieces (mark : Char) : List Char → List (List Char)
  | [] => [[]]
  | c :: rest =>
    if c == mark then [] :: pieces mark rest
    else match pieces mark rest with
      | piece :: others => (c :: piece) :: others
      | [] => [[c]]

theorem pieces_ne_nil (mark : Char) (cs : List Char) : pieces mark cs ≠ [] := by
  cases cs with
  | nil => exact List.cons_ne_nil _ _
  | cons c rest =>
    unfold pieces
    split
    · exact List.cons_ne_nil _ _
    · split <;> exact List.cons_ne_nil _ _

/-- The lines of a text. The last one need not have a break at its end. -/
def lines (text : String) : List String :=
  let all := pieces '\n' text.toList
  let all := if all.getLast? == some [] then all.dropLast else all
  all.map String.ofList

example : lines "a\n\nb\n" = ["a", "", "b"] ∧ lines "a" = ["a"] ∧ lines "" = [] := by
  decide +kernel

end Admission.Text
