import Mathlib
import Admission.Json.Printer

/-!
# Values on one line

A value that is written compactly has no line break in it: a text in it has its line breaks escaped, and
nothing else has any.
-/

namespace Admission

theorem Decimal.newline_not_mem_digits (n : Nat) : '\n' ∉ Decimal.digits n := by
  intro h
  have hdigit := Nat.isDigit_of_mem_toDigits (by decide) (by decide) h
  exact absurd hdigit (by decide)

namespace Json

open Decimal (newline_not_mem_digits)

/-! ## Numbers -/

theorem newline_not_mem_placed (ds : List Char) (point : Int) (h : '\n' ∉ ds) :
    '\n' ∉ placed ds point := by
  have htake : ∀ n, '\n' ∉ ds.take n := fun n hmem => h (List.mem_of_mem_take hmem)
  have hdrop : ∀ n, '\n' ∉ ds.drop n := fun n hmem => h (List.mem_of_mem_drop hmem)
  have htail : '\n' ∉ ds.tail := fun hmem => h (List.mem_of_mem_tail hmem)
  unfold placed
  dsimp only
  split_ifs <;> simp [h, htake, hdrop, htail, newline_not_mem_digits, List.mem_replicate]

theorem newline_not_mem_floatChars (x : Double) : '\n' ∉ floatChars x := by
  unfold floatChars
  split
  · next negative m e _ =>
    have hplaced : ∀ n point, '\n' ∉ placed (Decimal.digits n) point := fun n point =>
      newline_not_mem_placed _ _ (newline_not_mem_digits n)
    split_ifs <;> simp [hplaced]
  · decide

theorem newline_not_mem_intChars (n : Int) : '\n' ∉ intChars n := by
  cases n with
  | ofNat n => exact newline_not_mem_digits n
  | negSucc n =>
    unfold intChars
    simp [newline_not_mem_digits]

/-! ## Texts -/

theorem newline_not_mem_controlEscape (c : Char) (h : c.toNat < 0x20) : '\n' ∉ controlEscape c := by
  have hdigit : ∀ n < 16, Nat.digitChar n ≠ '\n' := by decide
  have hhigh := hdigit (c.toNat / 16) (by omega)
  have hlow := hdigit (c.toNat % 16) (by omega)
  unfold controlEscape
  simp [hhigh.symm, hlow.symm]

theorem newline_not_mem_escapeChar (c : Char) : '\n' ∉ escapeChar c := by
  unfold escapeChar
  split
  case h_8 hnewline _ _ =>
    split_ifs with hcontrol
    · exact newline_not_mem_controlEscape c hcontrol
    · exact fun hmem => hnewline (List.mem_singleton.mp hmem).symm
  all_goals decide

theorem newline_not_mem_stringChars (s : String) : '\n' ∉ stringChars s := by
  unfold stringChars
  simp [newline_not_mem_escapeChar]

/-! ## Values -/

theorem newline_not_mem_atomChars (j : Json) : '\n' ∉ atomChars j := by
  unfold atomChars
  split
  · decide
  · decide
  · exact newline_not_mem_intChars _
  · exact newline_not_mem_floatChars _
  · exact newline_not_mem_stringChars _
  · decide

mutual

theorem newline_not_mem_compactChars : (j : Json) → '\n' ∉ compactChars j
  | .arr items => by
    simp [compactChars, newline_not_mem_compactItems items]
  | .obj members => by
    simp [compactChars, newline_not_mem_compactMembers members]
  | .null => newline_not_mem_atomChars .null
  | .bool value => newline_not_mem_atomChars (.bool value)
  | .int n => newline_not_mem_atomChars (.int n)
  | .float x => newline_not_mem_atomChars (.float x)
  | .str s => newline_not_mem_atomChars (.str s)
  | .unusable => newline_not_mem_atomChars .unusable

theorem newline_not_mem_compactItems : (items : List Json) → '\n' ∉ compactItems items
  | [] => List.not_mem_nil
  | [item] => newline_not_mem_compactChars item
  | item :: next :: rest => by
    simp [compactItems, newline_not_mem_compactChars item, newline_not_mem_compactItems (next :: rest)]

theorem newline_not_mem_compactMembers :
    (members : List (String × Json)) → '\n' ∉ compactMembers members
  | [] => List.not_mem_nil
  | [(name, value)] => by
    simp [compactMembers, newline_not_mem_stringChars name, newline_not_mem_compactChars value]
  | (name, value) :: next :: rest => by
    simp [compactMembers, newline_not_mem_stringChars name, newline_not_mem_compactChars value,
      newline_not_mem_compactMembers (next :: rest)]

end

theorem newline_not_mem_compact (j : Json) : '\n' ∉ (compact j).toList := by
  unfold compact
  rw [String.toList_ofList]
  exact newline_not_mem_compactChars j

end Json

end Admission
