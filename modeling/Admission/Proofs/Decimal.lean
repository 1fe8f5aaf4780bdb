import Mathlib
import Admission.Decimal.Reading

/-!
# Digits that read back

The digits of a number are digits, none of them is a leading zero, and reading them gives the number. Zeros in front
of them change nothing of that.
-/

namespace Admission.Decimal

theorem isDigit_of_mem_digits {n : Nat} {c : Char} (h : c ∈ digits n) : c.isDigit = true :=
  Nat.isDigit_of_mem_toDigits (by decide) (by decide) h

theorem digits_ne_nil (n : Nat) : digits n ≠ [] := Nat.toDigits_ne_nil

@[simp] theorem ofDigits_digits (n : Nat) : ofDigits (digits n) = n := Nat.ofDigitChars_toDigits (by decide) (by decide)

theorem head?_digits_ne_zero {n : Nat} (h : n ≠ 0) : (digits n).head? ≠ some '0' := by
  unfold digits
  induction n using Nat.strongRecOn with
  | ind n ih =>
    by_cases hlt : n < 10
    · interval_cases n <;> first | exact absurd rfl h | decide
    · have hdiv : n / 10 ≠ 0 := by omega
      rw [Nat.toDigits_of_base_le (by decide) (by omega), List.head?_append_of_ne_nil _ Nat.toDigits_ne_nil]
      exact ih (n / 10) (by omega) hdiv

theorem isDigit_of_mem_padded {width n : Nat} {c : Char} (h : c ∈ padded width n) : c.isDigit = true := by
  unfold padded at h
  rcases List.mem_append.mp h with hzero | hdigit
  · rw [List.eq_of_mem_replicate hzero]
    rfl
  · exact isDigit_of_mem_digits hdigit

theorem padded_ne_nil (width n : Nat) : padded width n ≠ [] :=
  List.append_ne_nil_of_right_ne_nil _ (digits_ne_nil n)

@[simp] theorem ofDigits_padded (width n : Nat) : ofDigits (padded width n) = n := by
  have hzeros : ∀ k, ofDigits (List.replicate k '0') = 0 := by
    intro k
    induction k with
    | zero => rfl
    | succ k ih => exact ih
  unfold ofDigits at hzeros
  unfold ofDigits padded
  rw [List.foldl_append, hzeros]
  exact ofDigits_digits n

theorem length_padded {width n : Nat} (hwidth : 0 < width) (h : n < 10 ^ width) : (padded width n).length = width := by
  have hdigits : (digits n).length ≤ width := (Nat.length_toDigits_le_iff (by decide) hwidth).mpr h
  unfold padded
  rw [List.length_append, List.length_replicate]
  omega

end Admission.Decimal
