import Mathlib
import Admission.Rate.Window

/-!
# Buckets of requests

Where a window counts its requests, it moves its two buckets on with time and weighs the older one by the
part of it that the window still covers.
-/

namespace Admission.Window

def Bucket.window (b : Bucket) : Window := .counter b.start b.current b.previous

variable (window now : Nat) (b : Bucket)

/-! ## Moving on -/

theorem rotate_eq (hwindow : 0 < window) :
    rotate window now b =
      let gone := (now - b.start) / window % Nat.pow 2 32
      ⟨b.start + window * gone, if gone = 0 then b.current else 0,
        if gone = 0 then b.previous else if gone = 1 then b.current else 0⟩ := by
  unfold rotate
  rw [Nat.max_eq_left hwindow]
  dsimp only
  split_ifs with hnone hone
  · rw [hnone]
    rfl
  · rw [hone, Nat.mul_one]
  · rfl

theorem rotate_of_gone (hwindow : 0 < window) (h : (now - b.start) / window % Nat.pow 2 32 = 0) :
    rotate window now b = b := by
  rw [rotate_eq window now b hwindow]
  simp only [h]
  rfl

theorem gone_rotate (hwindow : 0 < window) :
    (now - (rotate window now b).start) / window % Nat.pow 2 32 = 0 := by
  rw [rotate_eq window now b hwindow]
  dsimp only
  rw [← Nat.sub_sub, Nat.sub_mul_div]
  exact Nat.sub_mod_eq_zero_of_mod_eq (Nat.mod_mod _ _).symm

theorem rotate_rotate (hwindow : 0 < window) :
    rotate window now (rotate window now b) = rotate window now b :=
  rotate_of_gone window now _ hwindow (gone_rotate window now b hwindow)

/-! ## Weighing -/

theorem seconds_eq (nanos : Nat) : seconds Rat nanos = (nanos : Rat) / 1000000000 := by
  have hsplit : ((nanos / 1000000000 : Nat) : Rat) * 1000000000 + ((nanos % 1000000000 : Nat) : Rat) =
      nanos := by
    exact_mod_cast Nat.div_add_mod' nanos 1000000000
  show ((nanos / 1000000000 : Nat) : Rat) + ((nanos % 1000000000 : Nat) : Rat) / 1000000000.0 = _
  rw [← hsplit]
  norm_num
  ring

theorem overlap_eq :
    overlap Rat window now b = max 0 (1 - ((now - b.start : Nat) : Rat) / (window : Rat)) := by
  have hshare : (1.0 : Rat) - seconds Rat (now - b.start) / seconds Rat window =
      1 - ((now - b.start : Nat) : Rat) / (window : Rat) := by
    rw [seconds_eq, seconds_eq, div_div_div_cancel_right₀ (by norm_num)]
    norm_num
  have hpart : 0 ≤ ((now - b.start : Nat) : Rat) / (window : Rat) :=
    div_nonneg (Nat.cast_nonneg _) (Nat.cast_nonneg _)
  show Amount.clamp (0 : Rat) 1.0 ((1.0 : Rat) - seconds Rat (now - b.start) / seconds Rat window) = _
  rw [hshare]
  unfold Amount.clamp
  split_ifs with hneg hover
  · exact (max_eq_left hneg.le).symm
  · norm_num at hover
    linarith
  · exact (max_eq_right (not_lt.mp hneg)).symm

theorem overlap_nonneg : 0 ≤ overlap Rat window now b :=
  (overlap_eq window now b).symm ▸ le_max_left _ _

theorem overlap_pos (h : now - b.start < window) : 0 < overlap Rat window now b := by
  have hpart : ((now - b.start : Nat) : Rat) / (window : Rat) < 1 :=
    (div_lt_one (by exact_mod_cast (Nat.zero_le _).trans_lt h)).mpr (by exact_mod_cast h)
  rw [overlap_eq]
  exact lt_max_of_lt_right (sub_pos.mpr hpart)

theorem overlap_of_start (h : now ≤ b.start) : overlap Rat window now b = 1 := by
  rw [overlap_eq, Nat.sub_eq_zero_of_le h]
  simp

theorem overlap_eq_zero (hwindow : 0 < window) (h : window ≤ now - b.start) :
    overlap Rat window now b = 0 := by
  have hpart : 1 ≤ ((now - b.start : Nat) : Rat) / (window : Rat) :=
    (one_le_div (by exact_mod_cast hwindow)).mpr (by exact_mod_cast h)
  rw [overlap_eq]
  exact max_eq_left (sub_nonpos.mpr hpart)

theorem weighted_nonneg : 0 ≤ weighted Rat window now b :=
  add_nonneg (mul_nonneg b.previous.cast_nonneg (overlap_nonneg window now b)) b.current.cast_nonneg

theorem weighted_record :
    weighted Rat window now { b with current := b.current + 1 } = weighted Rat window now b + 1 := by
  show (b.previous : Rat) * overlap Rat window now b + ((b.current + 1 : Nat) : Rat) =
    (b.previous : Rat) * overlap Rat window now b + (b.current : Rat) + 1
  rw [Nat.cast_add, Nat.cast_one, add_assoc]

/-! ## One more request -/

section

variable (α : Type) [Amount α] (limit : Nat)

theorem checkCounter_allowed_iff :
    (checkCounter α limit window now b).1.allowed = true ↔
      weighted α window now (rotate window now b) + 1.0 ≤ (limit : α) := by
  unfold checkCounter
  dsimp only
  split_ifs with hroom
  · simpa [RateCheck.accepted] using hroom
  · simpa [RateCheck.refused] using hroom

theorem checkCounter_snd :
    (checkCounter α limit window now b).2 =
      if (checkCounter α limit window now b).1.allowed then
        { rotate window now b with current := (rotate window now b).current + 1 }
      else rotate window now b := by
  simp only [checkCounter]
  split
  · rfl
  · rfl

theorem checkCounter_retryAfter (h : (checkCounter α limit window now b).1.allowed = false) :
    (checkCounter α limit window now b).1.retryAfter =
      some (window - (now - (rotate window now b).start)) := by
  have hroom : ¬ weighted α window now (rotate window now b) + 1.0 ≤ (limit : α) := by
    rw [← checkCounter_allowed_iff, h]
    exact Bool.false_ne_true
  simp only [checkCounter, hroom, if_false]
  rfl

end

theorem weighted_checkCounter_le (limit : Nat)
    (h : (checkCounter Rat limit window now b).1.allowed = true) :
    weighted Rat window now (checkCounter Rat limit window now b).2 ≤ (limit : Rat) := by
  have hroom := (checkCounter_allowed_iff window now b Rat limit).mp h
  have hone : (1.0 : Rat) = 1 := by norm_num
  rw [hone] at hroom
  rw [checkCounter_snd, if_pos h, weighted_record]
  exact hroom

end Admission.Window
