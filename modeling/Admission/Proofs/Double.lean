import Mathlib
import Admission.Double

/-!
# The order of doubles

All doubles but the undefined ones are ordered like the numbers they stand for: by the sign, then by
the exponent and last by the mantissa.
-/

namespace Admission.Double

open Float.Model

/-- Where a number stands; the two infinite ones are at the ends. -/
def standing? : UnpackedFloat → Option (ℤ ×ₗ ℤ ×ₗ ℤ)
  | .notANumber => none
  | .infinity .negative => some (toLex (-2, toLex (0, 0)))
  | .finite .negative m e _ => some (toLex (-1, toLex (-e, -m)))
  | .zero _ => some (toLex (0, toLex (0, 0)))
  | .finite .positive m e _ => some (toLex (1, toLex (e, m)))
  | .infinity .positive => some (toLex (2, toLex (0, 0)))

theorem isLE_compare_then (e e' : ℤ) (m m' : ℕ) :
    ((compare e e').then (compare m m')).isLE = true ↔ e < e' ∨ e = e' ∧ m ≤ m' := by
  rw [Ordering.isLE_then_iff_or, Int.compare_eq_lt, Int.compare_eq_eq, Nat.isLE_compare]

theorem isGE_compare_then (e e' : ℤ) (m m' : ℕ) :
    ((compare e e').then (compare m m')).isGE = true ↔ e' < e ∨ e = e' ∧ m' ≤ m := by
  rw [← Ordering.isLE_swap, Ordering.swap_then, Int.compare_swap, Nat.compare_swap, isLE_compare_then,
    eq_comm (a := e)]

theorem compare_sign (s s' : UnpackedFloat.Sign) :
    compare s s' =
      match s, s' with
      | .negative, .positive => .lt
      | .positive, .negative => .gt
      | .negative, .negative | .positive, .positive => .eq := by
  cases s <;> cases s' <;> rfl

theorem unpacked_le_iff (a b : UnpackedFloat) :
    a.le b = true ↔ ∃ x y, standing? a = some x ∧ standing? b = some y ∧ x ≤ y := by
  rcases a with ⟨⟨⟩⟩ | _ | _ | ⟨⟨⟩, m, e, hm⟩ <;> rcases b with ⟨⟨⟩⟩ | _ | _ | ⟨⟨⟩, m', e', hm'⟩ <;>
    simp [standing?, UnpackedFloat.le, UnpackedFloat.compare, Prod.Lex.le_iff, compare_sign,
      isLE_compare_then, isGE_compare_then]

/-- Where a double stands. An undefined one has no place. -/
def place? : Double → Option (ℤ ×ₗ ℤ ×ₗ ℤ)
  | of x => standing? x.toModel.unpack
  | minusUndefined => none

theorem le_iff_place (x y : Double) :
    x ≤ y ↔ ∃ p q, place? x = some p ∧ place? y = some q ∧ p ≤ q := by
  cases x with
  | minusUndefined => exact ⟨fun h => h.elim, fun ⟨_, _, h, _, _⟩ => by cases h⟩
  | of x =>
    cases y with
    | minusUndefined => exact ⟨fun h => h.elim, fun ⟨_, _, _, h, _⟩ => by cases h⟩
    | of y =>
      have hle : (of x ≤ of y) ↔ x.toModel.unpack.le y.toModel.unpack = true := by
        show decide (x.toModel ≤ y.toModel) = true ↔ _
        exact decide_eq_true_iff
      rw [hle, unpacked_le_iff]
      rfl

/-- The number is none of the undefined ones, which are not even themselves. -/
def Defined (x : Double) : Prop := x ≤ x

protected theorem le_trans (x y z : Double) (hxy : x ≤ y) (hyz : y ≤ z) : x ≤ z := by
  obtain ⟨p, q, hp, hq, hpq⟩ := (le_iff_place x y).mp hxy
  obtain ⟨q', r, hq', hr, hqr⟩ := (le_iff_place y z).mp hyz
  rw [hq] at hq'
  cases hq'
  exact (le_iff_place x z).mpr ⟨p, r, hp, hr, hpq.trans hqr⟩

protected theorem le_of_not_le (x y : Double) (hx : x.Defined) (hy : y.Defined) (h : ¬ x ≤ y) : y ≤ x := by
  obtain ⟨p, -, hp, -, -⟩ := (le_iff_place x x).mp hx
  obtain ⟨q, -, hq, -, -⟩ := (le_iff_place y y).mp hy
  have hpq : ¬ p ≤ q := fun hle => h ((le_iff_place x y).mpr ⟨p, q, hp, hq, hle⟩)
  exact (le_iff_place y x).mpr ⟨q, p, hq, hp, le_of_not_ge hpq⟩

/-! ## Strictly less -/

theorem compare_then_eq_lt (e e' : ℤ) (m m' : ℕ) :
    (compare e e').then (compare m m') = .lt ↔ e < e' ∨ e = e' ∧ m < m' := by
  rw [Ordering.then_eq_lt, Int.compare_eq_lt, Int.compare_eq_eq, Nat.compare_eq_lt]

theorem compare_then_eq_gt (e e' : ℤ) (m m' : ℕ) :
    (compare e e').then (compare m m') = .gt ↔ e' < e ∨ e = e' ∧ m' < m := by
  rw [Ordering.then_eq_gt, Int.compare_eq_gt, Int.compare_eq_eq, Nat.compare_eq_gt]

theorem unpacked_lt_iff (a b : UnpackedFloat) :
    a.lt b = true ↔ ∃ x y, standing? a = some x ∧ standing? b = some y ∧ x < y := by
  rcases a with ⟨⟨⟩⟩ | _ | _ | ⟨⟨⟩, m, e, hm⟩ <;> rcases b with ⟨⟨⟩⟩ | _ | _ | ⟨⟨⟩, m', e', hm'⟩ <;>
    simp [standing?, UnpackedFloat.lt, UnpackedFloat.compare, Prod.Lex.lt_iff, compare_sign,
      compare_then_eq_lt, compare_then_eq_gt]

theorem lt_iff_place (x y : Double) :
    x < y ↔ ∃ p q, place? x = some p ∧ place? y = some q ∧ p < q := by
  cases x with
  | minusUndefined => exact ⟨fun h => h.elim, fun ⟨_, _, h, _, _⟩ => by cases h⟩
  | of x =>
    cases y with
    | minusUndefined => exact ⟨fun h => h.elim, fun ⟨_, _, _, h, _⟩ => by cases h⟩
    | of y =>
      have hlt : (of x < of y) ↔ x.toModel.unpack.lt y.toModel.unpack = true := by
        show decide (x.toModel < y.toModel) = true ↔ _
        exact decide_eq_true_iff
      rw [hlt, unpacked_lt_iff]
      rfl

protected theorem lt_iff_le_not_ge (x y : Double) : x < y ↔ x ≤ y ∧ ¬ y ≤ x := by
  rw [lt_iff_place, le_iff_place, le_iff_place]
  constructor
  · rintro ⟨p, q, hp, hq, hpq⟩
    refine ⟨⟨p, q, hp, hq, hpq.le⟩, ?_⟩
    rintro ⟨q', p', hq', hp', hqp⟩
    rw [hp] at hp'
    rw [hq] at hq'
    cases hp'
    cases hq'
    exact absurd hqp (not_le.mpr hpq)
  · rintro ⟨⟨p, q, hp, hq, hpq⟩, hnot⟩
    refine ⟨p, q, hp, hq, lt_of_not_ge fun hqp => hnot ⟨q, p, hq, hp, hqp⟩⟩

protected theorem le_of_lt (x y : Double) (h : x < y) : x ≤ y := ((Double.lt_iff_le_not_ge x y).mp h).1

protected theorem lt_of_not_le (x y : Double) (hx : x.Defined) (hy : y.Defined) (h : ¬ x ≤ y) : y < x :=
  (Double.lt_iff_le_not_ge y x).mpr ⟨Double.le_of_not_le x y hx hy h, h⟩

protected theorem lt_of_lt_of_le (x y z : Double) (hxy : x < y) (hyz : y ≤ z) : x < z := by
  obtain ⟨hle, hnot⟩ := (Double.lt_iff_le_not_ge x y).mp hxy
  exact (Double.lt_iff_le_not_ge x z).mpr
    ⟨Double.le_trans x y z hle hyz, fun h => hnot (Double.le_trans y z x hyz h)⟩

protected theorem lt_of_le_of_lt (x y z : Double) (hxy : x ≤ y) (hyz : y < z) : x < z := by
  obtain ⟨hle, hnot⟩ := (Double.lt_iff_le_not_ge y z).mp hyz
  exact (Double.lt_iff_le_not_ge x z).mpr
    ⟨Double.le_trans x y z hxy hle, fun h => hnot (Double.le_trans z x y h hxy)⟩

theorem defined_of_le (x y : Double) (h : x ≤ y) : x.Defined ∧ y.Defined := by
  obtain ⟨p, q, hp, hq, -⟩ := (le_iff_place x y).mp h
  exact ⟨(le_iff_place x x).mpr ⟨p, p, hp, hp, le_refl p⟩, (le_iff_place y y).mpr ⟨q, q, hq, hq, le_refl q⟩⟩

/-! ## Finite numbers -/

theorem place?_zero : place? 0 = some (toLex (0, toLex (0, 0))) := by decide +kernel

theorem place_le (x : Double) (p : ℤ ×ₗ ℤ ×ₗ ℤ) (h : place? x = some p) : p ≤ toLex (2, toLex (0, 0)) := by
  cases x with
  | minusUndefined => cases h
  | of value =>
    change standing? value.toModel.unpack = some p at h
    generalize value.toModel.unpack = u at h
    rcases u with ⟨⟨⟩⟩ | _ | _ | ⟨⟨⟩, m, e, hm⟩ <;> cases h <;> simp [Prod.Lex.toLex_le_toLex]

theorem isFinite_iff_place (x : Double) :
    x.isFinite = true ↔
      ∃ p, place? x = some p ∧ toLex (-2, toLex (0, 0)) < p ∧ p < toLex (2, toLex (0, 0)) := by
  cases x with
  | minusUndefined => exact ⟨nofun, fun ⟨_, h, _⟩ => by cases h⟩
  | of value =>
    show value.toModel.unpack.isFinite = true ↔ ∃ p, standing? value.toModel.unpack = some p ∧ _
    rcases value.toModel.unpack with ⟨⟨⟩⟩ | _ | _ | ⟨⟨⟩, m, e, hm⟩ <;>
      simp [standing?, UnpackedFloat.isFinite, Prod.Lex.toLex_lt_toLex]

theorem defined_of_isFinite (x : Double) (h : x.isFinite = true) : x.Defined := by
  obtain ⟨p, hp, -⟩ := (isFinite_iff_place x).mp h
  exact (le_iff_place x x).mpr ⟨p, p, hp, hp, le_rfl⟩

theorem isFinite_of_lt (x y : Double) (hx : 0 ≤ x) (h : x < y) : x.isFinite = true := by
  obtain ⟨o, p, ho, hp, hop⟩ := (le_iff_place 0 x).mp hx
  obtain ⟨p', q, hp', hq, hpq⟩ := (lt_iff_place x y).mp h
  obtain rfl : p = p' := Option.some.inj (hp.symm.trans hp')
  obtain rfl : toLex (0, toLex (0, 0)) = o := Option.some.inj (place?_zero.symm.trans ho)
  have hfirst : toLex (-2, toLex (0, 0)) < p := lt_of_lt_of_le (by decide) hop
  exact (isFinite_iff_place x).mpr ⟨p, hp, hfirst, hpq.trans_le (place_le y q hq)⟩

theorem nonneg_of_not_neg (x : Double) (hfinite : x.isFinite = true) (h : ¬ x < 0) : 0 ≤ x := by
  by_contra hneg
  have hzero : (0 : Double).Defined := defined_of_isFinite 0 (by decide +kernel)
  exact h (Double.lt_of_not_le 0 x hzero (defined_of_isFinite x hfinite) hneg)

end Admission.Double
