import Admission.Amount
import Admission.Proofs.Double.Addition

/-!
# Products of doubles

A product or a quotient of two numbers that are not negative is undefined only where nothing meets
infinity. One factor that is positive and finite excludes that.
-/

namespace Admission.Double

open Float.Model Float.Model.UnpackedFloat

/-! ## Results of a calculation -/

/-- A number that is neither negative nor undefined, whatever its parts are. -/
inductive Signless : UnpackedFloat → Prop where
  | infinity : Signless (.infinity .positive)
  | zero (s : Sign) : Signless (.zero s)
  | finite (m : ℕ) (e : ℤ) (hm : 0 < m) : Signless (.finite .positive m e hm)

theorem Unsigned.signless {u : UnpackedFloat} (h : Unsigned u) : Signless u := by
  cases h with
  | infinity => exact .infinity
  | zero s => exact .zero s
  | finite m e hm _ => exact .finite m e hm

theorem Signless.unsigned (x : Float.Model) (h : Signless x.unpack) : Unsigned x.unpack := by
  generalize hu : x.unpack = u at h
  cases h with
  | infinity => exact .infinity
  | zero s => exact .zero s
  | finite m e hm => exact .finite m e hm (unpack_canonical x _ m e hm hu)

theorem signless_unpack (e : BitVec 11) (m : BitVec 52) (h : e ≠ -1#11 ∨ m = 0#52) :
    Signless (UnpackedFloat.unpack .binary64 (packComponents .binary64 .positive e m)) := by
  rw [unpack_packComponents]
  split
  · next he =>
    rw [if_pos (h.resolve_left (not_not.mpr he))]
    exact .infinity
  split
  · split
    · exact .zero .positive
    · exact .finite _ _ _
  · exact .finite _ _ _

theorem pack_finite (m : ℕ) (e : ℤ) (hm : 0 < m) :
    (e ≤ 971 ∧ ∃ exponent mantissa, exponent ≠ -1#11 ∧
      UnpackedFloat.pack .binary64 (.finite .positive m e hm) =
        packComponents .binary64 .positive exponent mantissa) ∨
    (971 < e ∧ UnpackedFloat.pack .binary64 (.finite .positive m e hm) =
      packComponents .binary64 .positive (-1#11) 0#52) := by
  have hbias : ((Format.binary64.exponentBias : ℕ) : ℤ) = 1023 := rfl
  have hbits : ((Format.binary64.mantissaBitsWithoutImplicit : ℕ) : ℤ) = 52 := rfl
  have hexponents : 2 ^ Format.binary64.exponentBits = 2048 := rfl
  unfold UnpackedFloat.pack
  dsimp only
  rw [hbias, hbits, hexponents]
  split
  · exact Or.inr ⟨by omega, rfl⟩
  · next hsmall =>
    refine Or.inl ⟨by omega, ?_⟩
    split
    · refine ⟨_, _, fun htop => ?_, rfl⟩
      have htoNat := congrArg BitVec.toNat htop
      rw [BitVec.toNat_ofNat, Nat.mod_eq_of_lt (by omega)] at htoNat
      have hlast : (-1#11).toNat = 2047 := rfl
      omega
    · exact ⟨0#11, _, by decide, rfl⟩

theorem Signless.pack {u : UnpackedFloat} (h : Signless u) : Unsigned (Float.Model.pack u).unpack := by
  apply Signless.unsigned
  cases h with
  | infinity => exact signless_unpack (-1#11) 0#52 (Or.inr rfl)
  | zero s =>
    have hzero : (Float.Model.pack (.zero s)).unpack = .zero s := unpack_packComponents s 0#11 0#52
    rw [hzero]
    exact .zero s
  | finite m e hm =>
    show Signless (UnpackedFloat.unpack .binary64
      (UnpackedFloat.pack .binary64 (.finite .positive m e hm)))
    rcases pack_finite m e hm with ⟨-, exponent, mantissa, hne, heq⟩ | ⟨-, heq⟩ <;> rw [heq]
    · exact signless_unpack exponent mantissa (Or.inl hne)
    · exact signless_unpack (-1#11) 0#52 (Or.inr rfl)

theorem signless_roundWithAccuracy (m : ℕ) (e : ℤ) (accuracy : Accuracy) :
    Signless (roundWithAccuracy .binary64 .positive m e accuracy) := by
  unfold roundWithAccuracy
  dsimp only
  split
  · exact .zero .positive
  · exact .finite _ _ _

namespace Signless

variable {u : UnpackedFloat} (h : Signless u) (m : ℕ) (e : ℤ) (hm : 0 < m)

include h

theorem mul_left : Signless (UnpackedFloat.mul .binary64 (.finite .positive m e hm) u) := by
  cases h with
  | infinity => exact .infinity
  | zero s => exact .zero _
  | finite m' e' _ => exact signless_roundWithAccuracy (m * m') (e + e') .exact

theorem mul_right : Signless (UnpackedFloat.mul .binary64 u (.finite .positive m e hm)) := by
  cases h with
  | infinity => exact .infinity
  | zero s => exact .zero _
  | finite m' e' _ => exact signless_roundWithAccuracy (m' * m) (e' + e) .exact

theorem div : Signless (UnpackedFloat.div .binary64 u (.finite .positive m e hm)) := by
  cases h with
  | infinity => exact .infinity
  | zero s => exact .zero _
  | finite m' e' _ => exact signless_roundWithAccuracy _ _ _

end Signless

/-! ## Doubles -/

theorem nonneg_of_signless (value : Float) (h : Signless value.toModel.unpack) : 0 ≤ of value := by
  rw [le_iff_place, place?_zero]
  change ∃ p q, _ ∧ standing? value.toModel.unpack = some q ∧ p ≤ q
  generalize value.toModel.unpack = u at h
  cases h with
  | infinity => exact ⟨_, _, rfl, rfl, by decide⟩
  | zero s => exact ⟨_, _, rfl, rfl, le_rfl⟩
  | finite m e hm => exact ⟨_, _, rfl, rfl, Prod.Lex.toLex_le_toLex.mpr (Or.inl Int.one_pos)⟩

theorem finite_of_pos (x : Double) (hpos : 0 < x) (hfinite : x.isFinite = true) :
    ∃ value m e hm, x = of value ∧ value.toModel.unpack = .finite .positive m e hm := by
  obtain ⟨value, rfl, hvalue⟩ := unsigned_of_nonneg x (Double.le_of_lt 0 x hpos)
  obtain ⟨p, q, hp, hq, hpq⟩ := (lt_iff_place _ _).mp hpos
  obtain rfl : toLex (0, toLex (0, 0)) = p := Option.some.inj (place?_zero.symm.trans hp)
  change value.toModel.unpack.isFinite = true at hfinite
  change standing? value.toModel.unpack = some q at hq
  generalize hu : value.toModel.unpack = u at hvalue hfinite hq
  cases hvalue with
  | infinity => cases hfinite
  | zero s =>
    cases hq
    exact absurd hpq (lt_irrefl _)
  | finite m e hm _ => exact ⟨value, m, e, hm, rfl, hu⟩

theorem mul_nonneg_of_pos_left (x y : Double) (hx : 0 < x) (hfinite : x.isFinite = true) (hy : 0 ≤ y) :
    0 ≤ x * y := by
  obtain ⟨a, m, e, hm, rfl, ha⟩ := finite_of_pos x hx hfinite
  obtain ⟨b, rfl, hb⟩ := unsigned_of_nonneg y hy
  refine nonneg_of_signless (a * b) (Signless.pack ?_).signless
  rw [ha]
  exact hb.signless.mul_left m e hm

theorem mul_nonneg_of_pos_right (x y : Double) (hx : 0 ≤ x) (hy : 0 < y) (hfinite : y.isFinite = true) :
    0 ≤ x * y := by
  obtain ⟨a, rfl, ha⟩ := unsigned_of_nonneg x hx
  obtain ⟨b, m, e, hm, rfl, hb⟩ := finite_of_pos y hy hfinite
  refine nonneg_of_signless (a * b) (Signless.pack ?_).signless
  rw [hb]
  exact ha.signless.mul_right m e hm

theorem div_nonneg (x y : Double) (hx : 0 ≤ x) (hy : 0 < y) (hfinite : y.isFinite = true) :
    0 ≤ x / y := by
  obtain ⟨a, rfl, ha⟩ := unsigned_of_nonneg x hx
  obtain ⟨b, m, e, hm, rfl, hb⟩ := finite_of_pos y hy hfinite
  refine nonneg_of_signless (a / b) (Signless.pack ?_).signless
  rw [hb]
  exact ha.signless.div m e hm

theorem signless_normalize (n : ℕ) : Signless (UnpackedFloat.normalize .binary64 n 0 .positive) := by
  rcases n with _ | n
  · exact .zero .positive
  · exact signless_roundWithAccuracy _ _ _

theorem signless_ofScientific (n : ℕ) : Signless (UnpackedFloat.ofScientific .binary64 n 0) := by
  unfold UnpackedFloat.ofScientific
  split
  · exact .zero .positive
  split
  · exact .infinity
  split
  · exact .zero .positive
  · rw [if_pos le_rfl]
    exact (Signless.finite _ _ _).mul_left _ _ _

theorem natCast_nonneg (n : ℕ) : 0 ≤ (n : Double) := by
  show 0 ≤ of (Float.ofNat n)
  unfold Float.ofNat OfScientific.ofScientific instOfScientificFloat Float.ofScientific
  dsimp only
  split
  · refine mul_nonneg_of_pos_right (of n.toUInt64.toFloat) (of (.ofBits 0x3FF0000000000000)) ?_
      (by decide +kernel) (by decide +kernel)
    exact nonneg_of_signless _ (signless_normalize n.toUInt64.toNat).pack.signless
  · exact nonneg_of_signless _ (signless_ofScientific n).pack.signless

end Admission.Double
