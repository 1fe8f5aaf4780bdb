import Admission.Proofs.Double.Magnitude
import Admission.Proofs.Double.Product

/-!
# Sums that stay finite

A number far above one does not change when one is added to it, so one more than a finite number is
finite.
-/

namespace Admission.Double

open Float.Model Float.Model.UnpackedFloat

/-! ## The largest exponent -/

theorem unpack_exponent_le (x : Float.Model) (s : Sign) (m : ℕ) (e : ℤ) (hm : 0 < m)
    (h : x.unpack = .finite s m e hm) : e ≤ 971 := by
  have hbias : ((Format.binary64.exponentBias : ℕ) : ℤ) = 1023 := rfl
  have hbits : ((Format.binary64.mantissaBitsWithoutImplicit : ℕ) : ℤ) = 52 := rfl
  have hexponent := (@unpackExponent .binary64 x.toBits.toBitVec).isLt
  unfold Float.Model.unpack UnpackedFloat.unpack at h
  dsimp only at h hexponent
  rw [hbias, hbits] at h
  split at h
  · split at h <;> cases h
  next htop =>
  have hne : (@unpackExponent .binary64 x.toBits.toBitVec).toNat ≠ 2047 :=
    fun he => htop (BitVec.toNat_inj.mp he)
  split at h
  · split at h
    · cases h
    · next hzero _ =>
      simp only [UnpackedFloat.finite.injEq] at h
      obtain ⟨-, -, rfl⟩ := h
      rw [hzero]
      decide
  · simp only [UnpackedFloat.finite.injEq] at h
    obtain ⟨-, -, rfl⟩ := h
    have hcount : 2 ^ Format.binary64.exponentBits = 2048 := rfl
    omega

theorem isFinite_pack (m : ℕ) (e : ℤ) (hm : 0 < m) (he : e ≤ 971) :
    (Float.Model.pack (.finite .positive m e hm)).unpack.isFinite = true := by
  show (UnpackedFloat.unpack .binary64
    (UnpackedFloat.pack .binary64 (.finite .positive m e hm))).isFinite = true
  rcases pack_finite m e hm with ⟨-, exponent, mantissa, hne, heq⟩ | ⟨hlarge, -⟩
  · rw [heq, unpack_packComponents, if_neg hne]
    split
    · split <;> rfl
    · rfl
  · omega

/-! ## Rounding -/

theorem shiftRight_roundBit (em : ExtendedMantissa) (n : ℕ) :
    (em >>> (n + 1)).roundBit = (em.mantissa / 2 ^ n % 2 != 0) := by
  show (em >>> n).shiftRightOne.roundBit = _
  rw [ExtendedMantissa.shiftRightOne, shiftRight_mantissa]

theorem roundedMantissa_of_roundBit (em : ExtendedMantissa) (h : em.roundBit = false) :
    em.roundedMantissa = em.mantissa := by
  obtain ⟨m, r, s⟩ := em
  cases h
  cases s <;> rfl

theorem log2_extended (m k d : ℕ) (hlow : 2 ^ 52 ≤ m) (hhigh : m < 2 ^ 53) (hd : d < 2 ^ k) :
    (m * 2 ^ k + d).log2 = 52 + k := by
  have hfirst : 2 ^ 52 * 2 ^ k ≤ m * 2 ^ k := Nat.mul_le_mul_right _ hlow
  have hlast : (m + 1) * 2 ^ k ≤ 2 ^ 53 * 2 ^ k := Nat.mul_le_mul_right _ hhigh
  rw [add_one_mul] at hlast
  rw [Nat.log2_eq_iff (by positivity), show 52 + k + 1 = 53 + k by omega, pow_add 2 52, pow_add 2 53]
  omega

theorem round_absorbs (m k d : ℕ) (e : ℤ) (hm : 0 < m) (hfull : 2 ^ 52 ≤ m) (h : Canonical m e)
    (hd : d < 2 ^ k) :
    UnpackedFloat.round .binary64 .positive (m * 2 ^ (k + 1) + d) (e - (k + 1 : ℕ)) =
      .finite .positive m e hm := by
  have hleast := h.least
  have hdouble : 2 ^ (k + 1) = 2 * 2 ^ k := by rw [pow_succ, mul_comm]
  have hlog : (m * 2 ^ (k + 1) + d).log2 = 52 + (k + 1) :=
    log2_extended m (k + 1) d hfull h.fits (by omega)
  have hshifted : shiftToTargetExponent .binary64 (m * 2 ^ (k + 1) + d) (e - (k + 1 : ℕ)) .exact =
      ((⟨m * 2 ^ (k + 1) + d, false, false⟩ : ExtendedMantissa) >>> (k + 1), e) := by
    have hshift : (max (((m * 2 ^ (k + 1) + d).log2 : ℤ) + (e - (k + 1 : ℕ)) - 52) (-1074) -
        (e - (k + 1 : ℕ))).toNat = k + 1 := by omega
    simp only [shiftToTargetExponent, shiftToExponent, targetExponent_eq, hshift, sub_add_cancel]
    rfl
  have hmantissa : (m * 2 ^ (k + 1) + d) / 2 ^ (k + 1) = m := by
    rw [mul_comm, Nat.mul_add_div (by positivity), Nat.div_eq_of_lt (by omega), add_zero]
  -- The last bit that is shifted out belongs to no part of the addend.
  have hbit : (m * 2 ^ (k + 1) + d) / 2 ^ k = 2 * m := by
    rw [hdouble, ← mul_assoc, mul_comm, Nat.mul_add_div (by positivity), Nat.div_eq_of_lt hd]
    omega
  have hrounded : ((⟨m * 2 ^ (k + 1) + d, false, false⟩ : ExtendedMantissa) >>> (k + 1)).roundedMantissa =
      m := by
    rw [roundedMantissa_of_roundBit, shiftRight_mantissa, hmantissa]
    rw [shiftRight_roundBit, hbit]
    simp
  refine round_of_canonical _ _ (by omega) m e ?_ ?_ hm h
  · rw [hshifted, hrounded]
  · rw [hshifted]

/-! ## One more -/

theorem unpack_one : ∃ value, (1.0 : Double) = of value ∧
    value.toModel.unpack = .finite .positive (2 ^ 52) (-52) (by decide) := by
  obtain ⟨value, _, hone, hvalue⟩ := unpack_of_place 1.0 (2 ^ 52) (-52) (by decide +kernel)
  exact ⟨value, hone, hvalue⟩

theorem add_one_finite (m : ℕ) (e : ℤ) (hm : 0 < m) (h : Canonical m e) (he : e ≤ 971) :
    ∃ m' e' hm', UnpackedFloat.add .binary64 (.finite .positive (2 ^ 52) (-52) (by decide))
      (.finite .positive m e hm) = .finite .positive m' e' hm' ∧ e' ≤ 971 := by
  by_cases hlarge : 2 ≤ e
  · -- The one is less than half of the last place.
    have hfull : 2 ^ 52 ≤ m := h.full.resolve_right (by omega)
    obtain ⟨k, hk⟩ : ∃ k : ℕ, e = (k + 1 : ℕ) - 52 := ⟨(e + 51).toNat, by omega⟩
    have hbelow : 2 ^ 52 < 2 ^ k := Nat.pow_lt_pow_right (by omega) (by omega)
    have hmin : min (-52) e = e - (k + 1 : ℕ) := by omega
    refine ⟨m, e, hm, ?_, he⟩
    rw [add_eq_round, hmin, show ((-52 : ℤ) - (e - (k + 1 : ℕ))).toNat = 0 by omega,
      show (e - (e - (k + 1 : ℕ))).toNat = k + 1 by omega, Nat.shiftLeft_zero, Nat.shiftLeft_eq, add_comm]
    exact round_absorbs m k (2 ^ 52) e hm hfull h hbelow
  · obtain ⟨m', e', hm', hadd, -, -, hbound⟩ := standing_add_finite (2 ^ 52) m (-52) e (by decide) hm
      ⟨by decide, by decide, Or.inl le_rfl⟩ h
    set e₀ := min (-52) e with he₀
    set m₀ := 2 ^ 52 <<< (-52 - e₀).toNat + m <<< (e - e₀).toNat with hm₀
    have hsum : m₀ = 2 ^ 52 * 2 ^ (-52 - e₀).toNat + m * 2 ^ (e - e₀).toNat := by
      rw [hm₀, Nat.shiftLeft_eq, Nat.shiftLeft_eq]
    have hpos : 0 < m₀ := by
      rw [hsum]
      positivity
    have hlog : m₀.log2 < 54 + (2 - e₀).toNat := by
      rw [Nat.log2_lt hpos.ne', pow_add]
      have hfits := h.fits
      have hone : 2 ^ 52 * 2 ^ (-52 - e₀).toNat ≤ 2 ^ 53 * 2 ^ (2 - e₀).toNat :=
        Nat.mul_le_mul (by omega) (Nat.pow_le_pow_right (by omega) (by omega))
      have hother : m * 2 ^ (e - e₀).toNat < 2 ^ 53 * 2 ^ (2 - e₀).toNat :=
        Nat.mul_lt_mul_of_lt_of_le hfits (Nat.pow_le_pow_right (by omega) (by omega)) (by positivity)
      omega
    exact ⟨m', e', hm', hadd, by omega⟩

theorem isFinite_one_add (x : Double) (hx : 0 < x) (hfinite : x.isFinite = true) :
    (1.0 + x).isFinite = true := by
  obtain ⟨one, hone, hunpack⟩ := unpack_one
  obtain ⟨a, m, e, hm, rfl, ha⟩ := finite_of_pos x hx hfinite
  obtain ⟨m', e', hm', hadd, hle⟩ := add_one_finite m e hm (unpack_canonical _ _ m e hm ha)
    (unpack_exponent_le _ _ m e hm ha)
  rw [hone]
  show (Float.Model.pack (UnpackedFloat.add .binary64 one.toModel.unpack a.toModel.unpack)).unpack.isFinite =
    true
  rw [hunpack, ha, hadd]
  exact isFinite_pack m' e' hm' hle

theorem one_add_pos (x : Double) (hx : 0 < x) : 0 < 1.0 + x := by
  have hle : x ≤ 1.0 + x := le_add_left x 1.0 (by decide +kernel) (Double.le_of_lt 0 x hx)
  exact Double.lt_of_lt_of_le 0 x (1.0 + x) hx hle

end Admission.Double
