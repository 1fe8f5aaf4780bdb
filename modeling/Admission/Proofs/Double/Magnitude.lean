import Admission.Proofs.Double.Addition

/-!
# The magnitude of doubles

Rounding keeps the power of two that a number reaches. So a whole number above zero is read as at least one,
and a thousandth of a millionth of it does not vanish.
-/

namespace Admission.Double

open Float.Model Float.Model.UnpackedFloat

/-! ## Powers of two -/

/-- A positive number that reaches the power of two with that exponent. -/
inductive Reaches (k : ℤ) : UnpackedFloat → Prop where
  | infinity : Reaches k (.infinity .positive)
  | finite (m : ℕ) (e : ℤ) (hm : 0 < m) (h : Canonical m e) (hk : k ≤ m.log2 + e) :
      Reaches k (.finite .positive m e hm)

theorem log2_shiftLeft (m n : ℕ) (hm : 0 < m) : (m <<< n).log2 = m.log2 + n := by
  have hlow : 2 ^ m.log2 ≤ m := Nat.log2_self_le hm.ne'
  have hhigh : m < 2 ^ (m.log2 + 1) := Nat.lt_log2_self
  have hpow : 0 < 2 ^ n := Nat.two_pow_pos n
  rw [Nat.shiftLeft_eq, Nat.log2_eq_iff (by positivity), pow_add, add_right_comm, pow_add 2 (m.log2 + 1)]
  exact ⟨Nat.mul_le_mul_right _ hlow, Nat.mul_lt_mul_of_pos_right hhigh hpow⟩

theorem log2_mono {m n : ℕ} (hm : 0 < m) (h : m ≤ n) : m.log2 ≤ n.log2 :=
  (Nat.le_log2 (hm.trans_le h).ne').mpr ((Nat.log2_self_le hm.ne').trans h)

theorem reaches_roundWithAccuracy (m : ℕ) (e k : ℤ) (accuracy : Accuracy) (he : -1074 ≤ e) (hm : 0 < m)
    (hfirst : e ≤ max (m.log2 + e - 52) (-1074)) (hk : k ≤ m.log2 + e) :
    Reaches k (roundWithAccuracy .binary64 .positive m e accuracy) := by
  obtain ⟨m', e', hm', hround, hcanonical, hlow, hhigh, hdiv⟩ :=
    roundWithAccuracy_spec m e accuracy he hm hfirst
  rw [hround]
  refine .finite m' e' hm' hcanonical ?_
  by_cases hsame : e' = max (m.log2 + e - 52) (-1074)
  · obtain ⟨hpos, -⟩ := shifted_canonical m e he hm hfirst
    rw [← hsame] at hpos
    have hlog := log2_mono hpos (hdiv hsame)
    have hshifted : m.log2 ≤ (m / 2 ^ (e' - e).toNat).log2 + (e' - e).toNat := by
      by_contra hless
      have hsmall := (Nat.log2_lt hpos.ne').mp
        (show (m / 2 ^ (e' - e).toNat).log2 < m.log2 - (e' - e).toNat by omega)
      rw [Nat.div_lt_iff_lt_mul (Nat.two_pow_pos _), ← pow_add, Nat.sub_add_cancel (by omega)] at hsmall
      exact absurd (Nat.log2_self_le hm.ne') (not_le.mpr hsmall)
    omega
  · -- After a carry the mantissa is full.
    have hfull : 2 ^ 52 ≤ m' := hcanonical.full.resolve_right (by omega)
    have hlog : 52 ≤ m'.log2 := (Nat.le_log2 hm'.ne').mpr hfull
    omega

theorem reaches_round (m : ℕ) (e k : ℤ) (he : -1074 ≤ e) (hm : 0 < m) (hk : k ≤ m.log2 + e) :
    Reaches k (UnpackedFloat.round .binary64 .positive m e) := by
  have hlog := log2_shiftLeft m (e - max (m.log2 + e - 52) (-1074)).toNat hm
  have hpos : 0 < m <<< (e - max (m.log2 + e - 52) (-1074)).toNat := by
    rw [Nat.shiftLeft_eq]
    positivity
  simp only [UnpackedFloat.round, decreaseExponent, targetExponent_eq]
  exact reaches_roundWithAccuracy _ _ k .exact (by omega) hpos (by omega) (by omega)

theorem mul_finite (m₁ m₂ : ℕ) (e₁ e₂ : ℤ) (hm₁ : 0 < m₁) (hm₂ : 0 < m₂) :
    UnpackedFloat.mul .binary64 (.finite .positive m₁ e₁ hm₁) (.finite .positive m₂ e₂ hm₂) =
      roundWithAccuracy .binary64 .positive (m₁ * m₂) (e₁ + e₂) .exact :=
  rfl

namespace Reaches

variable {k : ℤ} {u : UnpackedFloat} (h : Reaches k u)

include h

theorem pack : Reaches k (Float.Model.pack u).unpack := by
  have hinfinity : (Float.Model.pack (.infinity .positive)).unpack = .infinity .positive :=
    unpack_packComponents .positive (-1#11) 0#52
  cases h with
  | infinity =>
    rw [hinfinity]
    exact .infinity
  | finite m e hm hcanonical hk =>
    rcases unpack_pack_finite m e hm hcanonical with hsame | hinfinite
    · rw [hsame]
      exact .finite m e hm hcanonical hk
    · rw [hinfinite]
      exact .infinity

theorem mul_one (hk : 0 ≤ k) :
    Reaches k (UnpackedFloat.mul .binary64 u (.finite .positive (2 ^ 52) (-52) (by decide))) := by
  cases h with
  | infinity => exact .infinity
  | finite m e hm hcanonical hk' =>
    have hlog := log2_shiftLeft m 52 hm
    have hfits := (Nat.log2_lt hm.ne').mpr hcanonical.fits
    rw [Nat.shiftLeft_eq] at hlog
    rw [mul_finite]
    exact reaches_roundWithAccuracy _ _ k .exact (by omega) (by positivity) (by omega) (by omega)

theorem div (m₀ : ℕ) (e₀ : ℤ) (hm₀ : 0 < m₀) (hk : 0 ≤ k) (hsmall : (m₀.log2 : ℤ) + e₀ ≤ 900) :
    Reaches (k - (m₀.log2 + e₀ + 1)) (UnpackedFloat.div .binary64 u (.finite .positive m₀ e₀ hm₀)) := by
  cases h with
  | infinity => exact .infinity
  | finite m e hm hcanonical hk' =>
    have hmin : Format.binary64.minExponent = -1074 := rfl
    have hbits : ((Format.binary64.mantissaBits : ℕ) : ℤ) = 53 := rfl
    have htarget : Format.binary64.targetExponent (totalExponent m e - totalExponent m₀ e₀) =
        max (m.log2 + e - (m₀.log2 + e₀) - 53) (-1074) := by
      rw [Format.targetExponent, totalExponent, totalExponent, hmin, hbits]
      congr 1
      omega
    have hfits := (Nat.log2_lt hm.ne').mpr hcanonical.fits
    show Reaches _ (roundWithAccuracy .binary64 .positive _ _ _)
    simp only [htarget]
    set t := min (e - e₀) (max (m.log2 + e - (m₀.log2 + e₀) - 53) (-1074)) with ht
    set s := (e - e₀ - t).toNat with hs
    have hlog := log2_shiftLeft m s hm
    have henough : m₀.log2 + 1 ≤ m.log2 + s := by omega
    have hquotient : 2 ^ (m.log2 + s - (m₀.log2 + 1)) ≤ m <<< s / m₀ := by
      rw [Nat.le_div_iff_mul_le hm₀]
      calc 2 ^ (m.log2 + s - (m₀.log2 + 1)) * m₀
          ≤ 2 ^ (m.log2 + s - (m₀.log2 + 1)) * 2 ^ (m₀.log2 + 1) :=
            Nat.mul_le_mul_left _ Nat.lt_log2_self.le
        _ = 2 ^ (m <<< s).log2 := by rw [← pow_add, Nat.sub_add_cancel henough, hlog]
        _ ≤ m <<< s := Nat.log2_self_le (by rw [Nat.shiftLeft_eq]; positivity)
    have hpos : 0 < m <<< s / m₀ := (Nat.two_pow_pos _).trans_le hquotient
    have hreached := (Nat.le_log2 hpos.ne').mpr hquotient
    exact reaches_roundWithAccuracy _ t _ _ (by omega) hpos (by omega) (by omega)

end Reaches

/-! ## Doubles -/

theorem unpack_of_place (x : Double) (m : ℕ) (e : ℤ) (h : place? x = some (toLex (1, toLex (e, (m : ℤ))))) :
    ∃ value hm, x = of value ∧ value.toModel.unpack = .finite .positive m e hm := by
  cases x with
  | minusUndefined => cases h
  | of value =>
    change standing? value.toModel.unpack = _ at h
    rcases hu : value.toModel.unpack with ⟨⟨⟩⟩ | _ | s | ⟨⟨⟩, m', e', hm'⟩ <;> rw [hu] at h <;>
      simp [standing?] at h
    obtain ⟨rfl, rfl⟩ := h
    exact ⟨value, hm', rfl, hu⟩

theorem pos_of_reaches (k : ℤ) (value : Float) (h : Reaches k value.toModel.unpack) : 0 < of value := by
  rw [lt_iff_place, place?_zero]
  change ∃ p q, _ ∧ standing? value.toModel.unpack = some q ∧ p < q
  generalize value.toModel.unpack = u at h
  cases h with
  | infinity => exact ⟨_, _, rfl, rfl, by decide⟩
  | finite m e hm _ _ => exact ⟨_, _, rfl, rfl, Prod.Lex.toLex_lt_toLex.mpr (Or.inl Int.one_pos)⟩

theorem place?_one : place? 1.0 = some (toLex (1, toLex (-52, 2 ^ 52))) := by decide +kernel

theorem one_le_of_reaches (value : Float) (h : Reaches 0 value.toModel.unpack) : 1.0 ≤ of value := by
  rw [le_iff_place, place?_one]
  change ∃ p q, _ ∧ standing? value.toModel.unpack = some q ∧ p ≤ q
  generalize value.toModel.unpack = u at h
  cases h with
  | infinity => exact ⟨_, _, rfl, rfl, by decide⟩
  | finite m e hm hcanonical hk =>
    refine ⟨_, _, rfl, rfl, ?_⟩
    have hfits := (Nat.log2_lt hm.ne').mpr hcanonical.fits
    have hfull : e = -52 → 2 ^ 52 ≤ m := fun he => (Nat.le_log2 hm.ne').mp (by omega)
    rw [Prod.Lex.toLex_le_toLex]
    refine Or.inr ⟨rfl, ?_⟩
    rw [Prod.Lex.toLex_le_toLex]
    dsimp only
    omega

theorem reaches_normalize (n : ℕ) (hn : 0 < n) :
    Reaches 0 (UnpackedFloat.normalize .binary64 n 0 .positive) := by
  rw [UnpackedFloat.normalize, Int.compare_eq_gt.mpr (by exact_mod_cast hn)]
  exact reaches_round n 0 0 (by omega) hn (by omega)

theorem reaches_ofScientific (n : ℕ) (hn : 0 < n) :
    Reaches 0 (UnpackedFloat.ofScientific .binary64 n 0) := by
  have hbits : Format.binary64.mantissaBits = 53 := rfl
  have hlog := log2_shiftLeft n 53 hn
  have hshifted : 0 < n <<< 53 := by
    rw [Nat.shiftLeft_eq]
    positivity
  unfold UnpackedFloat.ofScientific
  rw [dif_neg hn.ne', if_neg (by decide), if_neg (not_lt.mpr ?_), if_pos le_rfl]
  · rw [mul_finite, hbits, Int.toNat_zero, pow_zero, Nat.mul_one]
    exact reaches_roundWithAccuracy _ _ 0 .exact (by decide) hshifted (by omega) (by omega)
  · rw [neg_nonpos]
    exact Int.add_nonneg (Int.pow_nonneg (by decide)) (Int.natCast_nonneg _)

theorem reaches_natCast (n : ℕ) (hn : n ≠ 0) :
    ∃ value, (n : Double) = of value ∧ Reaches 0 value.toModel.unpack := by
  have hpos : 0 < n := Nat.pos_of_ne_zero hn
  refine ⟨Float.ofNat n, rfl, ?_⟩
  unfold Float.ofNat OfScientific.ofScientific instOfScientificFloat Float.ofScientific
  dsimp only
  split
  · next hsmall =>
    obtain ⟨one, _, hone, hunpack⟩ := unpack_of_place (of (.ofBits 0x3FF0000000000000)) (2 ^ 52) (-52)
      (by decide +kernel)
    cases hone
    have hword : n.toUInt64.toNat = n := by
      show n % 2 ^ 64 = n
      exact Nat.mod_eq_of_lt (by omega)
    have hread : Reaches 0 n.toUInt64.toFloat.toModel.unpack :=
      (reaches_normalize n.toUInt64.toNat (by rwa [hword])).pack
    show Reaches 0 (Float.Model.pack (UnpackedFloat.mul .binary64 n.toUInt64.toFloat.toModel.unpack
      (Float.ofBits 0x3FF0000000000000).toModel.unpack)).unpack
    rw [hunpack]
    exact (hread.mul_one le_rfl).pack
  · exact (reaches_ofScientific n hpos).pack

theorem one_le_natCast (n : ℕ) (hn : n ≠ 0) : 1.0 ≤ (n : Double) := by
  obtain ⟨value, heq, hreaches⟩ := reaches_natCast n hn
  rw [heq]
  exact one_le_of_reaches value hreaches

theorem natCast_div_pos (n : ℕ) (hn : n ≠ 0) : 0 < (n : Double) / 1000000000.0 := by
  obtain ⟨value, heq, hreaches⟩ := reaches_natCast n hn
  obtain ⟨billion, hm, hbillion, hunpack⟩ := unpack_of_place 1000000000.0 8388608000000000 (-23)
    (by decide +kernel)
  rw [heq, hbillion]
  refine pos_of_reaches (0 - ((Nat.log2 8388608000000000 : ℕ) + -23 + 1)) (value / billion) ?_
  show Reaches _ (Float.Model.pack (UnpackedFloat.div .binary64 value.toModel.unpack
    billion.toModel.unpack)).unpack
  rw [hunpack]
  exact (hreaches.div 8388608000000000 (-23) hm le_rfl (by decide +kernel)).pack

theorem zero_div (x : Double) (hx : 0 < x) : 0 / x = 0 := by
  obtain ⟨value, rfl, hvalue⟩ := unsigned_of_nonneg x (Double.le_of_lt 0 x hx)
  obtain ⟨o, q, ho, hq, hoq⟩ := (lt_iff_place _ _).mp hx
  obtain rfl : toLex (0, toLex (0, 0)) = o := Option.some.inj (place?_zero.symm.trans ho)
  change standing? value.toModel.unpack = some q at hq
  show of ⟨Float.Model.pack (UnpackedFloat.div .binary64 (.zero .positive) value.toModel.unpack)⟩ = 0
  generalize value.toModel.unpack = u at hvalue hq
  cases hvalue with
  | infinity => rfl
  | zero s =>
    cases hq
    exact absurd hoq (lt_irrefl _)
  | finite m e hm _ => rfl

theorem natCast_add_zero (n : ℕ) (hn : n ≠ 0) : 0 < (n : Double) + 0 := by
  obtain ⟨value, heq, hreaches⟩ := reaches_natCast n hn
  rw [heq]
  refine pos_of_reaches 0 (value + 0) ?_
  show Reaches 0 (Float.Model.pack (UnpackedFloat.add .binary64 value.toModel.unpack
    (.zero .positive))).unpack
  generalize value.toModel.unpack = u at hreaches
  cases hreaches with
  | infinity => exact Reaches.infinity.pack
  | finite m e hm hcanonical hk => exact (Reaches.finite m e hm hcanonical hk).pack

end Admission.Double
