import Mathlib
import Admission.Proofs.Double

/-!
# Sums of doubles

A sum of two numbers that are not negative is rounded to the nearest double, so it is never less than
either of them, and never negative or undefined.
-/

namespace Admission.Double

open Float.Model Float.Model.UnpackedFloat

/-! ## Packing -/

/-- Mantissa and exponent as a packed number has them: the mantissa fills its 53 bits, unless the exponent
is already the least one. -/
structure Canonical (m : ℕ) (e : ℤ) : Prop where
  fits : m < 2 ^ 53
  least : -1074 ≤ e
  full : 2 ^ 52 ≤ m ∨ e = -1074

theorem toNat_implicit (m : BitVec 52) : (1#1 ++ m).toNat = 2 ^ 52 + m.toNat := by
  rw [BitVec.toNat_append, ← Nat.shiftLeft_add_eq_or_of_lt m.isLt]
  rfl

theorem unpack_canonical (x : Float.Model) (s : Sign) (m : ℕ) (e : ℤ) (hm : 0 < m)
    (h : x.unpack = .finite s m e hm) : Canonical m e := by
  have hbias : ((Format.binary64.exponentBias : ℕ) : ℤ) = 1023 := rfl
  have hbits : ((Format.binary64.mantissaBitsWithoutImplicit : ℕ) : ℤ) = 52 := rfl
  have hmantissa := (@unpackMantissa .binary64 x.toBits.toBitVec).isLt
  unfold Float.Model.unpack UnpackedFloat.unpack at h
  dsimp only at h hmantissa
  rw [hbias, hbits] at h
  split at h
  · split at h <;> cases h
  split at h
  · next hzero =>
    split at h
    · cases h
    · simp only [UnpackedFloat.finite.injEq] at h
      obtain ⟨-, rfl, rfl⟩ := h
      rw [hzero]
      exact ⟨by omega, le_rfl, Or.inr rfl⟩
  · next hzero =>
    simp only [UnpackedFloat.finite.injEq] at h
    obtain ⟨-, rfl, rfl⟩ := h
    have hexponent : (@unpackExponent .binary64 x.toBits.toBitVec).toNat ≠ 0 :=
      fun he => hzero (BitVec.toNat_inj.mp (by simpa using he))
    rw [toNat_implicit]
    exact ⟨by omega, by omega, Or.inl (by omega)⟩

theorem unpackSign_packComponents (s : Sign) (e : BitVec 11) (m : BitVec 52) :
    Sign.ofBitVec (unpackSign (packComponents .binary64 s e m)) = s := by
  simp only [unpackSign, packComponents, BitVec.extractLsb]
  rw [BitVec.extractLsb'_append_eq_of_le (by omega), BitVec.extractLsb'_append_eq_of_le (by omega)]
  cases s <;> rfl

theorem unpack_packComponents (s : Sign) (e : BitVec 11) (m : BitVec 52) :
    UnpackedFloat.unpack .binary64 (packComponents .binary64 s e m) =
      if e = -1#11 then if m = 0#52 then .infinity s else .notANumber
      else if e = 0#11 then
        if h : m = 0#52 then .zero s
        else .finite s m.toNat (-1074) (by simpa [BitVec.toNat_pos, BitVec.pos_iff_ne_zero])
      else .finite s (1#1 ++ m).toNat (e.toNat - 1075) (by rw [toNat_implicit]; omega) := by
  have hbias : ((Format.binary64.exponentBias : ℕ) : ℤ) = 1023 := rfl
  have hbits : ((Format.binary64.mantissaBitsWithoutImplicit : ℕ) : ℤ) = 52 := rfl
  unfold UnpackedFloat.unpack
  simp only [unpackMantissa_packComponents, unpackExponent_packComponents, unpackSign_packComponents,
    hbias, hbits]
  split
  · rfl
  split
  · next he =>
    subst he
    rfl
  · rfl

theorem unpack_pack_finite (m : ℕ) (e : ℤ) (hm : 0 < m) (h : Canonical m e) :
    (Float.Model.pack (.finite .positive m e hm)).unpack = .finite .positive m e hm ∨
      (Float.Model.pack (.finite .positive m e hm)).unpack = .infinity .positive := by
  have hbias : ((Format.binary64.exponentBias : ℕ) : ℤ) = 1023 := rfl
  have hbits : ((Format.binary64.mantissaBitsWithoutImplicit : ℕ) : ℤ) = 52 := rfl
  have hfull : Format.binary64.mantissaBits = 53 := rfl
  obtain ⟨hfits, hleast, hcase⟩ := h
  show UnpackedFloat.unpack .binary64 (UnpackedFloat.pack .binary64 (.finite .positive m e hm)) = _ ∨
    UnpackedFloat.unpack .binary64 (UnpackedFloat.pack .binary64 (.finite .positive m e hm)) = _
  unfold UnpackedFloat.pack
  dsimp only
  rw [hbias, hbits, hfull]
  split
  · right
    exact unpack_packComponents .positive (-1#11) 0#52
  · next hsmall =>
    left
    have hexponent : (e + 1023 + 52).toNat < 2 ^ 11 - 1 := by
      have : 2 ^ Format.binary64.exponentBits = 2 ^ 11 := rfl
      omega
    split
    · next hlog =>
      have hlarge : 2 ^ 52 ≤ m := (Nat.le_log2 hm.ne').mp (by omega)
      have htop : BitVec.ofNat 11 (e + 1023 + 52).toNat ≠ -1#11 := by bv_omega
      have hzero : BitVec.ofNat 11 (e + 1023 + 52).toNat ≠ 0#11 := by bv_omega
      have htoNat : (BitVec.ofNat 11 (e + 1023 + 52).toNat).toNat = (e + 1023 + 52).toNat := by bv_omega
      have hmantissa : (1#1 ++ BitVec.ofNat 52 m).toNat = m := by
        rw [toNat_implicit, BitVec.toNat_ofNat]
        omega
      rw [unpack_packComponents, if_neg htop, if_neg hzero]
      simp only [hmantissa, htoNat, UnpackedFloat.finite.injEq, true_and]
      omega
    · next hlog =>
      have hsub : m < 2 ^ 52 := by
        by_contra hlarge
        have := (Nat.le_log2 hm.ne').mpr (not_lt.mp hlarge)
        have := (Nat.log2_lt hm.ne').mpr hfits
        omega
      have hmantissa : (BitVec.ofNat 52 m).toNat = m := by bv_omega
      have hzero : BitVec.ofNat 52 m ≠ 0#52 := by bv_omega
      rw [unpack_packComponents, if_neg (by decide), if_pos rfl, dif_neg hzero]
      simp only [hmantissa, UnpackedFloat.finite.injEq, true_and]
      omega

/-! ## Rounding -/

theorem shiftRight_mantissa (em : ExtendedMantissa) (n : ℕ) : (em >>> n).mantissa = em.mantissa / 2 ^ n := by
  show (n.repeat ExtendedMantissa.shiftRightOne em).mantissa = _
  induction n with
  | zero => simp [Nat.repeat]
  | succ n ih =>
    rw [Nat.repeat, ExtendedMantissa.shiftRightOne, ih, Nat.div_div_eq_div_mul, pow_succ]

theorem roundedMantissa_bounds (em : ExtendedMantissa) :
    em.mantissa ≤ em.roundedMantissa ∧ em.roundedMantissa ≤ em.mantissa + 1 := by
  obtain ⟨m, r, s⟩ := em
  cases r <;> cases s <;>
    simp only [ExtendedMantissa.roundedMantissa, ExtendedMantissa.accuracy, Accuracy.roundToNearestEven] <;>
    omega

theorem targetExponent_eq (m : ℕ) (e : ℤ) :
    Format.binary64.targetExponent (totalExponent m e) = max (m.log2 + e - 52) (-1074) := by
  have hmin : Format.binary64.minExponent = -1074 := rfl
  have hfull : ((Format.binary64.mantissaBits : ℕ) : ℤ) = 53 := rfl
  rw [Format.targetExponent, totalExponent, hmin, hfull]
  congr 1
  omega

theorem shiftToTargetExponent_eq (m : ℕ) (e : ℤ) (accuracy : Accuracy) :
    (shiftToTargetExponent .binary64 m e accuracy).1.mantissa =
        m / 2 ^ (max (m.log2 + e - 52) (-1074) - e).toNat ∧
      (shiftToTargetExponent .binary64 m e accuracy).2 =
        e + (max (m.log2 + e - 52) (-1074) - e).toNat := by
  have hmantissa : (ExtendedMantissa.ofMantissaAndAccuracy m accuracy).mantissa = m := by
    rcases accuracy with _ | ⟨⟨⟩⟩ <;> rfl
  simp only [shiftToTargetExponent, shiftToExponent, targetExponent_eq, shiftRight_mantissa, hmantissa,
    and_self]

theorem shifted_canonical (m : ℕ) (e : ℤ) (he : -1074 ≤ e) (hm : 0 < m)
    (hfirst : e ≤ max (m.log2 + e - 52) (-1074)) :
    0 < m / 2 ^ (max (m.log2 + e - 52) (-1074) - e).toNat ∧
      Canonical (m / 2 ^ (max (m.log2 + e - 52) (-1074) - e).toNat) (max (m.log2 + e - 52) (-1074)) := by
  have hlow : 2 ^ m.log2 ≤ m := Nat.log2_self_le hm.ne'
  have hhigh : m < 2 ^ (m.log2 + 1) := Nat.lt_log2_self
  set n := (max (m.log2 + e - 52) (-1074) - e).toNat with hn
  have hpow : 0 < 2 ^ n := Nat.two_pow_pos n
  have hfits : m / 2 ^ n < 2 ^ 53 := by
    rw [Nat.div_lt_iff_lt_mul hpow, ← pow_add]
    exact hhigh.trans_le (Nat.pow_le_pow_right (by omega) (by omega))
  by_cases hlarge : 52 ≤ m.log2
  · have hfull : 2 ^ 52 ≤ m / 2 ^ n := by
      rw [Nat.le_div_iff_mul_le hpow, ← pow_add]
      exact (Nat.pow_le_pow_right (by omega) (by omega)).trans hlow
    exact ⟨by omega, hfits, by omega, Or.inl hfull⟩
  · have hzero : n = 0 := by omega
    rw [hzero] at hfits ⊢
    exact ⟨by simpa using hm, hfits, by omega, Or.inr (by omega)⟩

theorem decreaseExponent_of_le (m : ℕ) (e t : ℤ) (h : e ≤ t) : decreaseExponent m e t = (m, e) := by
  rw [decreaseExponent, show (e - t).toNat = 0 by omega]
  simp

theorem roundWithAccuracy_of_canonical (m : ℕ) (e : ℤ) (accuracy : Accuracy) (r : ℕ) (t : ℤ)
    (hrounded : (shiftToTargetExponent .binary64 m e accuracy).1.roundedMantissa = r)
    (hexponent : (shiftToTargetExponent .binary64 m e accuracy).2 = t) (hr : 0 < r) (h : Canonical r t) :
    roundWithAccuracy .binary64 .positive m e accuracy = .finite .positive r t hr := by
  obtain ⟨hfits, hleast, -⟩ := h
  have hlog : r.log2 < 53 := (Nat.log2_lt hr.ne').mpr hfits
  have hnone : (max (r.log2 + t - 52) (-1074) - t).toNat = 0 := by omega
  obtain ⟨hmantissa₂, hexponent₂⟩ := shiftToTargetExponent_eq r t .exact
  rw [hnone] at hmantissa₂ hexponent₂
  simp only [pow_zero, Nat.div_one, Nat.cast_zero, add_zero] at hmantissa₂ hexponent₂
  simp only [roundWithAccuracy, hrounded, hexponent, hmantissa₂, hexponent₂, hr.ne', dite_false]

/-- A number is rounded to one that fits, and what is at most the number is at most that. The second step of
rounding is for a carry of the first. -/
theorem roundWithAccuracy_spec (m : ℕ) (e : ℤ) (accuracy : Accuracy) (he : -1074 ≤ e) (hm : 0 < m)
    (hfirst : e ≤ max (m.log2 + e - 52) (-1074)) :
    ∃ m' e' hm', roundWithAccuracy .binary64 .positive m e accuracy = .finite .positive m' e' hm' ∧
      Canonical m' e' ∧ max (m.log2 + e - 52) (-1074) ≤ e' ∧ e' ≤ max (m.log2 + e - 52) (-1074) + 1 ∧
      (e' = max (m.log2 + e - 52) (-1074) → m / 2 ^ (e' - e).toNat ≤ m') := by
  obtain ⟨hpos, hfits, hleast, hfull⟩ := shifted_canonical m e he hm hfirst
  set t := max (m.log2 + e - 52) (-1074) with ht
  obtain ⟨hmantissa, hexponent⟩ := shiftToTargetExponent_eq m e accuracy
  rw [← ht] at hmantissa hexponent
  have hexponent' : (shiftToTargetExponent .binary64 m e accuracy).2 = t := by
    rw [hexponent]
    omega
  obtain ⟨hlow, hhigh⟩ := roundedMantissa_bounds (shiftToTargetExponent .binary64 m e accuracy).1
  rw [hmantissa] at hlow hhigh
  set r := (shiftToTargetExponent .binary64 m e accuracy).1.roundedMantissa with hr
  have hrpos : 0 < r := by omega
  rcases Nat.lt_or_ge r (2 ^ 53) with hlt | hge
  · have hcanonical : Canonical r t := ⟨hlt, hleast, hfull.imp_left fun h => h.trans hlow⟩
    exact ⟨r, t, hrpos, roundWithAccuracy_of_canonical m e accuracy r t hr.symm hexponent' hrpos hcanonical,
      hcanonical, le_rfl, by omega, fun _ => hlow⟩
  · -- the rounded mantissa has one bit too many, and that bit is a zero
    have hcarry : r = 2 ^ 53 := by omega
    have hone : (max (r.log2 + t - 52) (-1074) - t).toNat = 1 := by
      rw [hcarry, Nat.log2_two_pow]
      omega
    obtain ⟨hmantissa₂, hexponent₂⟩ := shiftToTargetExponent_eq r t .exact
    rw [hone, hcarry] at hmantissa₂
    rw [hone] at hexponent₂
    refine ⟨2 ^ 52, t + 1, by omega, ?_, ⟨by omega, by omega, Or.inl le_rfl⟩, by omega, by omega,
      by omega⟩
    have hrounded : (shiftToTargetExponent .binary64 m e accuracy).1.roundedMantissa = r := rfl
    simp only [hcarry] at hexponent₂ hrounded
    simp only [roundWithAccuracy, hexponent', hrounded, hmantissa₂, hexponent₂]
    rfl

theorem round_eq (m : ℕ) (e : ℤ) (hfirst : e ≤ max (m.log2 + e - 52) (-1074)) :
    UnpackedFloat.round .binary64 .positive m e = roundWithAccuracy .binary64 .positive m e .exact := by
  have hkeep : decreaseExponent m e (Format.binary64.targetExponent (totalExponent m e)) = (m, e) := by
    rw [targetExponent_eq]
    exact decreaseExponent_of_le m e _ hfirst
  simp only [UnpackedFloat.round, hkeep]

theorem round_of_canonical (m : ℕ) (e : ℤ) (hfirst : e ≤ max (m.log2 + e - 52) (-1074)) (r : ℕ) (t : ℤ)
    (hrounded : (shiftToTargetExponent .binary64 m e .exact).1.roundedMantissa = r)
    (hexponent : (shiftToTargetExponent .binary64 m e .exact).2 = t) (hr : 0 < r) (h : Canonical r t) :
    UnpackedFloat.round .binary64 .positive m e = .finite .positive r t hr := by
  rw [round_eq m e hfirst]
  exact roundWithAccuracy_of_canonical m e .exact r t hrounded hexponent hr h

/-! ## Sums -/

theorem scaled_le (m₀ m : ℕ) (e₀ e : ℤ) (hm : 0 < m) (h₀ : Canonical m₀ e₀) (he : e ≤ e₀)
    (hle : m₀ <<< (e₀ - e).toNat ≤ m) : e₀ ≤ max (m.log2 + e - 52) (-1074) := by
  rcases h₀.full with hfull | hleast
  · have hlog : 52 + (e₀ - e).toNat ≤ m.log2 := by
      rw [Nat.le_log2 hm.ne', pow_add]
      rw [Nat.shiftLeft_eq] at hle
      exact (Nat.mul_le_mul_right _ hfull).trans hle
    omega
  · omega

theorem add_eq_round (m₁ m₂ : ℕ) (e₁ e₂ : ℤ) (hm₁ : 0 < m₁) (hm₂ : 0 < m₂) :
    UnpackedFloat.add .binary64 (.finite .positive m₁ e₁ hm₁) (.finite .positive m₂ e₂ hm₂) =
      UnpackedFloat.round .binary64 .positive
        (m₁ <<< (e₁ - min e₁ e₂).toNat + m₂ <<< (e₂ - min e₁ e₂).toNat) (min e₁ e₂) := by
  have hsum (a b : ℕ) : Sign.positive.apply a + Sign.positive.apply b = ((a + b : ℕ) : ℤ) :=
    (Nat.cast_add a b).symm
  have hpos : 0 < m₁ <<< (e₁ - min e₁ e₂).toNat + m₂ <<< (e₂ - min e₁ e₂).toNat := by
    simp only [Nat.shiftLeft_eq]
    positivity
  have hgt : compare ((m₁ <<< (e₁ - min e₁ e₂).toNat + m₂ <<< (e₂ - min e₁ e₂).toNat : ℕ) : ℤ) 0 = .gt :=
    Int.compare_eq_gt.mpr (by exact_mod_cast hpos)
  simp only [UnpackedFloat.add, decreaseExponent, hsum, UnpackedFloat.normalize, hgt]
  rfl

theorem standing_add_finite (m₁ m₂ : ℕ) (e₁ e₂ : ℤ) (hm₁ : 0 < m₁) (hm₂ : 0 < m₂)
    (h₁ : Canonical m₁ e₁) (h₂ : Canonical m₂ e₂) :
    ∃ m e hm, UnpackedFloat.add .binary64 (.finite .positive m₁ e₁ hm₁) (.finite .positive m₂ e₂ hm₂) =
        .finite .positive m e hm ∧ Canonical m e ∧ (e₂ < e ∨ e₂ = e ∧ m₂ ≤ m) ∧
      e ≤ max ((m₁ <<< (e₁ - min e₁ e₂).toNat + m₂ <<< (e₂ - min e₁ e₂).toNat).log2 + min e₁ e₂ - 52)
        (-1074) + 1 := by
  set e₀ := min e₁ e₂ with he₀
  set m₀ := m₁ <<< (e₁ - e₀).toNat + m₂ <<< (e₂ - e₀).toNat with hm₀
  have hterm : m₂ <<< (e₂ - e₀).toNat ≤ m₀ := Nat.le_add_left _ _
  have hpos : 0 < m₀ := lt_of_lt_of_le (by rw [Nat.shiftLeft_eq]; positivity) hterm
  have hleast : -1074 ≤ e₀ := le_min h₁.least h₂.least
  have htarget := scaled_le m₂ m₀ e₂ e₀ hpos h₂ (min_le_right _ _) hterm
  have hadd : UnpackedFloat.add .binary64 (.finite .positive m₁ e₁ hm₁) (.finite .positive m₂ e₂ hm₂) =
      UnpackedFloat.round .binary64 .positive m₀ e₀ := add_eq_round m₁ m₂ e₁ e₂ hm₁ hm₂
  have hfirst := (min_le_right e₁ e₂).trans htarget
  obtain ⟨m, e, hm, hround, hcanonical, hle, hbound, hdiv⟩ :=
    roundWithAccuracy_spec m₀ e₀ .exact hleast hpos hfirst
  refine ⟨m, e, hm, hadd.trans ((round_eq m₀ e₀ hfirst).trans hround), hcanonical, ?_, hbound⟩
  rcases (htarget.trans hle).lt_or_eq with hlt | heq
  · exact Or.inl hlt
  · right
    refine ⟨heq, le_trans ?_ (hdiv (by omega))⟩
    rw [Nat.le_div_iff_mul_le (Nat.two_pow_pos _), ← heq, ← Nat.shiftLeft_eq]
    exact hterm

/-- A number that is not negative, with the parts that packed numbers have. -/
inductive Unsigned : UnpackedFloat → Prop where
  | infinity : Unsigned (.infinity .positive)
  | zero (s : Sign) : Unsigned (.zero s)
  | finite (m : ℕ) (e : ℤ) (hm : 0 < m) (h : Canonical m e) : Unsigned (.finite .positive m e hm)

namespace Unsigned

theorem le_pack (u : UnpackedFloat) (h : Unsigned u) : u.le (Float.Model.pack u).unpack = true := by
  have hinfinity : (Float.Model.pack (.infinity .positive)).unpack = .infinity .positive :=
    unpack_packComponents .positive (-1#11) 0#52
  cases h with
  | infinity => rw [hinfinity]; rfl
  | zero s =>
    have hzero : (Float.Model.pack (.zero s)).unpack = .zero s := unpack_packComponents s 0#11 0#52
    rw [hzero]
    rfl
  | finite m e hm hcanonical =>
    rcases unpack_pack_finite m e hm hcanonical with h | h
    · rw [h]
      exact (unpacked_le_iff _ _).mpr ⟨_, _, rfl, rfl, le_rfl⟩
    · rw [h]
      rfl

theorem add (u v : UnpackedFloat) (hu : Unsigned u) (hv : Unsigned v) :
    Unsigned (UnpackedFloat.add .binary64 u v) ∧ v.le (UnpackedFloat.add .binary64 u v) = true := by
  cases hu with
  | infinity => cases hv <;> exact ⟨.infinity, rfl⟩
  | zero s =>
    cases hv with
    | infinity => exact ⟨.infinity, rfl⟩
    | zero s' => cases s <;> cases s' <;> exact ⟨.zero _, rfl⟩
    | finite m e hm h =>
      exact ⟨.finite m e hm h, (unpacked_le_iff _ _).mpr ⟨_, _, rfl, rfl, le_rfl⟩⟩
  | finite m e hm h =>
    cases hv with
    | infinity => exact ⟨.infinity, rfl⟩
    | zero s => exact ⟨.finite m e hm h, rfl⟩
    | finite m' e' hm' h' =>
      obtain ⟨m₀, e₀, hm₀, hadd, hcanonical, hle, -⟩ := standing_add_finite m m' e e' hm hm' h h'
      rw [hadd]
      refine ⟨.finite m₀ e₀ hm₀ hcanonical, (unpacked_le_iff _ _).mpr ⟨_, _, rfl, rfl, ?_⟩⟩
      rw [Prod.Lex.toLex_le_toLex, Prod.Lex.toLex_le_toLex]
      refine Or.inr ⟨rfl, hle.imp_right fun h => ⟨h.1, Int.ofNat_le.mpr h.2⟩⟩

end Unsigned

theorem unsigned_of_nonneg (x : Double) (h : 0 ≤ x) :
    ∃ value, x = of value ∧ Unsigned value.toModel.unpack := by
  obtain ⟨p, q, hp, hq, hpq⟩ := (le_iff_place 0 x).mp h
  obtain rfl : toLex (0, toLex (0, 0)) = p := Option.some.inj (place?_zero.symm.trans hp)
  cases x with
  | minusUndefined => cases hq
  | of value =>
    refine ⟨value, rfl, ?_⟩
    change standing? value.toModel.unpack = some q at hq
    rcases hu : value.toModel.unpack with ⟨⟨⟩⟩ | _ | s | ⟨⟨⟩, m, e, hm⟩ <;> rw [hu] at hq <;> cases hq
    · exact absurd hpq (by decide)
    · exact .infinity
    · exact .zero s
    · rw [Prod.Lex.toLex_le_toLex] at hpq
      omega
    · exact .finite m e hm (unpack_canonical _ _ m e hm hu)

/-- A sum of amounts is never less than one of them. -/
theorem le_add_left (x y : Double) (hy : 0 ≤ y) (hx : 0 ≤ x) : x ≤ y + x := by
  obtain ⟨a, rfl, ha⟩ := unsigned_of_nonneg x hx
  obtain ⟨b, rfl, hb⟩ := unsigned_of_nonneg y hy
  obtain ⟨hsum, hle⟩ := hb.add _ _ ha
  obtain ⟨p, q, hp, hq, hpq⟩ := (unpacked_le_iff _ _).mp hle
  obtain ⟨q', r, hq', hr, hqr⟩ := (unpacked_le_iff _ _).mp (hsum.le_pack _)
  obtain rfl : q = q' := Option.some.inj (hq.symm.trans hq')
  exact (le_iff_place _ _).mpr ⟨p, r, hp, hr, hpq.trans hqr⟩

theorem add_nonneg (x y : Double) (hx : 0 ≤ x) (hy : 0 ≤ y) : 0 ≤ x + y :=
  Double.le_trans 0 y (x + y) hy (le_add_left y x hx hy)

end Admission.Double
