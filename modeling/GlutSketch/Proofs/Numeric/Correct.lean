import GlutSketch.Proofs.Numeric.Exact
import GlutSketch.Proofs.Numeric.Whole

/-!
# GlutSketch.Proofs.Numeric.Correct

The arithmetic of doubles is correctly rounded.  The residual bits that the
algorithms carry along place the exact result between two mantissas, and
rounding with them takes the nearer one.

* `Unpacked.Represents` -- what the residual bits say about the exact value.
* `Unpacked.exists_roundWithAccuracy` -- rounding takes the nearest number.
* `Real64.IsNormal` -- a double that is `q` or `-q`, with 53 digits.
* `Real64.IsNormal.mul`, `Real64.IsNormal.div` -- products and quotients are the
  nearest doubles.
* `Real64.isNormal_ofNat`, `Real64.IsNormal.round` -- whole numbers are exact.
-/

namespace GlutSketch

open Float.Model (Format totalExponent UnpackedFloat)
open Float.Model.UnpackedFloat

namespace Unpacked

/-! ## Residual bits -/

/-- The residual bits say where `x` is between the mantissa and the next one. -/
def Represents (em : ExtendedMantissa) (x : ℚ) : Prop :=
  match em with
  | ⟨m, false, false⟩ => x = m
  | ⟨m, false, true⟩ => m < x ∧ x < m + 1 / 2
  | ⟨m, true, false⟩ => x = m + 1 / 2
  | ⟨m, true, true⟩ => m + 1 / 2 < x ∧ x < m + 1

section Represents

variable {em : ExtendedMantissa} {x : ℚ}

theorem represents_exact (m : ℕ) :
    Represents (ExtendedMantissa.ofMantissaAndAccuracy m .exact) m := rfl

/-- A quotient is represented by its whole part and the accuracy of its
remainder. -/
theorem represents_quotient (num : ℕ) {den : ℕ} (h : 0 < den) :
    Represents (ExtendedMantissa.ofMantissaAndAccuracy (num / den)
      (accuracyOfFraction (num % den) den)) (num / den) := by
  have hone := natCast_div_lt_one (Nat.mod_lt num h)
  rw [natCast_div_eq num h]
  generalize num / den = q
  generalize num % den = r at *
  by_cases hzero : r = 0
  · subst hzero
    simp [accuracyOfFraction, ExtendedMantissa.ofMantissaAndAccuracy, Represents]
  · have hpos : 0 < (r : ℚ) / den :=
      div_pos (by exact_mod_cast Nat.pos_of_ne_zero hzero) (by exact_mod_cast h)
    rw [accuracyOfFraction, if_neg hzero]
    rcases lt_trichotomy (2 * r) den with hr | hr | hr
    · have hhalf := (div_lt_half_iff h).2 hr
      rw [Nat.compare_eq_lt.2 hr]
      exact ⟨by linarith, by linarith⟩
    · rw [Nat.compare_eq_eq.2 hr, (div_eq_half_iff h).2 hr]
      rfl
    · have hhalf := (half_lt_div_iff h).2 hr
      rw [Nat.compare_eq_gt.2 hr]
      exact ⟨by linarith, by linarith⟩

/-- A shift by one place halves the value, and the bits that are shifted out are
remembered. -/
theorem Represents.shiftRightOne (h : Represents em x) : Represents em.shiftRightOne (x / 2) := by
  obtain ⟨m, round, sticky⟩ := em
  have hm : (2 : ℚ) * (m / 2 : ℕ) + (m % 2 : ℕ) = m := by exact_mod_cast Nat.div_add_mod m 2
  rcases Nat.mod_two_eq_zero_or_one m with hbit | hbit <;>
    cases round <;> cases sticky <;>
    simp_all [Represents, ExtendedMantissa.shiftRightOne] <;>
    (try constructor) <;> linarith

/-- A shift by some places divides by a power of two. -/
theorem Represents.shiftRight (h : Represents em x) (n : ℕ) :
    Represents (em >>> n) (x / 2 ^ n) := by
  induction n with
  | zero =>
      rw [pow_zero, div_one]
      exact h
  | succ n ih =>
      rw [pow_succ, ← div_div]
      exact ih.shiftRightOne

/-- The mantissa is the whole part. -/
theorem Represents.bounds (h : Represents em x) : em.mantissa ≤ x ∧ x < em.mantissa + 1 := by
  obtain ⟨m, round, sticky⟩ := em
  cases round <;> cases sticky <;> simp only [Represents] at * <;> constructor <;> linarith

/-- The mantissa is rounded to the nearest whole number. -/
theorem Represents.isRounded (h : Represents em x) : IsRounded .toEven x em.roundedMantissa := by
  obtain ⟨m, round, sticky⟩ := em
  cases round with
  | false =>
      have hlow : (m : ℚ) ≤ x ∧ x < m + 1 / 2 := by
        cases sticky <;> simp only [Represents] at h <;> constructor <;> linarith
      have hdistance : |x - (m : ℤ)| < 1 / 2 := by
        rw [Int.cast_natCast, abs_lt]
        constructor <;> linarith
      cases sticky <;> exact .of_abs_sub_lt hdistance
  | true =>
      cases sticky with
      | false =>
          -- the only case where the rule for halves decides
          simp only [Represents] at h
          simp only [ExtendedMantissa.roundedMantissa, ExtendedMantissa.accuracy,
            Accuracy.roundToNearestEven]
          rcases Nat.mod_two_eq_zero_or_one m with hbit | hbit
          · refine ⟨by rw [hbit, h]; norm_num, fun _ => ?_⟩
            exact_mod_cast (Nat.even_iff.2 (by omega) : Even (m + m % 2))
          · refine ⟨by rw [hbit, h]; norm_num, fun _ => ?_⟩
            exact_mod_cast (Nat.even_iff.2 (by omega) : Even (m + m % 2))
      | true =>
          simp only [Represents] at h
          have hdistance : |x - ((m + 1 : ℕ) : ℤ)| < 1 / 2 := by
            push_cast
            rw [abs_lt]
            constructor <;> linarith
          exact .of_abs_sub_lt hdistance

end Represents

/-! ## Rounding to 53 digits -/

section Round

variable {m : ℕ} {e : ℤ} {acc : Accuracy} {x : ℚ}

/-- A number in the normal range is shifted until it has 53 digits. -/
theorem shiftToTargetExponent_normal (hm : 52 ≤ m.log2) (he : -1074 ≤ m.log2 - 52 + e) :
    shiftToTargetExponent Format.binary64 m e acc =
      (ExtendedMantissa.ofMantissaAndAccuracy m acc >>> (m.log2 - 52),
        e + (m.log2 - 52 : ℕ)) := by
  have hshift : (max (totalExponent m e - 53) (-1074) - e).toNat = m.log2 - 52 := by
    rw [totalExponent]
    omega
  rw [shiftToTargetExponent, shiftToExponent, targetExponent_eq, hshift]

/-- A carry into a new digit is the only thing that moves a rounded mantissa
once more. -/
theorem shiftToTargetExponent_rounded {r : ℕ} (hlow : 2 ^ 52 ≤ r) (hhigh : r ≤ 2 ^ 53)
    (he : -1074 ≤ e) :
    let shifted := shiftToTargetExponent Format.binary64 r e .exact
    shifted.1.mantissa.log2 = 52 ∧ (r : ℚ) * 2 ^ e = shifted.1.mantissa * 2 ^ shifted.2 := by
  rcases hhigh.lt_or_eq with hlt | rfl
  · have hlog : r.log2 = 52 := (Nat.log2_eq_iff (by omega)).2 ⟨hlow, hlt⟩
    rw [shiftToTargetExponent_normal (by omega) (by omega), hlog]
    simp only [mantissa_shiftRight, mantissa_ofMantissaAndAccuracy]
    simpa using hlog
  · rw [shiftToTargetExponent_normal (by rw [Nat.log2_two_pow]; decide)
      (by rw [Nat.log2_two_pow]; omega), Nat.log2_two_pow]
    simp only [mantissa_shiftRight, mantissa_ofMantissaAndAccuracy]
    refine ⟨by decide +kernel, ?_⟩
    rw [show (2 ^ 53) >>> (53 - 52) = 2 ^ 52 by decide +kernel]
    push_cast
    rw [zpow_add₀ two_ne_zero]
    ring

/-- **Rounding**: a number of 53 digits or more is rounded to the nearest one of
53. -/
theorem exists_roundWithAccuracy (s : Sign)
    (h : Represents (ExtendedMantissa.ofMantissaAndAccuracy m acc) x) (hm : 52 ≤ m.log2)
    (he : -1074 ≤ m.log2 - 52 + e) :
    ∃ r f hr, roundWithAccuracy Format.binary64 s m e acc = .finite s r f hr ∧ r.log2 = 52 ∧
      IsNearest (x * 2 ^ e) (r * 2 ^ f) := by
  have hrepresents := h.shiftRight (m.log2 - 52)
  have hlog := log2_shiftToTargetExponent m e acc hm he
  have hfirst := @shiftToTargetExponent_normal m e acc hm he
  rw [hfirst] at hlog
  -- 53 digits before the rounding
  have hbounds := hrepresents.bounds
  have hdigits := (Nat.log2_eq_iff (by rintro hzero; rw [hzero] at hlog; simp at hlog)).1 hlog
  have hpos := two_zpow_pos (e + (m.log2 - 52 : ℕ))
  have hscale : x * 2 ^ e / 2 ^ (e + (m.log2 - 52 : ℕ)) = x / 2 ^ (m.log2 - 52) := by
    rw [zpow_add₀ two_ne_zero, zpow_natCast]
    field_simp
  have hlow : 2 ^ 52 * 2 ^ (e + (m.log2 - 52 : ℕ)) ≤ x * 2 ^ e := by
    rw [← le_div_iff₀ hpos, hscale]
    exact le_trans (by exact_mod_cast hdigits.1) hbounds.1
  have hhigh : x * 2 ^ e < 2 ^ 53 * 2 ^ (e + (m.log2 - 52 : ℕ)) := by
    rw [← div_lt_iff₀ hpos, hscale]
    exact lt_of_lt_of_le hbounds.2 (by exact_mod_cast hdigits.2)
  have hround := hscale ▸ hrepresents.isRounded
  have hrounded := IsNearest.digits hlow hhigh hround
  -- and a carry after it
  obtain ⟨hcarry, hvalue⟩ := shiftToTargetExponent_rounded (e := e + (m.log2 - 52 : ℕ))
    (by exact_mod_cast hrounded.1) (by exact_mod_cast hrounded.2) (by omega)
  obtain ⟨hzero, -⟩ | ⟨hr, hfinite⟩ := roundWithAccuracy_eq s m e acc
  · rw [shiftTwice, hfirst] at hzero
    rw [hzero] at hcarry
    simp at hcarry
  · refine ⟨_, _, hr, hfinite, ?_⟩
    rw [shiftTwice, hfirst]
    exact ⟨hcarry, _, _, hlow, hhigh, hround, by rw [← hvalue]; simp⟩

end Round

end Unpacked

/-! ## Normal doubles -/

namespace Real64

open Unpacked

/-- The double is a number `q` of 53 digits with a sign, none of the subnormal
numbers. -/
def IsNormal (s : Sign) (q : ℚ) (x : Float) : Prop :=
  ∃ m e hm, x.toModel.unpack = .finite s m e hm ∧ m.log2 = 52 ∧ q = m * 2 ^ e

section Normal

variable {s : Sign} {p q : ℚ} {x y : Float}

/-- A significand of 53 bits is short. -/
theorem isShort_of_log2 {m : ℕ} {e : ℤ} (h : m.log2 = 52) : IsShort (m * 2 ^ e) :=
  ⟨m, e, (Nat.lt_log2_self.trans_eq (by rw [h])).le, rfl⟩

/-- A normal double has a short magnitude. -/
theorem IsNormal.isShort (h : IsNormal s q x) : IsShort q := by
  obtain ⟨m, e, hm, -, hlog, rfl⟩ := h
  exact isShort_of_log2 hlog

/-- The exact value, as it is read off the bits. -/
theorem IsNormal.ofFloat (h : IsNormal s q x) :
    ∃ m, Binary64.ofFloat x = .finite (s == .negative) m ∧ m.value = q := by
  obtain ⟨m, e, hm, hu, -, rfl⟩ := h
  rw [ofFloat_eq, hu]
  exact ⟨_, rfl, rfl⟩

/-- Its value is that magnitude with its sign. -/
theorem IsNormal.value_eq (h : IsNormal s q x) :
    value x = if s == .negative then -q else q := by
  obtain ⟨m, hm, rfl⟩ := h.ofFloat
  simp only [value, hm]

theorem IsNormal.abs_value (h : IsNormal s q x) : |value x| = q := by
  have hvalue := h.value_eq
  obtain ⟨m, hm, rfl⟩ := h.ofFloat
  rw [hvalue]
  split
  · rw [abs_neg, abs_of_nonneg m.value_nonneg]
  · exact abs_of_nonneg m.value_nonneg

theorem IsNormal.isInf_eq_false (h : IsNormal s q x) : x.isInf = false := by
  obtain ⟨m, e, hm, hu, -⟩ := h
  change x.toModel.unpack.isInf = false
  rw [hu]
  rfl

/-- There is one normal double of a given value. -/
theorem IsNormal.unique (hx : IsNormal s q x) (hy : IsNormal s q y) : x = y := by
  obtain ⟨m, e, hm, hu, hlog, rfl⟩ := hx
  obtain ⟨m', e', hm', hv, hlog', hvalue⟩ := hy
  have hbounds := log2_bounds hlog
  have hbounds' := log2_bounds hlog'
  have hpos := two_zpow_pos e
  have hpos' := two_zpow_pos e'
  obtain rfl : e = e' :=
    lastPlace_unique (mul_le_mul_of_nonneg_right hbounds.1 hpos.le)
      (mul_lt_mul_of_pos_right hbounds.2 hpos)
      (hvalue ▸ mul_le_mul_of_nonneg_right hbounds'.1 hpos'.le)
      (hvalue ▸ mul_lt_mul_of_pos_right hbounds'.2 hpos')
  obtain rfl : m = m' := by exact_mod_cast mul_right_cancel₀ hpos.ne' hvalue
  exact Binary64.eq_of_ofFloat (by rw [ofFloat_eq, hu]; rfl) (by rw [ofFloat_eq, hv]; rfl)

/-- A double above the subnormal numbers has 53 digits. -/
theorem isNormal_of_ofFloat {negative : Bool} {m : Magnitude}
    (h : Binary64.ofFloat x = .finite negative m) (he : -1074 < m.exponent) :
    m.significand.log2 = 52 ∧ IsNormal (if negative then .negative else .positive) m.value x := by
  rw [ofFloat_eq] at h
  cases hu : x.toModel.unpack with
  | notANumber =>
      rw [hu] at h
      cases h
  | infinity s =>
      rw [hu] at h
      cases h
  | zero s =>
      rw [hu] at h
      cases h
      exact absurd he (by decide)
  | finite s m e hm =>
      rw [hu] at h
      cases h
      have hlog := (unpack_bounds hu).2.2.2 he
      refine ⟨hlog, m, e, hm, ?_, hlog, rfl⟩
      rw [hu]
      cases s <;> rfl

/-- A result of medium size is packed without a change. -/
theorem isNormal_of_pack {r : ℕ} {f : ℤ} {hr : 0 < r}
    (hx : x.toModel = .pack (.finite s r f hr)) (hlog : r.log2 = 52)
    (hnear : IsNearest p (r * 2 ^ f)) (hlow : 2 ^ (-1000 : ℤ) ≤ p) (hhigh : p < 2 ^ (1000 : ℤ)) :
    IsNormal s (r * 2 ^ f) x := by
  have hdigits := log2_bounds hlog
  have hpos := two_zpow_pos f
  have hpositive : 0 < p := lt_of_lt_of_le (two_zpow_pos _) hlow
  have hbelow : -1074 ≤ f := by
    have hlt : (2 : ℚ) ^ (-1000 : ℤ) < 2 ^ (f + 54) := by
      rw [zpow_add₀ two_ne_zero]
      nlinarith [hnear.lt_two_mul]
    rw [two_zpow_lt_iff] at hlt
    omega
  have habove : f ≤ 971 := by
    have hle := abs_le.1 (hnear.abs_sub_le (isShort_natCast (n := 0) (by omega)))
    rw [Nat.cast_zero, sub_zero, abs_of_pos hpositive] at hle
    have hlt : (2 : ℚ) ^ (f + 52) < 2 ^ (1001 : ℤ) := by
      have hmul : 2 ^ 52 * 2 ^ f ≤ (r : ℚ) * 2 ^ f := by
        gcongr
        exact hdigits.1
      rw [add_comm, zpow_add₀ two_ne_zero, show (1001 : ℤ) = 1000 + 1 by rfl,
        zpow_add₀ two_ne_zero]
      norm_num only at hmul hhigh ⊢
      linarith
    rw [two_zpow_lt_iff] at hlt
    omega
  refine ⟨r, f, hr, ?_, hlog, rfl⟩
  rw [hx, unpack_pack_of_canonical (by omega) hbelow habove fun _ => hlog]

section Parts

variable {m m' : ℕ} {e e' : ℤ} {hm : 0 < m} {hm' : 0 < m'}

/-- A product is rounded from the exact product of the significands. -/
theorem mul_finite (s : Sign) :
    UnpackedFloat.mul Format.binary64 (.finite s m e hm) (.finite .positive m' e' hm') =
      roundWithAccuracy Format.binary64 s (m * m') (e + e') .exact := by
  cases s <;> rfl

/-- A quotient is rounded from the quotient of the significands and what is left
of it. -/
theorem div_finite (s : Sign) :
    UnpackedFloat.div Format.binary64 (.finite s m e hm) (.finite .positive m' e' hm') =
      roundWithAccuracy Format.binary64 s (divCore Format.binary64 m e m' e').1
        (divCore Format.binary64 m e m' e').2.1 (divCore Format.binary64 m e m' e').2.2 := by
  cases s <;> rfl

/-- With 53 more places the quotient of two numbers of 53 digits has as many. -/
theorem divCore_normal (hlog : m.log2 = 52) (hlog' : m'.log2 = 52) (he : -1021 ≤ e - e') :
    divCore Format.binary64 m e m' e' =
      (m <<< 53 / m', e - e' - 53, accuracyOfFraction (m <<< 53 % m') m') := by
  have htarget : min (e - e') (Format.binary64.targetExponent
      (totalExponent m e - totalExponent m' e')) = e - e' - 53 := by
    rw [targetExponent_eq, totalExponent, totalExponent]
    omega
  rw [divCore, htarget, show (e - e' - (e - e' - 53)).toNat = 53 by omega]

end Parts

/-- **Products**: the product with a positive number is the nearest double. -/
theorem IsNormal.mul (hx : IsNormal s p x) (hy : IsNormal .positive q y)
    (hlow : 2 ^ (-1000 : ℤ) ≤ p * q) (hhigh : p * q < 2 ^ (1000 : ℤ)) :
    ∃ t, IsNearest (p * q) t ∧ IsNormal s t (x * y) := by
  obtain ⟨m, e, hm, hu, hlog, rfl⟩ := hx
  obtain ⟨m', e', hm', hv, hlog', rfl⟩ := hy
  have hdigits := (Nat.log2_eq_iff (Nat.ne_of_gt hm)).1 hlog
  have hdigits' := (Nat.log2_eq_iff (Nat.ne_of_gt hm')).1 hlog'
  have hproduct : 104 ≤ (m * m').log2 := by
    rw [Nat.le_log2 (Nat.mul_pos hm hm').ne', show 104 = 52 + 52 by rfl, Nat.pow_add]
    exact Nat.mul_le_mul hdigits.1 hdigits'.1
  have hvalue : (m : ℚ) * 2 ^ e * (m' * 2 ^ e') = (m * m' : ℕ) * 2 ^ (e + e') := by
    rw [zpow_add₀ two_ne_zero]
    push_cast
    ring
  rw [hvalue] at hlow hhigh ⊢
  have hexponent : -1074 ≤ ((m * m').log2 : ℤ) - 52 + (e + e') := by
    have hlt : ((m * m' : ℕ) : ℚ) < 2 ^ ((m * m').log2 + 1) := by
      exact_mod_cast Nat.lt_log2_self
    have hbelow := hlow.trans_lt (mul_lt_mul_of_pos_right hlt (two_zpow_pos (e + e')))
    rw [two_pow_mul_zpow, two_zpow_lt_iff] at hbelow
    push_cast at hbelow
    omega
  obtain ⟨r, f, hr, hround, hrlog, hnear⟩ :=
    exists_roundWithAccuracy s (represents_exact (m * m')) (by omega) hexponent
  have hmodel : (x * y).toModel = .pack (.finite s r f hr) := by
    change Float.Model.pack (UnpackedFloat.mul _ x.toModel.unpack y.toModel.unpack) = _
    rw [hu, hv, mul_finite, hround]
  exact ⟨_, hnear, isNormal_of_pack hmodel hrlog hnear hlow hhigh⟩

/-- **Quotients**: the quotient by a positive number is the nearest double. -/
theorem IsNormal.div (hx : IsNormal s p x) (hy : IsNormal .positive q y)
    (hlow : 2 ^ (-1000 : ℤ) ≤ p / q) (hhigh : p / q < 2 ^ (1000 : ℤ)) :
    ∃ t, IsNearest (p / q) t ∧ IsNormal s t (x / y) := by
  obtain ⟨m, e, hm, hu, hlog, rfl⟩ := hx
  obtain ⟨m', e', hm', hv, hlog', rfl⟩ := hy
  have hdigits := (Nat.log2_eq_iff (Nat.ne_of_gt hm)).1 hlog
  have hdigits' := (Nat.log2_eq_iff (Nat.ne_of_gt hm')).1 hlog'
  have hpos : (0 : ℚ) < m' := by exact_mod_cast hm'
  have hquotient : 52 ≤ (m <<< 53 / m').log2 := by
    have hle : 2 ^ 52 ≤ m <<< 53 / m' := by
      rw [Nat.le_div_iff_mul_le hm', Nat.shiftLeft_eq]
      exact Nat.mul_le_mul hdigits.1 hdigits'.2.le
    exact (Nat.le_log2 (by omega)).2 hle
  have hvalue : (m : ℚ) * (2 : ℚ) ^ e / (m' * (2 : ℚ) ^ e') =
      (m <<< 53 : ℕ) / m' * (2 : ℚ) ^ (e - e' - 53) := by
    rw [Nat.shiftLeft_eq, zpow_sub₀ two_ne_zero, zpow_sub₀ two_ne_zero]
    push_cast
    field_simp
  rw [hvalue] at hlow hhigh ⊢
  have hexponent : -1021 ≤ e - e' := by
    have hlt : ((m <<< 53 : ℕ) : ℚ) / m' < 2 ^ 54 := by
      rw [div_lt_iff₀ hpos, Nat.shiftLeft_eq]
      push_cast
      linarith [(log2_bounds hlog).2, (log2_bounds hlog').1]
    have hbelow := hlow.trans_lt (mul_lt_mul_of_pos_right hlt (two_zpow_pos (e - e' - 53)))
    rw [two_pow_mul_zpow, two_zpow_lt_iff] at hbelow
    push_cast at hbelow
    omega
  have hcore := divCore_normal hlog hlog' hexponent
  generalize m <<< 53 = num at *
  obtain ⟨r, f, hr, hround, hrlog, hnear⟩ := exists_roundWithAccuracy (e := e - e' - 53) s
    (represents_quotient num hm') hquotient (by omega)
  have hmodel : (x / y).toModel = .pack (.finite s r f hr) := by
    change Float.Model.pack (UnpackedFloat.div _ x.toModel.unpack y.toModel.unpack) = _
    rw [hu, hv, div_finite, hcore, hround]
  exact ⟨_, hnear, isNormal_of_pack hmodel hrlog hnear hlow hhigh⟩

theorem IsNormal.neg (hx : IsNormal s q x) : IsNormal (-s) q (-x) := by
  obtain ⟨m, e, hm, hu, hlog, rfl⟩ := hx
  have hbounds := unpack_bounds hu
  refine ⟨m, e, hm, ?_, hlog, rfl⟩
  change (Float.Model.pack x.toModel.unpack.neg).unpack = _
  rw [hu]
  exact unpack_pack_of_canonical hbounds.1 hbounds.2.1 hbounds.2.2.1 hbounds.2.2.2

end Normal

/-! ## Whole numbers -/

section Whole

variable {s : Sign} {p : ℚ} {x : Float} {n : ℕ}

theorem isNormal_one : IsNormal .positive 1 (Float.ofBits 0x3FF0000000000000) :=
  ⟨2 ^ 52, -52, by decide, rfl, by decide +kernel, by norm_num⟩

/-- Natural numbers of moderate size are far from the bounds of the normal
range. -/
theorem natCast_bounds (hn : 0 < n) (hlt : n < 2 ^ 1000) :
    (2 : ℚ) ^ (-1000 : ℤ) ≤ n ∧ (n : ℚ) < 2 ^ (1000 : ℤ) := by
  have hone : (1 : ℚ) ≤ n := by exact_mod_cast hn
  constructor
  · exact (zpow_le_one_of_nonpos₀ one_le_two (by decide)).trans hone
  · rw [show (1000 : ℤ) = (1000 : ℕ) by rfl, zpow_natCast]
    exact_mod_cast hlt

theorem normalize_natCast (hn : 0 < n) (e : ℤ) (zeroSign : Sign) :
    UnpackedFloat.normalize Format.binary64 n e zeroSign =
      UnpackedFloat.round Format.binary64 .positive n e := by
  rw [UnpackedFloat.normalize, Int.compare_eq_gt.2 (by omega)]
  rfl

/-- A whole number that is shifted to 53 digits or more is rounded to itself. -/
theorem isNormal_of_shiftLeft {k : ℕ} (hn : 0 < n) (hshort : IsShort n) (hlt : n < 2 ^ 1000)
    (hdigits : 52 ≤ n.log2 + k)
    (hx : x.toModel =
      .pack (roundWithAccuracy Format.binary64 .positive (n <<< k) (-k : ℤ) .exact)) :
    IsNormal .positive n x := by
  have hlog := log2_shiftLeft hn.ne' k
  obtain ⟨r, f, hr, hround, hrlog, hnear⟩ := exists_roundWithAccuracy (e := (-k : ℤ)) .positive
    (represents_exact (n <<< k)) (by omega) (by omega)
  have hvalue : ((n <<< k : ℕ) : ℚ) * 2 ^ (-k : ℤ) = n := by
    rw [Nat.shiftLeft_eq, zpow_neg, zpow_natCast]
    push_cast
    field_simp
  rw [hvalue] at hnear
  have hbounds := natCast_bounds hn hlt
  rw [← hnear.eq_of_isShort hshort]
  exact isNormal_of_pack (hx.trans (by rw [hround])) hrlog hnear hbounds.1 hbounds.2

/-- A word is shifted to 53 digits, which is exact. -/
theorem isNormal_toFloat (hn : 0 < n) (hlt : n < 2 ^ 53) :
    IsNormal .positive n n.toUInt64.toFloat := by
  have hlog : n.log2 ≤ 52 := log2_le_of_lt hlt
  have hword : n.toUInt64.toNat = n := by
    rw [Nat.toUInt64_eq, UInt64.toNat_ofNat', Nat.mod_eq_of_lt (by omega)]
  have htarget : max (totalExponent n 0 - 53) (-1074) = -(52 - n.log2 : ℕ) := by
    rw [totalExponent]
    omega
  refine isNormal_of_shiftLeft (k := 52 - n.log2) hn (isShort_natCast hlt.le) (by omega)
    (by omega) ?_
  change Float.Model.pack (UnpackedFloat.normalize Format.binary64 (n.toUInt64.toNat : ℤ) 0
    .positive) = _
  rw [hword, normalize_natCast hn, UnpackedFloat.round, targetExponent_eq, htarget]
  simp [decreaseExponent]

/-- A whole number of 53 digits is exact as a double. -/
theorem isNormal_ofNat (hn : 0 < n) (hshort : IsShort n) (hlt : n < 2 ^ 1000) :
    IsNormal .positive n (Float.ofNat n) := by
  by_cases hsmall : n < 2 ^ 53
  · have hproduct : Float.ofNat n = n.toUInt64.toFloat * Float.ofBits 0x3FF0000000000000 :=
      dif_pos ⟨hsmall, by decide⟩
    have hbounds := natCast_bounds hn hlt
    rw [← mul_one (n : ℚ)] at hbounds hshort
    obtain ⟨t, hnear, ht⟩ := (isNormal_toFloat hn hsmall).mul isNormal_one hbounds.1 hbounds.2
    rw [hnear.eq_of_isShort hshort, mul_one] at ht
    rwa [hproduct]
  · have hdigits : 53 ≤ n.log2 := (Nat.le_log2 hn.ne').2 (not_lt.1 hsmall)
    have hmodel := @toModel_ofScientific n 0 (fun h => hsmall h.1) hn.ne' (by decide)
    rw [show pow10 0 = 1 from rfl, Nat.mul_one] at hmodel
    exact isNormal_of_shiftLeft (k := 53) hn hshort hlt (by omega) hmodel

/-- Small natural numbers are doubles. -/
theorem value_ofNat (hn : 0 < n) (hlt : n < 2 ^ 53) : value (Float.ofNat n) = n :=
  (isNormal_ofNat hn (isShort_natCast hlt.le) (by omega)).value_eq

/-- A half more, and what is left of a unit dropped. -/
theorem roundDiv_awayFromZero (num : ℕ) {den : ℕ} (h : 0 < den) :
    roundDiv num den .awayFromZero = (2 * num + den) / (2 * den) := by
  have hdiv := Nat.div_add_mod num den
  have hlt := Nat.mod_lt num h
  simp only [roundDiv]
  generalize num / den = q at *
  generalize num % den = r at *
  have hscale : 2 * num + den = 2 * den * q + (2 * r + den) := by
    rw [← hdiv]
    ring
  rw [hscale, Nat.mul_add_div (by omega)]
  by_cases hr : 2 * r < den
  · rw [if_pos hr, Nat.div_eq_of_lt (by omega), Nat.add_zero]
  · rw [if_neg hr, Nat.div_eq_of_lt_le (k := 1) (by omega) (by omega), ite_self]

/-- **Whole numbers**: rounding to a whole number is exact.  A half goes away
from zero, and the result needs no more digits. -/
theorem IsNormal.round (h : IsNormal s p x) (hlow : 1 ≤ p) (hhigh : p ≤ 2 ^ 900) :
    ∃ n : ℕ, 0 < n ∧ IsRounded .awayFromZero p n ∧ IsNormal s n (round x) := by
  obtain ⟨m, hm, hp⟩ := h.ofFloat
  have hrounded := isRounded_roundDiv m.numerator m.denominator_pos .awayFromZero
  rw [← m.value_eq_div, hp, roundDiv_awayFromZero _ m.denominator_pos] at hrounded
  have hresult : Real64.round x = if s == .negative then
      -Float.ofNat ((2 * m.numerator + m.denominator) / (2 * m.denominator))
      else Float.ofNat ((2 * m.numerator + m.denominator) / (2 * m.denominator)) := by
    simp only [Real64.round, hm]
  generalize (2 * m.numerator + m.denominator) / (2 * m.denominator) = n at *
  have hpos : 0 < n := by exact_mod_cast hrounded.le (i := 1) (by exact_mod_cast hlow)
  have hlt : n < 2 ^ 1000 := by
    have hle : (n : ℤ) ≤ (2 ^ 900 : ℕ) := hrounded.ge (by exact_mod_cast hhigh)
    omega
  have hexact := isNormal_ofNat hpos (hrounded.isShort h.isShort) hlt
  refine ⟨n, hpos, hrounded, ?_⟩
  rw [hresult]
  cases s with
  | negative => exact hexact.neg
  | positive => exact hexact

end Whole

end Real64

end GlutSketch
