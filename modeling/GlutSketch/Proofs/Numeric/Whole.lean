import GlutSketch.Proofs.Numeric.Finite

/-!
# GlutSketch.Proofs.Numeric.Whole

Whole numbers as doubles, and doubles that are close to whole numbers.

* `Real64.ulpLe_ofNat` -- the double nearest to a whole number is in reach.
* `Real64.ulpLe_round` -- rounding to a whole number stays in reach.
* `Real64.ulpLe_of_isOddWhole` -- a double with an odd number of sixteenths is
  small.
-/

namespace GlutSketch.Real64

open Float.Model (Format totalExponent UnpackedFloat)
open Float.Model.UnpackedFloat
open Unpacked

variable {x : Float}

/-! ## Decimals without a point -/

/-- The product with a power of ten is rounded once, from 53 places more. -/
theorem ofScientific_eq {m k : Nat} (hm : m ≠ 0) (hk : k ≤ 2048) :
    UnpackedFloat.ofScientific Format.binary64 m (k : Int) =
      roundWithAccuracy Format.binary64 .positive (m <<< 53 * pow10 k) (-53) .exact := by
  unfold UnpackedFloat.ofScientific
  rw [dif_neg hm, if_neg (by simp; omega), if_neg (by simp; omega), if_pos (by omega)]
  rfl

/-- What cannot be computed from an exact power of ten is rounded from the exact
value. -/
theorem toModel_ofScientific {m k : Nat} (h : ¬(m < pow2 53 ∧ k ≤ 22)) (hm : m ≠ 0)
    (hk : k ≤ 2048) :
    (Float.ofScientific m false k).toModel =
      .pack (roundWithAccuracy Format.binary64 .positive (m <<< 53 * pow10 k) (-53) .exact) := by
  rw [← ofScientific_eq hm hk]
  unfold Float.ofScientific
  rw [dif_neg h]
  rfl

/-! ## Whole numbers -/

/-- A natural number as a double has a last place bounded by its logarithm. -/
theorem ulpLe_ofNat {n t : Nat} (hlog : n.log2 ≤ t) (ht : t ≤ 900) :
    UlpLe (t + 3) (Float.ofNat n) := by
  by_cases hsmall : n < 2 ^ 53
  · have hone : UlpLe (-52) (Float.ofBits 0x3FF0000000000000) := by
      change (-52 : Int) ≤ -52
      decide
    have hword : UlpLe 1 n.toUInt64.toFloat := by
      have hbits : (n.toUInt64.toNat : Int).natAbs.log2 ≤ 52 := by
        rw [Int.natAbs_natCast, Nat.toUInt64_eq, UInt64.toNat_ofNat', Nat.mod_eq_of_lt (by omega)]
        exact log2_le_of_lt hsmall
      refine ulpLe_unpack_pack (k := 1) (by decide) (by decide)
        (ulpLe_normalize (k := 0) ?_ (by decide))
      simp only [totalExponent]
      omega
    have hproduct : Float.ofNat n = n.toUInt64.toFloat * Float.ofBits 0x3FF0000000000000 :=
      dif_pos ⟨hsmall, by decide⟩
    rw [hproduct]
    refine (hword.mul (l := 3) hone (by decide) (by decide) (by decide)).mono ?_
    omega
  · have hmodel := @toModel_ofScientific n 0 (fun h => hsmall h.1) (by omega) (by decide)
    have hshift := log2_shiftLeft_le n 53
    rw [show pow10 0 = 1 from rfl, Nat.mul_one] at hmodel
    generalize n <<< 53 = m at hmodel hshift
    have hround := @ulpLe_roundWithAccuracy .positive m (-53) (t + 2) .exact (by omega)
      (by simp only [totalExponent]; omega) (by omega)
    change Unpacked.UlpLe _ (Float.ofScientific n false 0).toModel.unpack
    rw [hmodel]
    refine ulpLe_unpack_pack (by omega) (by omega) (hround.mono ?_)
    omega

/-! ## Rounding to whole numbers -/

/-- The nearest whole number is hardly greater than the numerator. -/
theorem nearest_le (m : Magnitude) :
    (2 * m.numerator + m.denominator) / (2 * m.denominator) ≤ m.numerator + 1 := by
  have hmul := Nat.le_mul_of_pos_right m.numerator m.denominator_pos
  have hexpand : 2 * m.denominator * (m.numerator + 1) =
      2 * (m.numerator * m.denominator) + 2 * m.denominator := by grind
  apply Nat.div_le_of_le_mul
  omega

/-- A rounded magnitude is a double with a bounded last place. -/
theorem ulpLe_ofNat_nearest {m : Magnitude} {k : Nat} (hbits : m.significand.log2 ≤ 52)
    (he : m.exponent ≤ k) (hk : k ≤ 800) :
    UlpLe (k + 57) (Float.ofNat ((2 * m.numerator + m.denominator) / (2 * m.denominator))) := by
  have hnumerator : m.numerator.log2 ≤ m.significand.log2 + m.exponent.toNat := by
    rw [Magnitude.numerator, pow2, Nat.pow_eq, ← Nat.shiftLeft_eq]
    exact log2_shiftLeft_le _ _
  have hnear := log2_mono (nearest_le m)
  have hcarry := log2_succ_le m.numerator
  refine (@ulpLe_ofNat _ (53 + k) ?_ (by omega)).mono (by omega)
  omega

/-- Rounding to a whole number stays in reach. -/
theorem ulpLe_round {k : Nat} (hx : UlpLe k x) (hk : k ≤ 800) : UlpLe (k + 57) (round x) := by
  obtain ⟨negative, m, hvalue, hbits, he⟩ := hx.ofFloat (by omega)
  have hnearest := ulpLe_ofNat_nearest hbits he hk
  unfold round
  rw [hvalue]
  simp only
  split
  · exact hnearest.neg (by omega) (by omega)
  · exact hnearest

/-! ## Sixteenths -/

/-- A double in units of a power of two above one is even. -/
theorem even_floor {m : Nat} {e : Int} (he : 0 < e) : Magnitude.floor ⟨m, e⟩ % 2 = 0 := by
  have hdenominator : (-e).toNat = 0 := by omega
  have hnumerator : e.toNat = (e.toNat - 1) + 1 := by omega
  simp only [Magnitude.floor, Magnitude.numerator, Magnitude.denominator, pow2, Nat.pow_eq,
    hdenominator, Nat.pow_zero, Nat.div_one]
  rw [hnumerator, Nat.pow_succ, ← Nat.mul_assoc, Nat.mul_mod_left]

/-- A double with 53 bits has a last place sixteen times as large after the
multiplication by sixteen, unless it becomes infinite. -/
theorem unpack_mul_sixteen {s : Sign} {m : Nat} {e : Int} {hm : 0 < m}
    (hu : x.toModel.unpack = .finite s m e hm) (he : -1074 < e) :
    (∃ s', (x * 16).toModel.unpack = .infinity s') ∨
      ∃ s' m' e' hm', (x * 16).toModel.unpack = .finite s' m' e' hm' ∧ e + 4 ≤ e' := by
  have hlog := (unpack_bounds hu).2.2.2 he
  have hbounds := (Nat.log2_eq_iff (Nat.ne_of_gt hm)).1 hlog
  have hsixteen : (16 : Float).toModel.unpack =
      .finite .positive (2 ^ 52) (-48) (by decide) := rfl
  have hproduct : 104 ≤ (m * 2 ^ 52).log2 := by
    rw [Nat.le_log2 (by omega)]
    omega
  obtain ⟨m', e', hm', hround, hmantissa, he'⟩ := @roundWithAccuracy_normal (m * 2 ^ 52)
    (e + -48) (s * .positive) .exact (by omega) (by omega)
  have hmul : (x * 16).toModel = .pack (.finite (s * .positive) m' e' hm') := by
    rw [← hround]
    change Float.Model.pack (UnpackedFloat.mul _ x.toModel.unpack
      (16 : Float).toModel.unpack) = _
    rw [hu, hsixteen]
    rfl
  have hlow : -1074 ≤ e' := by omega
  rw [hmul]
  obtain hv | hv := unpack_pack_normal hmantissa hlow
  · exact .inl ⟨_, hv⟩
  · exact .inr ⟨_, m', e', hm', hv, by omega⟩

/-- An odd whole double is finite. -/
theorem isFinite_of_isOddWhole (h : IsOddWhole x) : x.isFinite := by
  unfold IsOddWhole at h
  split at h
  · rename_i negative m hx
    exact isFinite_iff_ofFloat.2 ⟨negative, m, hx⟩
  · cases h

/-- An odd number of sixteenths leaves no place for a large double. -/
theorem ulpLe_of_isOddWhole (h : IsOddWhole (x * 16)) : UlpLe (-4) x := by
  have hfinite := (isFinite_of_mul (isFinite_of_isOddWhole h)).1
  unfold IsOddWhole at h
  rw [ofFloat_eq] at h
  obtain ⟨s, hu⟩ | ⟨s, m, e, hm, hu, -⟩ := (isFinite_iff_ulpLe.1 hfinite).elim
  · unfold UlpLe
    rw [hu]
    trivial
  · by_cases he : e ≤ -4
    · unfold UlpLe
      rw [hu]
      exact he
    · exfalso
      obtain ⟨s', hv⟩ | ⟨s', m', e', hm', hv, he'⟩ := unpack_mul_sixteen hu (by omega)
      · rw [hv] at h
        exact h
      · rw [hv] at h
        have heven := @even_floor m' e' (by omega)
        have hodd := h.2
        omega

end GlutSketch.Real64
