import GlutSketch.Json.Record
import GlutSketch.Proofs.Numeric.Whole

/-!
# GlutSketch.Proofs.Json.Finite

Every number that is read is finite.  The digits give a whole number of 64 bits,
which no power of ten can make infinite by a division; a product that would be
infinite is not accepted.

* `isFinite_of_toFloat?` -- the double of a spelling.
* `isFinite_of_asFloat?` -- the double of a value.
-/

namespace GlutSketch.Json

open Float.Model (totalExponent)
open Real64 Unpacked

/-! ## Powers of ten -/

/-- A greater exponent gives a greater power. -/
theorem pow10_mono {j k : Nat} (h : j ≤ k) : pow10 j ≤ pow10 k :=
  Nat.pow_le_pow_right (by decide) h

/-- The small powers are exact; the others are rounded from more than 53
bits. -/
theorem twoPowLe_tenPower {k : Nat} (hk : k ≤ maxTenPower) : TwoPowLe 0 (tenPower k) := by
  by_cases hsmall : k < 23
  · have hall : ∀ k < 23, TwoPowLe 0 (tenPower k) := by decide +kernel
    exact hall k hsmall
  · have hlimit : k ≤ 2048 := Nat.le_trans hk (by decide)
    have hlog : 53 ≤ (1 <<< 53 * pow10 k).log2 := by
      have hpos : 0 < pow10 k := Nat.pow_pos (by decide)
      rw [Nat.le_log2 (by omega), Nat.shiftLeft_eq, Nat.one_mul]
      exact Nat.le_mul_of_pos_right _ hpos
    obtain ⟨m, e, hm, hround, hmantissa, he⟩ := @roundWithAccuracy_normal
      (1 <<< 53 * pow10 k) (-53) .positive .exact (by omega) (by omega)
    have hlow : -1074 ≤ e := by omega
    unfold TwoPowLe tenPower
    rw [toModel_ofScientific (fun h => hsmall (Nat.lt_succ_of_le h.2)) (by decide) hlimit, hround]
    obtain hu | hu := unpack_pack_normal hmantissa hlow
    · rw [hu]
      trivial
    · rw [hu]
      simp only [totalExponent]
      omega

/-- The greatest power is a double, and the others are below it. -/
theorem isFinite_tenPower {k : Nat} (hk : k ≤ maxTenPower) : (tenPower k).isFinite := by
  by_cases hsmall : k < 23
  · have hall : ∀ k < 23, (tenPower k).isFinite := by decide +kernel
    exact hall k hsmall
  · by_cases hlast : k = maxTenPower
    · rw [hlast]
      decide +kernel
    · have hlimit : k ≤ 307 := by
        have hmax : maxTenPower = 308 := rfl
        omega
      have hlog : (1 <<< 53 * pow10 k).log2 ≤ 1072 := by
        have hmono := log2_mono (Nat.mul_le_mul_left (1 <<< 53) (pow10_mono hlimit))
        have hgreatest : (1 <<< 53 * pow10 307).log2 = 1072 := by decide +kernel
        omega
      have hround := @ulpLe_roundWithAccuracy .positive (1 <<< 53 * pow10 k) (-53) 967 .exact
        (by decide) (by simp only [totalExponent]; omega) (by decide)
      apply UlpLe.isFinite (k := 968)
      change Unpacked.UlpLe 968 (tenPower k).toModel.unpack
      rw [tenPower, toModel_ofScientific (fun h => hsmall (Nat.lt_succ_of_le h.2)) (by decide)
        (by omega)]
      exact ulpLe_unpack_pack (by decide) (by decide) hround

/-! ## Scaling -/

theorem twoPowLe_maxTenPower : TwoPowLe 1 (tenPower maxTenPower) := by decide +kernel

/-- Divisions by powers of ten stay in reach. -/
theorem ulpLe_divideTenPower {x : Float} {k : Nat} (hx : UlpLe 66 x) :
    UlpLe 67 (divideTenPower x k) := by
  induction x, k using divideTenPower.induct with
  | case1 x k hk hzero =>
      rw [divideTenPower, if_pos hk, if_pos hzero]
      exact hx.mono (by decide)
  | case2 x k hk hzero ih =>
      have hstep : UlpLe 66 (x / tenPower maxTenPower) :=
        UlpLe.div hx twoPowLe_maxTenPower (by decide) (by decide) (by decide)
      rw [divideTenPower, if_pos hk, if_neg hzero]
      exact ih hstep
  | case3 x k hk =>
      rw [divideTenPower, if_neg hk]
      exact hx.div (twoPowLe_tenPower (Nat.le_of_not_lt hk)) (by decide) (by decide) (by decide)

/-- A scaling that does not overflow gives a finite number. -/
theorem isFinite_of_scaleTenPower? {x y : Float} {exponent : Int} (hx : UlpLe 66 x)
    (h : scaleTenPower? x exponent = some y) : y.isFinite := by
  unfold scaleTenPower? at h
  split at h
  · cases h
    exact (ulpLe_divideTenPower hx).isFinite
  · split at h
    · split at h
      · cases h
        exact hx.isFinite
      · cases h
    · rename_i hk
      simp only at h
      split at h
      · cases h
      · rename_i hinf
        cases h
        exact isFinite_mul hx.isFinite (isFinite_tenPower (Nat.le_of_not_lt hk))
          (Bool.eq_false_iff.2 hinf)

/-! ## Numbers -/

/-- The significand that is collected stays a word. -/
theorem appendDigits_lt {n : Nat} (hn : n < wordLimit) (cs : List Char) :
    (appendDigits n cs).1 < wordLimit := by
  induction cs generalizing n with
  | nil => exact hn
  | cons c cs ih =>
      simp only [appendDigits]
      split
      · rename_i hnext
        exact ih hnext
      · exact hn

/-- The double of a spelling is finite. -/
theorem isFinite_of_toFloat? {n : Number} {x : Float} (h : n.toFloat? = some x) :
    x.isFinite := by
  unfold Number.toFloat? at h
  obtain ⟨y, hy, rfl⟩ := Option.map_eq_some_iff.1 h
  have hlog : (appendDigits (appendDigits 0 n.whole).1 n.fraction).1.log2 ≤ 63 :=
    Unpacked.log2_le_of_lt (appendDigits_lt (appendDigits_lt (by decide) _) _)
  have hfinite := isFinite_of_scaleTenPower? (ulpLe_ofNat hlog (by decide)) hy
  split
  · exact isFinite_neg hfinite
  · exact hfinite

/-- Only finite numbers are read. -/
theorem isFinite_of_asFloat? {v : Json} {x : Float} (h : v.asFloat? = some x) : x.isFinite := by
  unfold asFloat? at h
  split at h
  · exact isFinite_of_toFloat? h
  · cases h

end GlutSketch.Json
