import GlutSketch.Proofs.Numeric.Correct

/-!
# GlutSketch.Proofs.Numeric.Sixteenths

The doubles halfway between two thousandths are the odd sixteenths, and a
multiplication by sixteen tells them from the others.

* `IsShort.exists_sixteenths` -- there are no other halves of a thousandth.
* `Real64.IsNormal.isOddWhole_sixteenths_iff` -- the test for them is exact.
-/

namespace GlutSketch

/-! ## Halves of a thousandth -/

/-- Sixteenths are short, as long as they are not too large. -/
theorem isShort_sixteenths {k : ℕ} (h : k ≤ 2 ^ 53) : IsShort (k / 16) := by
  refine ⟨k, -4, h, ?_⟩
  norm_num
  ring

/-- An odd number of sixteenths that is a double has 53 digits without any
rounding. -/
theorem IsShort.lt_of_odd {k : ℕ} (h : IsShort (k / 16)) (hodd : k % 2 = 1) : k < 2 ^ 53 := by
  obtain ⟨n, f, hn, hk⟩ := h
  have hvalue : (k : ℚ) = n * 2 ^ (f + 4) := by
    rw [zpow_add₀ two_ne_zero, ← mul_assoc, ← hk]
    norm_num
  rcases le_or_gt (f + 4) 0 with hf | hf
  · have hle : (k : ℚ) ≤ n := by
      rw [hvalue]
      exact mul_le_of_le_one_right (Nat.cast_nonneg n) (zpow_le_one_of_nonpos₀ one_le_two hf)
    have hle' : k ≤ n := by exact_mod_cast hle
    omega
  · exfalso
    have heven : k = n * 2 ^ (f + 3).toNat * 2 := by
      rw [two_zpow_eq_mul hf.le] at hvalue
      rw [mul_assoc, ← pow_succ, show (f + 3).toNat + 1 = (f + 4).toNat by omega]
      have hvalue' : (k : ℚ) = (n * 2 ^ (f + 4).toNat : ℕ) := by
        rw [hvalue]
        simp
      exact_mod_cast hvalue'
    omega

/-- The only doubles in the middle of two thousandths are the odd sixteenths. -/
theorem IsShort.exists_sixteenths {q : ℚ} (h : IsShort q) {j : ℕ} (hj : q * 2000 = j)
    (hodd : j % 2 = 1) : ∃ k : ℕ, k % 2 = 1 ∧ q = k / 16 := by
  -- it is enough that the number of sixteenths is whole
  suffices hwhole : ∃ k : ℕ, q * 16 = k by
    obtain ⟨k, hk⟩ := hwhole
    have hj' : (125 * k : ℚ) = j := by
      rw [← hk, ← hj]
      ring
    have hj'' : 125 * k = j := by exact_mod_cast hj'
    exact ⟨k, by omega, by rw [← hk]; ring⟩
  obtain ⟨n, f, -, rfl⟩ := h
  have hvalue : (n : ℚ) * 2 ^ f * 16 = n * 2 ^ (f + 4) := by
    rw [zpow_add₀ two_ne_zero]
    norm_num
    ring
  rcases le_or_gt 0 (f + 4) with hf | hf
  · refine ⟨n * 2 ^ (f + 4).toNat, ?_⟩
    rw [hvalue, two_zpow_eq_mul hf]
    simp
  · -- the denominator divides the numerator, for it has no common factor with 125
    have hpow : (2 : ℚ) ^ (f + 4) * (2 ^ (-(f + 4)).toNat : ℕ) = 1 := by
      push_cast
      rw [← zpow_natCast, Int.toNat_of_nonneg (by omega), ← zpow_add₀ two_ne_zero,
        add_neg_cancel, zpow_zero]
    have hmul : (125 * n : ℚ) = j * (2 ^ (-(f + 4)).toNat : ℕ) := by
      calc
        (125 * n : ℚ) = n * 2 ^ (f + 4) * 125 * (2 ^ (-(f + 4)).toNat : ℕ) := by
          linear_combination (-125 * (n : ℚ)) * hpow
        _ = j * (2 ^ (-(f + 4)).toNat : ℕ) := by
          rw [← hvalue, ← hj]
          ring
    have hmul' : 125 * n = 2 ^ (-(f + 4)).toNat * j := by
      rw [mul_comm _ j]
      exact_mod_cast hmul
    obtain ⟨i, rfl⟩ := ((by decide : Nat.Coprime 2 125).pow_left _).dvd_of_dvd_mul_left ⟨j, hmul'⟩
    refine ⟨i, ?_⟩
    rw [hvalue, Nat.cast_mul, mul_right_comm, mul_comm _ ((2 : ℚ) ^ (f + 4)), hpow, one_mul]

end GlutSketch

namespace GlutSketch.Real64

open Float.Model (UnpackedFloat)
open Float.Model.UnpackedFloat
open Unpacked

/-! ## Doubles of medium size -/

variable {s : Sign} {p q : ℚ} {x : Float}

/-- Medium products are far from the bounds of the normal range. -/
theorem range_of_medium (hlow : 1 / 2048 ≤ p) (hhigh : p ≤ 2 ^ 100) :
    2 ^ (-1000 : ℤ) ≤ p ∧ p < 2 ^ (1000 : ℤ) := by
  have hlow' : (2 : ℚ) ^ (-1000 : ℤ) ≤ 2 ^ (-11 : ℤ) := two_zpow_le_iff.2 (by decide)
  have hhigh' : (2 : ℚ) ^ (100 : ℤ) < 2 ^ (1000 : ℤ) := two_zpow_lt_iff.2 (by decide)
  constructor
  · exact hlow'.trans (le_trans (by norm_num) hlow)
  · exact hhigh.trans_lt (lt_of_eq_of_lt (by norm_num) hhigh')

theorem isNormal_sixteen : IsNormal .positive 16 16 :=
  ⟨2 ^ 52, -48, by decide, rfl, by decide +kernel, by norm_num⟩

theorem isNormal_thousand : IsNormal .positive 1000 1000 :=
  ⟨1000 * 2 ^ 43, -43, by decide, rfl, by decide +kernel, by norm_num⟩

/-- Odd whole numbers among the doubles. -/
theorem IsNormal.isOddWhole_iff (h : IsNormal s q x) :
    IsOddWhole x ↔ ∃ k : ℕ, k % 2 = 1 ∧ q = k := by
  obtain ⟨m, hm, rfl⟩ := h.ofFloat
  have hden : (0 : ℚ) < m.denominator := by exact_mod_cast m.denominator_pos
  unfold IsOddWhole
  rw [hm]
  simp only [Magnitude.IsWhole, Magnitude.floor]
  rw [m.value_eq_div]
  constructor
  · rintro ⟨hwhole, hodd⟩
    refine ⟨_, hodd, ?_⟩
    rw [Nat.cast_div (Nat.dvd_of_mod_eq_zero hwhole) hden.ne']
  · rintro ⟨k, hodd, hk⟩
    rw [div_eq_iff hden.ne'] at hk
    have hk' : m.numerator = k * m.denominator := by exact_mod_cast hk
    rw [hk', Nat.mul_mod_left, Nat.mul_div_cancel _ m.denominator_pos]
    exact ⟨rfl, hodd⟩

/-- The test for odd sixteenths is exact. -/
theorem IsNormal.isOddWhole_sixteenths_iff (h : IsNormal s q x) (hlow : 1 / 2000 < q) :
    IsOddWhole (x * 16) ↔ ∃ k : ℕ, k % 2 = 1 ∧ q = k / 16 := by
  have hmul : q ≤ 2 ^ 49 → (IsOddWhole (x * 16) ↔ ∃ k : ℕ, k % 2 = 1 ∧ q = k / 16) := by
    intro hhigh
    have hrange := @range_of_medium (q * 16) (by linarith) (by linarith)
    obtain ⟨t, hnear, ht⟩ := h.mul isNormal_sixteen hrange.1 hrange.2
    have hshort : IsShort (q * 16) := by
      have hscaled := h.isShort.mul_two_zpow 4
      norm_num at hscaled
      exact hscaled
    rw [hnear.eq_of_isShort hshort] at ht
    rw [ht.isOddWhole_iff]
    constructor
    · rintro ⟨k, hodd, hk⟩
      exact ⟨k, hodd, by rw [← hk]; ring⟩
    · rintro ⟨k, hodd, hk⟩
      exact ⟨k, hodd, by rw [hk]; ring⟩
  constructor
  · intro hodd
    refine (hmul ?_).1 hodd
    obtain ⟨m, e, hm, hu, hlog, rfl⟩ := h
    have hulp := ulpLe_of_isOddWhole hodd
    unfold UlpLe at hulp
    rw [hu] at hulp
    calc
      (m : ℚ) * 2 ^ e ≤ 2 ^ 53 * 2 ^ (-4 : ℤ) :=
        mul_le_mul (log2_bounds hlog).2.le (two_zpow_le_iff.2 hulp) (two_zpow_pos e).le (by simp)
      _ = 2 ^ 49 := by norm_num
  · rintro ⟨k, hodd, rfl⟩
    have hlt := IsShort.lt_of_odd h.isShort hodd
    have hlt' : (k : ℚ) < 2 ^ 53 := by exact_mod_cast hlt
    exact (hmul (by linarith)).2 ⟨k, hodd, rfl⟩

end GlutSketch.Real64
