import Mathlib
import GlutSketch.Proofs.Numeric.Finite
import GlutSketch.Proofs.Numeric.Nearest

/-!
# GlutSketch.Proofs.Numeric.Exact

The exact values of doubles as rational numbers.

* `Magnitude.value`, `Real64.value` -- the values.
* `Binary64.eq_of_ofFloat` -- a finite double is determined by its value and
  sign.
* `Real64.abs_value` -- they are read off the parts of a double.
* `Real64.lt_iff_value_lt` -- finite doubles are in the order of their values.
-/

namespace GlutSketch

open Float.Model (UnpackedFloat)
open Float.Model.UnpackedFloat

/-! ## Values -/

/-- The value of a magnitude as a rational number. -/
def Magnitude.value (m : Magnitude) : ℚ := m.significand * 2 ^ m.exponent

theorem Magnitude.value_nonneg (m : Magnitude) : 0 ≤ m.value := by
  unfold value
  positivity

/-- A power is a quotient of two with natural exponents. -/
theorem zpow_eq_div {b : ℚ} (hb : b ≠ 0) (e : ℤ) : b ^ e = b ^ e.toNat / b ^ (-e).toNat := by
  rw [← zpow_natCast, ← zpow_natCast, ← zpow_sub₀ hb]
  congr 1
  omega

/-- The numerator and the denominator give the value. -/
theorem Magnitude.value_eq_div (m : Magnitude) : m.value = m.numerator / m.denominator := by
  rw [value, zpow_eq_div two_ne_zero, numerator, denominator, pow2, pow2, Nat.pow_eq, Nat.pow_eq]
  push_cast
  rw [mul_div_assoc]

/-- The value of a finite double as a rational number; zero for an infinity and
a NaN. -/
def Real64.value (x : Float) : ℚ :=
  match Binary64.ofFloat x with
  | .finite negative m => if negative then -m.value else m.value
  | _ => 0

/-! ## Bits -/

section Bits

variable {x y : Float} {negative : Bool} {m : Magnitude}

/-- The bits of a finite double, from its exact value: a sign, an exponent and
the digits without the first one, which a subnormal number does not have. -/
theorem Binary64.toBits_of_finite (h : ofFloat x = .finite negative m) :
    ∃ biased fraction, fraction < 2 ^ 52 ∧
      x.toBits.toNat = (if negative then 2 ^ 63 else 0) + biased * 2 ^ 52 + fraction ∧
      (biased = 0 ∧ m = ⟨fraction, -1074⟩ ∨
        0 < biased ∧ m = ⟨2 ^ 52 + fraction, biased - 1075⟩) := by
  have hlt := x.toBits.toNat_lt
  simp only [ofFloat, pow2, Nat.pow_eq] at h
  generalize x.toBits.toNat = bits at *
  have hbits : bits = (if bits / 2 ^ 63 == 1 then 2 ^ 63 else 0) +
      bits / 2 ^ 52 % 2 ^ 11 * 2 ^ 52 + bits % 2 ^ 52 := by
    split <;> simp at * <;> omega
  refine ⟨bits / 2 ^ 52 % 2 ^ 11, bits % 2 ^ 52, Nat.mod_lt _ (by decide), ?_⟩
  split at h
  · split at h <;> cases h
  · split at h
    · next hzero =>
      cases h
      exact ⟨hbits, .inl ⟨hzero, rfl⟩⟩
    · next hpos =>
      cases h
      exact ⟨hbits, .inr ⟨Nat.pos_of_ne_zero hpos, rfl⟩⟩

/-- A finite double is determined by its exact value. -/
theorem Binary64.eq_of_ofFloat (hx : ofFloat x = .finite negative m)
    (hy : ofFloat y = .finite negative m) : x = y := by
  obtain ⟨biased, fraction, hlt, hbits, hm⟩ := toBits_of_finite hx
  obtain ⟨biased', fraction', hlt', hbits', hm'⟩ := toBits_of_finite hy
  have hsame : biased = biased' ∧ fraction = fraction' := by
    obtain ⟨hb, rfl⟩ | ⟨hb, rfl⟩ := hm <;> obtain ⟨hb', heq⟩ | ⟨hb', heq⟩ := hm' <;>
      rw [Magnitude.mk.injEq] at heq <;> omega
  rw [← Float.toBits_inj, ← UInt64.toNat_inj, hbits, hbits', hsame.1, hsame.2]

end Bits

namespace Real64

open Unpacked

section Values

variable {s s' : Sign} {x y : Float} {m m' : ℕ} {e e' : ℤ} {hm : 0 < m} {hm' : 0 < m'}

theorem value_of_zero (hu : x.toModel.unpack = .zero s) : value x = 0 := by
  simp [value, ofFloat_eq, hu, exactValue, Magnitude.value]

/-- The value of a finite double is its significand times its power of two, with
its sign. -/
theorem value_of_finite (hu : x.toModel.unpack = .finite s m e hm) :
    value x = if s == .negative then -((m : ℚ) * 2 ^ e) else (m : ℚ) * 2 ^ e := by
  rw [value, ofFloat_eq, hu]
  rfl

theorem abs_value (hu : x.toModel.unpack = .finite s m e hm) : |value x| = m * 2 ^ e := by
  have hnonneg : (0 : ℚ) ≤ m * 2 ^ e := by positivity
  rw [value_of_finite hu]
  split
  · rw [abs_neg, abs_of_nonneg hnonneg]
  · exact abs_of_nonneg hnonneg

theorem unpack_abs (hu : x.toModel.unpack = .finite s m e hm) :
    x.abs.toModel.unpack = .finite .positive m e hm := by
  have hbounds := unpack_bounds hu
  change (Float.Model.pack x.toModel.unpack.abs).unpack = _
  rw [hu]
  exact unpack_pack_of_canonical hbounds.1 hbounds.2.1 hbounds.2.2.1 hbounds.2.2.2

/-! ## The order of values -/

theorem log2_bounds (h : m.log2 = 52) : (2 : ℚ) ^ 52 ≤ m ∧ (m : ℚ) < 2 ^ 53 := by
  have hbounds := (Nat.log2_eq_iff (by rintro rfl; simp at h)).1 h
  exact_mod_cast hbounds

/-- With a finer last place a number is less than any other of 53 digits. -/
theorem mul_lt_mul_of_exponent_lt (hm : m.log2 ≤ 52) (hm' : m'.log2 = 52) (he : e < e') :
    (m : ℚ) * 2 ^ e < m' * 2 ^ e' := by
  have hlt : (m : ℚ) < 2 ^ 53 := by
    exact_mod_cast lt_of_lt_of_le (Nat.lt_log2_self (n := m))
      (Nat.pow_le_pow_right two_pos (by omega))
  calc
    (m : ℚ) * 2 ^ e < 2 ^ 53 * 2 ^ e := mul_lt_mul_of_pos_right hlt (two_zpow_pos e)
    _ ≤ 2 ^ 52 * 2 ^ e' := by
      rw [two_pow_mul_zpow, two_pow_mul_zpow, two_zpow_le_iff]
      push_cast
      omega
    _ ≤ m' * 2 ^ e' := mul_le_mul_of_nonneg_right (log2_bounds hm').1 (two_zpow_pos e').le

/-- The parts of doubles are ordered like the numbers, the last place first. -/
theorem mul_lt_mul_iff (hu : x.toModel.unpack = .finite s m e hm)
    (hv : y.toModel.unpack = .finite s' m' e' hm') :
    (m : ℚ) * 2 ^ e < m' * 2 ^ e' ↔ e < e' ∨ e = e' ∧ m < m' := by
  have hx := unpack_bounds hu
  have hy := unpack_bounds hv
  rcases lt_trichotomy e e' with he | rfl | he
  · exact iff_of_true (mul_lt_mul_of_exponent_lt hx.1 (hy.2.2.2 (by omega)) he) (.inl he)
  · rw [mul_lt_mul_iff_left₀ (two_zpow_pos e), Nat.cast_lt]
    simp
  · have hlt := mul_lt_mul_of_exponent_lt hy.1 (hx.2.2.2 (by omega)) he
    exact iff_of_false hlt.le.not_gt (by omega)

/-- Normal doubles are compared by their exponents first. -/
theorem lt_finite_iff :
    (UnpackedFloat.finite .positive m e hm).lt (.finite .positive m' e' hm') ↔
      e < e' ∨ e = e' ∧ m < m' := by
  simp [UnpackedFloat.lt, UnpackedFloat.compare, Ordering.then_eq_lt, Int.compare_eq_lt,
    Nat.compare_eq_lt]

theorem lt_finite_negative_iff :
    (UnpackedFloat.finite .negative m e hm).lt (.finite .negative m' e' hm') ↔
      e' < e ∨ e = e' ∧ m' < m := by
  simp [UnpackedFloat.lt, UnpackedFloat.compare, Ordering.then_eq_gt, Int.compare_eq_gt,
    Nat.compare_eq_gt]

/-- Finite doubles are in the order of their values. -/
theorem lt_iff_value_lt (hx : x.isFinite) (hy : y.isFinite) : x < y ↔ value x < value y := by
  have hpos : ∀ {m : ℕ} (e : ℤ), 0 < m → (0 : ℚ) < m * 2 ^ e := fun e hm =>
    mul_pos (by exact_mod_cast hm) (two_zpow_pos e)
  rw [lt_iff]
  obtain ⟨s, hu⟩ | ⟨s, m, e, hm, hu, -⟩ := (isFinite_iff_ulpLe.1 hx).elim
  · rw [value_of_zero hu, hu]
    obtain ⟨s', hv⟩ | ⟨s', m', e', hm', hv, -⟩ := (isFinite_iff_ulpLe.1 hy).elim
    · rw [value_of_zero hv, hv]
      simp [UnpackedFloat.lt, UnpackedFloat.compare]
    · have hy' := hpos e' hm'
      rw [value_of_finite hv, hv]
      cases s' with
      | negative => simpa [UnpackedFloat.lt, UnpackedFloat.compare] using hy'.le
      | positive => simpa [UnpackedFloat.lt, UnpackedFloat.compare] using hy'
  · have hx' := hpos e hm
    rw [value_of_finite hu, hu]
    obtain ⟨s', hv⟩ | ⟨s', m', e', hm', hv, -⟩ := (isFinite_iff_ulpLe.1 hy).elim
    · rw [value_of_zero hv, hv]
      cases s with
      | negative => simpa [UnpackedFloat.lt, UnpackedFloat.compare] using hx'
      | positive => simpa [UnpackedFloat.lt, UnpackedFloat.compare] using hx'.le
    · have hy' := hpos e' hm'
      rw [value_of_finite hv, hv]
      cases s with
      | negative =>
          cases s' with
          | negative =>
              refine Iff.trans ?_ neg_lt_neg_iff.symm
              rw [lt_finite_negative_iff, mul_lt_mul_iff hv hu, @eq_comm _ e]
          | positive =>
              refine iff_of_true ?_ ((neg_lt_zero.2 hx').trans hy')
              simp [UnpackedFloat.lt, UnpackedFloat.compare]
      | positive =>
          cases s' with
          | negative =>
              refine iff_of_false ?_ ((neg_lt_zero.2 hy').trans hx').not_gt
              simp [UnpackedFloat.lt, UnpackedFloat.compare]
          | positive =>
              refine Iff.trans ?_ (mul_lt_mul_iff hu hv).symm
              exact lt_finite_iff

end Values

end Real64

end GlutSketch
