import GlutSketch.Proofs.Json.Record
import GlutSketch.Proofs.Numeric.Correct
import GlutSketch.Proofs.Numeric.Shortest

/-!
# GlutSketch.Proofs.Json.Reread

Doubles that come back from a file as they were.  What is written names the
double, but it is read by one product or quotient of its digits and a power of
ten.  If both of them are doubles themselves, this is rounded once, and
correctly.

* `Number.value_ofDecimal` -- what a spelling stands for.
* `Number.toFloat?_eq` -- how it is read.
* `Number.HasExactParts.exists_isNearest` -- digits and a power of ten that are
  exact.
* `reread?_of_hasExactSpelling` -- a double that is spelled with such parts is
  kept.
-/

namespace GlutSketch.Json

open Float.Model.UnpackedFloat
open Real64

/-! ## Products and quotients -/

section Scaled

variable {p : ℚ} {x : Float} {k : ℕ} {e : ℤ}

/-- Numbers of 53 digits stay in reach when they are moved by 22 places. -/
theorem range_of_scaled (hlow : 1 ≤ p) (hhigh : p ≤ 2 ^ 53) (hk : k ≤ 22) :
    (2 ^ (-1000 : ℤ) ≤ p * 10 ^ k ∧ p * 10 ^ k < 2 ^ (1000 : ℤ)) ∧
      2 ^ (-1000 : ℤ) ≤ p / 10 ^ k ∧ p / 10 ^ k < 2 ^ (1000 : ℤ) := by
  have hone : (1 : ℚ) ≤ 10 ^ k := one_le_pow₀ (by norm_num)
  have hpow : (10 : ℚ) ^ k ≤ 10 ^ 22 := pow_le_pow_right₀ (by norm_num) hk
  have hsmall : (2 : ℚ) ^ (-1000 : ℤ) * 10 ^ k ≤ 1 :=
    calc
      (2 : ℚ) ^ (-1000 : ℤ) * 10 ^ k ≤ 2 ^ (-100 : ℤ) * 10 ^ 22 :=
        mul_le_mul (two_zpow_le_iff.2 (by decide)) hpow (by positivity) (by positivity)
      _ ≤ 1 := by norm_num
  have hlarge : p * 10 ^ k < 2 ^ (1000 : ℤ) :=
    calc
      p * 10 ^ k ≤ 2 ^ 53 * 10 ^ 22 := mul_le_mul hhigh hpow (by positivity) (by positivity)
      _ ≤ 2 ^ (200 : ℤ) := by norm_num
      _ < 2 ^ (1000 : ℤ) := two_zpow_lt_iff.2 (by decide)
  have hle : p ≤ p * 10 ^ k := le_mul_of_one_le_right (by linarith) hone
  refine ⟨⟨?_, hlarge⟩, ?_, ?_⟩
  · exact ((zpow_le_one_of_nonpos₀ one_le_two (by decide)).trans hlow).trans hle
  · exact (le_div_iff₀ (by positivity)).2 (hsmall.trans hlow)
  · exact ((div_le_self (by linarith) hone).trans hle).trans_lt hlarge

/-- The powers of ten up to this one are doubles. -/
theorem isNormal_tenPower (hk : k ≤ 22) : IsNormal .positive (10 ^ k) (tenPower k) := by
  have hexact : ∀ k < 23, tenPower k = Float.ofNat (10 ^ k) := by decide +kernel
  have hshort : IsShort (10 ^ k : ℕ) := by
    refine ⟨5 ^ k, k, (Nat.pow_le_pow_right (by decide) hk).trans (by decide), ?_⟩
    rw [zpow_natCast]
    push_cast
    rw [← mul_pow]
    norm_num
  have hlt : 10 ^ k < 2 ^ 100 := (Nat.pow_le_pow_right (by decide) hk).trans_lt (by decide)
  rw [hexact k (by omega)]
  exact_mod_cast isNormal_ofNat (Nat.pow_pos (by decide)) hshort (by omega)

/-- A whole number of 53 digits that is moved by up to 22 places is rounded
once. -/
theorem exists_scaleTenPower? (hx : IsNormal .positive p x) (hlow : 1 ≤ p) (hhigh : p ≤ 2 ^ 53)
    (he : e.natAbs ≤ 22) :
    ∃ q y, scaleTenPower? x e = some y ∧ IsNearest (p * 10 ^ e) q ∧ IsNormal .positive q y := by
  obtain ⟨hproduct, hquotient⟩ := range_of_scaled hlow hhigh he
  have hpower := isNormal_tenPower he
  have hlimit : ¬ maxTenPower < e.natAbs := by
    rw [maxTenPower]
    omega
  by_cases hneg : e < 0
  · have hdivided : p * 10 ^ e = p / 10 ^ e.natAbs := by
      rw [← zpow_natCast, div_eq_mul_inv, ← zpow_neg]
      congr 2
      omega
    obtain ⟨q, hnear, hq⟩ := hx.div hpower hquotient.1 hquotient.2
    refine ⟨q, x / tenPower e.natAbs, ?_, hdivided ▸ hnear, hq⟩
    rw [scaleTenPower?, if_pos hneg, divideTenPower, if_neg hlimit]
  · have hmultiplied : p * 10 ^ e = p * 10 ^ e.natAbs := by
      rw [← zpow_natCast]
      congr 2
      omega
    obtain ⟨q, hnear, hq⟩ := hx.mul hpower hproduct.1 hproduct.2
    refine ⟨q, x * tenPower e.natAbs, ?_, hmultiplied ▸ hnear, hq⟩
    rw [scaleTenPower?, if_neg hneg, if_neg hlimit]
    simp only [hq.isInf_eq_false]
    rfl

end Scaled

/-! ## Spellings -/

/-- More digits make no less. -/
theorem le_foldl_digits (n : ℕ) (cs : List Char) :
    n ≤ cs.foldl (fun n c => 10 * n + digitValue c) n := by
  induction cs generalizing n with
  | nil => exact le_rfl
  | cons c cs ih => exact (by omega : n ≤ 10 * n + digitValue c).trans (ih _)

/-- Digits that fit into 64 bits are all taken. -/
theorem appendDigits_of_lt {n : ℕ} {cs : List Char}
    (h : cs.foldl (fun n c => 10 * n + digitValue c) n < wordLimit) :
    appendDigits n cs = (cs.foldl (fun n c => 10 * n + digitValue c) n, []) := by
  induction cs generalizing n with
  | nil => rfl
  | cons c cs ih =>
      rw [List.foldl_cons] at h ⊢
      rw [appendDigits, if_pos ((le_foldl_digits _ cs).trans_lt h), ih h]

namespace Number

/-- The digits of a spelling, the point left out. -/
def digits (n : Number) : ℕ := digitsValue (n.whole ++ n.fraction)

/-- The exponent of ten that belongs to the last digit. -/
def scale (n : Number) : ℤ := n.exponent.getD 0 - n.fraction.length

/-- The number that is spelled, without its sign. -/
def value (n : Number) : ℚ := n.digits * 10 ^ n.scale

/-- A spelling whose digits all fit is read by a single product or quotient. -/
theorem toFloat?_eq {n : Number} (h : n.digits < wordLimit) :
    n.toFloat? = (scaleTenPower? (Float.ofNat n.digits) n.scale).map fun x =>
      if n.negative then -x else x := by
  have hdigits : n.digits = n.fraction.foldl (fun n c => 10 * n + digitValue c)
      (n.whole.foldl (fun n c => 10 * n + digitValue c) 0) := List.foldl_append
  rw [hdigits] at h ⊢
  have hscale : n.scale = n.exponent.getD 0 + (0 - n.fraction.length) := by
    rw [scale]
    omega
  rw [toFloat?, appendDigits_of_lt ((le_foldl_digits _ _).trans_lt h)]
  dsimp only
  rw [appendDigits_of_lt h, hscale]
  rfl

/-- The digits in place are those of the decimal. -/
theorem digitsValue_places (d : Decimal) :
    (digitsValue (d.places.1 ++ d.places.2) : ℚ) * 10 ^ (-d.places.2.length : ℤ) = d.value := by
  have hvalue := digitsValue_decimalDigits d.digits
  simp only [Decimal.value, Decimal.places]
  split
  · next hexponent =>
    rw [List.append_nil, digitsValue_append_zeros, hvalue, pow10, Nat.pow_eq]
    push_cast
    rw [← zpow_natCast, Int.toNat_of_nonneg hexponent]
    simp
  · next hexponent =>
    have hplaces : d.exponent = -((-d.exponent).toNat : ℤ) := by omega
    split
    · next hlength =>
      have hzeros (k : ℕ) (cs : List Char) :
          ['0'] ++ (List.replicate k '0' ++ cs) = List.replicate (k + 1) '0' ++ cs := rfl
      rw [hzeros, digitsValue_zeros_append, hvalue, List.length_append, List.length_replicate,
        Nat.sub_add_cancel hlength, ← hplaces]
    · next hlength =>
      rw [List.take_append_drop, hvalue, List.length_drop, Nat.sub_sub_self (not_le.1 hlength).le,
        ← hplaces]

/-- Both layouts of a decimal stand for the decimal. -/
theorem value_ofDecimal (negative : Bool) (d : Decimal) :
    (ofDecimal negative d).value = d.value := by
  rw [ofDecimal]
  split
  · have hplaces := digitsValue_places d
    split
    · next whole heq =>
      -- a zero is written after the point
      have hzero : digitsValue (whole ++ ['0']) = digitsValue whole * 10 :=
        digitsValue_append_zeros whole 1
      rw [heq] at hplaces
      rw [← hplaces, value, digits, scale, hzero]
      simp
    · next whole fraction _ heq =>
      rw [heq] at hplaces
      rw [← hplaces, value, digits, scale]
      simp
  · rw [value, digits, scale]
    dsimp only
    rw [List.take_append_drop, digitsValue_decimalDigits, Decimal.value]
    congr 2
    simp only [Decimal.leadingExponent, List.length_drop, Option.getD_some]
    omega

/-- The digits are a whole number of 53 binary digits, and the power of ten is a
double. -/
def HasExactParts (n : Number) : Prop := n.digits ≤ 2 ^ 53 ∧ n.scale.natAbs ≤ 22

instance (n : Number) : Decidable n.HasExactParts := inferInstanceAs (Decidable (_ ∧ _))

/-- The sign of a spelling. -/
def sign (n : Number) : Sign := if n.negative then .negative else .positive

/-- Exact parts are put together with one rounding: the nearest double is
read. -/
theorem HasExactParts.exists_isNearest {n : Number} (h : n.HasExactParts) (hpos : 0 < n.digits) :
    ∃ q x, n.toFloat? = some x ∧ IsNearest n.value q ∧ IsNormal n.sign q x := by
  have hlow : (1 : ℚ) ≤ n.digits := by exact_mod_cast hpos
  have hhigh : (n.digits : ℚ) ≤ 2 ^ 53 := by exact_mod_cast h.1
  have hdigits := isNormal_ofNat hpos (isShort_natCast h.1) (by have := h.1; omega)
  obtain ⟨q, y, hy, hnear, hq⟩ := exists_scaleTenPower? hdigits hlow hhigh h.2
  have hlimit : n.digits < wordLimit := h.1.trans_lt (by decide)
  rw [toFloat?_eq hlimit, hy, sign]
  cases n.negative with
  | false => exact ⟨q, y, rfl, hnear, hq⟩
  | true => exact ⟨q, -y, rfl, hnear, hq.neg⟩

/-- Exact parts spell no number that is smaller. -/
theorem HasExactParts.le_value {n : Number} (h : n.HasExactParts) (hpos : 0 < n.digits) :
    2 ^ (-100 : ℤ) ≤ n.value := by
  have hlow : (1 : ℚ) ≤ n.digits := by exact_mod_cast hpos
  calc
    (2 : ℚ) ^ (-100 : ℤ) ≤ 1 * 10 ^ (-22 : ℤ) := by norm_num
    _ ≤ n.digits * 10 ^ n.scale :=
      mul_le_mul hlow (zpow_le_zpow_right₀ (by norm_num) (by have := h.2; omega)) (by positivity)
        (by positivity)

/-- A decimal keeps its sign. -/
theorem negative_ofDecimal (negative : Bool) (d : Decimal) :
    (ofDecimal negative d).negative = negative := by
  rw [ofDecimal]
  split
  · split <;> rfl
  · rfl

end Number

/-! ## Doubles that are kept -/

section Kept

variable {x : Float} {negative : Bool} {m : Magnitude} {d : Decimal}

/-- Decimals that are read back by a subnormal number are smaller than those
with exact parts. -/
theorem lt_exponent_of_readsBack (h : m.ReadsBack d) (hm : m.significand ≠ 0)
    (hbits : m.significand < 2 ^ 53) (hlarge : 2 ^ (-100 : ℤ) ≤ d.value) : -1074 < m.exponent := by
  by_contra hle
  have hbounds := (h.bounds hm).2
  have hbits' : (m.significand : ℚ) + 1 ≤ 2 ^ 53 := by exact_mod_cast hbits
  rw [div_le_iff₀ (two_zpow_pos _)] at hbounds
  have hsmall : d.value < 2 ^ (-100 : ℤ) :=
    calc
      d.value ≤ (m.significand + 1 / 2) * 2 ^ m.exponent := hbounds
      _ ≤ 2 ^ 53 * 2 ^ (-1074 : ℤ) :=
        mul_le_mul (by linarith) (two_zpow_le_iff.2 (not_lt.1 hle)) (by positivity) (by positivity)
      _ < 2 ^ (-100 : ℤ) := by
        rw [two_pow_mul_zpow, two_zpow_lt_iff]
        decide
  exact hlarge.not_gt hsmall

/-- A zero is read with its sign. -/
theorem toFloat?_ofDecimal_zero (h : Binary64.ofFloat x = .finite negative m)
    (hm : m.significand = 0) : (Number.ofDecimal negative ⟨0, 0⟩).toFloat? = some x := by
  obtain ⟨biased, fraction, -, -, ⟨-, rfl⟩ | ⟨-, rfl⟩⟩ := Binary64.toBits_of_finite h
  · obtain rfl : fraction = 0 := hm
    cases negative with
    | false =>
        have hzero : Binary64.ofFloat 0 = .finite false ⟨0, -1074⟩ := by decide +kernel
        rw [Binary64.eq_of_ofFloat h hzero]
        decide +kernel
    | true =>
        have hzero : Binary64.ofFloat (-0) = .finite true ⟨0, -1074⟩ := by decide +kernel
        rw [Binary64.eq_of_ofFloat h hzero]
        decide +kernel
  · dsimp only at hm
    omega

/-- Exact parts are read as the double that they were written for. -/
theorem toFloat?_of_hasExactParts (h : Binary64.ofFloat x = .finite negative m)
    (hparts : (Number.ofDecimal negative (m.shortestDecimal .toEven)).HasExactParts) :
    (Number.ofDecimal negative (m.shortestDecimal .toEven)).toFloat? = some x := by
  by_cases hm : m.significand = 0
  · rw [Magnitude.shortestDecimal, if_pos hm]
    exact toFloat?_ofDecimal_zero h hm
  · have hshortest : m.shortestDecimal .toEven = m.shortest .toEven := if_neg hm
    rw [hshortest] at hparts ⊢
    have hreads := m.readsBack_shortest hm .toEven
    have hdigits := hreads.digits_ne_zero hm
    have hvalue := Number.value_ofDecimal negative (m.shortest .toEven)
    generalize m.shortest .toEven = d at *
    have hpos : 0 < (Number.ofDecimal negative d).digits := by
      refine Nat.pos_of_ne_zero fun hzero => hdigits ?_
      have hten : (10 : ℚ) ^ d.exponent ≠ 0 := zpow_ne_zero _ (by norm_num)
      rw [Number.value, hzero, Nat.cast_zero, zero_mul, Decimal.value] at hvalue
      exact_mod_cast (mul_eq_zero.1 hvalue.symm).resolve_right hten
    have hbits : m.significand < 2 ^ 53 := by
      obtain ⟨biased, fraction, hlt, -, ⟨-, rfl⟩ | ⟨-, rfl⟩⟩ := Binary64.toBits_of_finite h <;>
        dsimp only <;> omega
    have he := lt_exponent_of_readsBack hreads hm hbits (hvalue ▸ hparts.le_value hpos)
    obtain ⟨hlog, hx⟩ := isNormal_of_ofFloat h he
    obtain ⟨q, y, hy, hnear, hq⟩ := hparts.exists_isNearest hpos
    rw [hvalue] at hnear
    rw [Number.sign, Number.negative_ofDecimal, hnear.unique (hreads.isNearest hlog he)] at hq
    rw [hy, hq.unique hx]

end Kept

/-- The double is spelled with digits and a power of ten that are both exact. -/
def HasExactSpelling (x : Float) : Prop :=
  match ofFloat x with
  | number n => n.HasExactParts
  | _ => False

instance (x : Float) : Decidable (HasExactSpelling x) := by
  unfold HasExactSpelling; split <;> infer_instance

/-- A double with an exact spelling is read as it was written. -/
theorem reread?_of_hasExactSpelling {x : Float} (h : HasExactSpelling x) : reread? x = some x := by
  unfold HasExactSpelling at h
  unfold reread?
  cases hx : Binary64.ofFloat x with
  | finite negative m =>
      simp only [ofFloat, hx] at h ⊢
      exact toFloat?_of_hasExactParts hx h
  | infinite negative => simp only [ofFloat, hx] at h
  | nan => simp only [ofFloat, hx] at h

/-- The digits of one eleventh are too many. -/
example : HasExactSpelling 0.0909 ∧ ¬HasExactSpelling 0.09090909090909091 := by decide +kernel

end GlutSketch.Json
