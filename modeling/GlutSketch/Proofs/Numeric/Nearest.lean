import Mathlib
import GlutSketch.Numeric.Rounding

/-!
# GlutSketch.Proofs.Numeric.Nearest

Nearest whole numbers, and nearest numbers of 53 binary digits.  Both are
defined over the rational numbers, away from any algorithm.

* `IsRounded` -- the nearest whole number, with a rule for halves.
* `isRounded_roundDiv` -- a rounded quotient is that of the exact one.
* `IsShort` -- a number of at most 53 binary digits, of any size.
* `IsNearest` -- the nearest such number, ties to even.
* `IsNearest.abs_sub_le` -- no other number of 53 digits is nearer.
-/

namespace GlutSketch

/-! ## Nearest whole numbers -/

/-- The whole number nearest to `x`.  Of two that are equally near it is the
even one, or the one that is farther from zero. -/
structure IsRounded (tie : Tie) (x : ℚ) (n : ℤ) : Prop where
  near : |x - n| ≤ 1 / 2
  half : |x - n| = 1 / 2 → match tie with
    | .toEven => Even n
    | .awayFromZero => |x| < |(n : ℚ)|

section Rounded

variable {tie : Tie} {x : ℚ} {n i : ℤ}

/-- The rules for halves are needed for halves only. -/
theorem IsRounded.of_abs_sub_lt (h : |x - n| < 1 / 2) : IsRounded tie x n :=
  ⟨h.le, fun hhalf => absurd hhalf h.ne⟩

/-- Nothing but the nearest whole number is less than a half away. -/
theorem IsRounded.eq_of_abs_sub_lt (h : IsRounded tie x n) (hi : |x - i| < 1 / 2) : n = i := by
  have hnear := abs_le.1 h.near
  rw [abs_lt] at hi
  have hlow : (n : ℚ) < i + 1 := by linarith
  have hhigh : (i : ℚ) < n + 1 := by linarith
  norm_cast at hlow hhigh
  omega

/-- A whole number is rounded to itself. -/
theorem IsRounded.eq_of_intCast (h : IsRounded tie i n) : n = i :=
  h.eq_of_abs_sub_lt (by norm_num)

/-- No whole number is nearer than the rounded one. -/
theorem IsRounded.abs_sub_le (h : IsRounded tie x n) (i : ℤ) : |x - n| ≤ |x - i| := by
  by_cases hi : |x - i| < 1 / 2
  · rw [h.eq_of_abs_sub_lt hi]
  · exact h.near.trans (not_lt.1 hi)

/-- Rounding does not pass a whole number. -/
theorem IsRounded.le (h : IsRounded tie x n) (hi : i ≤ x) : i ≤ n := by
  have hnear := abs_le.1 h.near
  have hlt : (i : ℚ) < n + 1 := by linarith
  norm_cast at hlt
  omega

theorem IsRounded.ge (h : IsRounded tie x n) (hi : x ≤ i) : n ≤ i := by
  have hnear := abs_le.1 h.near
  have hlt : (n : ℚ) < i + 1 := by linarith
  norm_cast at hlt
  omega

/-- Rounding does not depend on the sign. -/
theorem IsRounded.neg (h : IsRounded tie x n) : IsRounded tie (-x) (-n) := by
  have hdistance : |-x - (-n : ℤ)| = |x - n| := by
    rw [← abs_neg (x - n)]
    push_cast
    ring_nf
  refine ⟨hdistance ▸ h.near, fun hhalf => ?_⟩
  have htie := h.half (hdistance ▸ hhalf)
  cases tie with
  | toEven => exact htie.neg
  | awayFromZero => simpa using htie

/-- A number may be rounded without its sign, which is put back afterwards. -/
theorem isRounded_signed_iff {negative : Bool} :
    IsRounded tie (if negative then -x else x) (if negative then -n else n) ↔
      IsRounded tie x n := by
  cases negative with
  | false => exact Iff.rfl
  | true => exact ⟨fun h => by simpa using h.neg, IsRounded.neg⟩

theorem isRounded_half_awayFromZero (a : ℕ) :
    IsRounded .awayFromZero (a + 1 / 2) (a + 1) := by
  refine ⟨by push_cast; norm_num, fun _ => ?_⟩
  simp only
  rw [abs_of_nonneg (by positivity), abs_of_nonneg (by positivity)]
  push_cast
  linarith

/-- A rule for halves leaves no choice. -/
theorem IsRounded.unique (h : IsRounded tie x n) (hi : IsRounded tie x i) : n = i := by
  by_contra hne
  wlog hlt : n < i generalizing n i
  · exact this hi h (Ne.symm hne) (by omega)
  have hnear := abs_le.1 h.near
  have hnear' := abs_le.1 hi.near
  have hstep : (n : ℚ) + 1 ≤ i := by exact_mod_cast hlt
  -- both are a half away, on two sides
  have hx : x = n + 1 / 2 := by linarith
  have hi' : (i : ℚ) = n + 1 := by linarith
  have htie := h.half (by rw [hx]; norm_num)
  have htie' := hi.half (by rw [hx, hi']; norm_num)
  cases tie with
  | toEven =>
      have hsucc : i = n + 1 := by exact_mod_cast hi'
      subst hsucc
      exact Int.not_even_iff_odd.2 htie.add_one htie'
  | awayFromZero =>
      simp only at htie htie'
      rw [hx] at htie htie'
      rw [hi'] at htie'
      by_cases hn : 0 ≤ n
      · have hn' : (0 : ℚ) ≤ n := by exact_mod_cast hn
        rw [abs_of_nonneg (by linarith), abs_of_nonneg hn'] at htie
        linarith
      · have hn' : (n : ℚ) ≤ -1 := by exact_mod_cast (by omega : n ≤ -1)
        rw [abs_of_nonpos (by linarith), abs_of_nonpos (by linarith)] at htie'
        linarith

/-- With ties to even a half is nothing. -/
theorem IsRounded.pos_iff (h : IsRounded .toEven x n) (hx : 0 ≤ x) : 0 < n ↔ 1 / 2 < x := by
  have hnear := abs_le.1 h.near
  constructor
  · intro hn
    by_contra hle
    have hzero : IsRounded .toEven x 0 :=
      ⟨by rw [Int.cast_zero, sub_zero, abs_of_nonneg hx]; linarith, fun _ => Even.zero⟩
    exact hn.ne' (h.unique hzero)
  · intro hlt
    have hpos : (0 : ℚ) < n := by linarith
    exact_mod_cast hpos

end Rounded

/-! ## Quotients -/

section Quotient

variable {num r den : ℕ}

/-- A quotient is its whole part and what is left over the divisor. -/
theorem natCast_div_eq (num : ℕ) (h : 0 < den) :
    (num : ℚ) / den = (num / den : ℕ) + (num % den : ℕ) / den := by
  have hden : (0 : ℚ) < den := by exact_mod_cast h
  rw [div_eq_iff hden.ne']
  field_simp
  exact_mod_cast (Nat.div_add_mod' num den).symm

theorem div_lt_half_iff (h : 0 < den) : (r : ℚ) / den < 1 / 2 ↔ 2 * r < den := by
  have hden : (0 : ℚ) < den := by exact_mod_cast h
  rw [div_lt_div_iff₀ hden two_pos, mul_comm, one_mul]
  exact_mod_cast Iff.rfl

theorem half_lt_div_iff (h : 0 < den) : 1 / 2 < (r : ℚ) / den ↔ den < 2 * r := by
  have hden : (0 : ℚ) < den := by exact_mod_cast h
  rw [div_lt_div_iff₀ two_pos hden, mul_comm _ (2 : ℚ), one_mul]
  exact_mod_cast Iff.rfl

theorem div_eq_half_iff (h : 0 < den) : (r : ℚ) / den = 1 / 2 ↔ 2 * r = den := by
  have hden : (0 : ℚ) < den := by exact_mod_cast h
  rw [div_eq_div_iff hden.ne' two_ne_zero, mul_comm, one_mul]
  exact_mod_cast Iff.rfl

theorem natCast_div_lt_one (h : r < den) : (r : ℚ) / den < 1 := by
  rw [div_lt_one (by exact_mod_cast Nat.zero_lt_of_lt h)]
  exact_mod_cast h

end Quotient

/-- A quotient is rounded to one of its two neighbors. -/
theorem roundDiv_cases (num den : ℕ) (tie : Tie) :
    roundDiv num den tie = num / den ∨ roundDiv num den tie = num / den + 1 := by
  simp only [roundDiv]
  split
  · exact .inl rfl
  · split
    · exact .inr rfl
    · cases tie with
      | awayFromZero => exact .inr rfl
      | toEven =>
          dsimp only
          split
          · exact .inl rfl
          · exact .inr rfl

/-- A rounded quotient of whole numbers is the exact quotient, rounded. -/
theorem isRounded_roundDiv (num : ℕ) {den : ℕ} (h : 0 < den) (tie : Tie) :
    IsRounded tie (num / den) (roundDiv num den tie) := by
  have hone := natCast_div_lt_one (Nat.mod_lt num h)
  rw [natCast_div_eq num h]
  simp only [roundDiv]
  generalize num / den = q
  generalize num % den = r at *
  have hnonneg : (0 : ℚ) ≤ r / den := by positivity
  -- the remainder decides
  rcases lt_trichotomy (2 * r) den with hr | hr | hr
  · have hdistance : |(q : ℚ) + r / den - (q : ℤ)| = r / den := by
      rw [Int.cast_natCast, add_sub_cancel_left, abs_of_nonneg hnonneg]
    rw [if_pos hr]
    exact .of_abs_sub_lt (by rw [hdistance]; exact (div_lt_half_iff h).2 hr)
  · rw [if_neg (by omega), if_neg (by omega), (div_eq_half_iff h).2 hr]
    cases tie with
    | toEven =>
        simp only
        split
        · refine ⟨by norm_num, fun _ => ?_⟩
          exact_mod_cast (Nat.even_iff.2 ‹_›)
        · refine ⟨by norm_num, fun _ => ?_⟩
          exact_mod_cast (Nat.even_add_one.2 (Nat.not_even_iff.2 (by omega)))
    | awayFromZero => exact_mod_cast isRounded_half_awayFromZero q
  · have hhalf := (half_lt_div_iff h).2 hr
    have hdistance : |(q : ℚ) + r / den - ((q + 1 : ℕ) : ℤ)| = 1 - r / den := by
      rw [abs_of_nonpos (by push_cast; linarith)]
      push_cast
      ring
    rw [if_neg (by omega), if_pos hr]
    exact .of_abs_sub_lt (by rw [hdistance]; linarith)

/-! ## Numbers of 53 binary digits -/

/-- A number of at most 53 binary digits, whatever its size. -/
def IsShort (q : ℚ) : Prop := ∃ (n : ℕ) (e : ℤ), n ≤ 2 ^ 53 ∧ q = n * 2 ^ e

/-- The number of 53 binary digits nearest to a positive `x`, ties to even: the
size of `x` leaves a last place of `2 ^ e`, and a whole number of these is
taken. -/
def IsNearest (x q : ℚ) : Prop :=
  ∃ (e : ℤ) (n : ℤ), 2 ^ 52 * 2 ^ e ≤ x ∧ x < 2 ^ 53 * 2 ^ e ∧
    IsRounded .toEven (x / 2 ^ e) n ∧ q = n * 2 ^ e

theorem two_zpow_pos (e : ℤ) : (0 : ℚ) < 2 ^ e := zpow_pos two_pos e

theorem two_pow_mul_zpow (k : ℕ) (e : ℤ) : (2 : ℚ) ^ k * 2 ^ e = 2 ^ (k + e) := by
  rw [zpow_add₀ two_ne_zero, zpow_natCast]

theorem two_zpow_le_iff {e f : ℤ} : (2 : ℚ) ^ e ≤ 2 ^ f ↔ e ≤ f :=
  zpow_le_zpow_iff_right₀ one_lt_two

theorem two_zpow_lt_iff {e f : ℤ} : (2 : ℚ) ^ e < 2 ^ f ↔ e < f :=
  zpow_lt_zpow_iff_right₀ one_lt_two

/-- In larger units, with a whole factor. -/
theorem two_zpow_eq_mul {e f : ℤ} (h : e ≤ f) : (2 : ℚ) ^ f = (2 ^ (f - e).toNat : ℕ) * 2 ^ e := by
  push_cast
  rw [two_pow_mul_zpow, Int.toNat_of_nonneg (by omega), Int.sub_add_cancel]

section Short

variable {x q s : ℚ}

/-- Natural numbers up to `2 ^ 53` are short. -/
theorem isShort_natCast {n : ℕ} (h : n ≤ 2 ^ 53) : IsShort n := ⟨n, 0, h, by simp⟩

/-- A power of two moves the point only. -/
theorem IsShort.mul_two_zpow (h : IsShort q) (k : ℤ) : IsShort (q * 2 ^ k) := by
  obtain ⟨n, e, hn, rfl⟩ := h
  exact ⟨n, e + k, hn, by rw [zpow_add₀ two_ne_zero, mul_assoc]⟩

/-- A large number of 53 digits has no digits in small places. -/
theorem IsShort.exists_eq_mul (h : IsShort q) {e : ℤ} (hq : 2 ^ 52 * 2 ^ e ≤ q) :
    ∃ i : ℤ, q = i * 2 ^ e := by
  obtain ⟨n, f, hn, rfl⟩ := h
  rcases le_or_gt e f with hf | hf
  · refine ⟨n * (2 ^ (f - e).toNat : ℕ), ?_⟩
    rw [two_zpow_eq_mul hf]
    push_cast
    ring
  · -- then it is the least such number, a power of two
    refine ⟨2 ^ 52, ?_⟩
    have hle : (n : ℚ) * 2 ^ f ≤ 2 ^ 53 * 2 ^ f := by
      gcongr
      exact_mod_cast hn
    have hpow : (2 : ℚ) ^ 53 * 2 ^ f ≤ 2 ^ 52 * 2 ^ e := by
      rw [two_pow_mul_zpow, two_pow_mul_zpow, two_zpow_le_iff]
      push_cast
      omega
    push_cast
    linarith

/-- Rounding a number of 53 digits to a whole number needs no more digits. -/
theorem IsRounded.isShort {tie : Tie} {n : ℕ} (h : IsRounded tie q n) (hq : IsShort q) :
    IsShort n := by
  obtain ⟨m, e, hm, rfl⟩ := hq
  rcases le_or_gt 0 e with he | he
  · have hvalue : (m : ℚ) * 2 ^ e = (m * 2 ^ e.toNat : ℤ) := by
      rw [two_zpow_eq_mul he]
      push_cast
      simp
    have heq : (n : ℤ) = m * 2 ^ e.toNat := (hvalue ▸ h).eq_of_intCast
    refine ⟨m, e, hm, ?_⟩
    rw [hvalue, ← heq]
    rfl
  · refine isShort_natCast ?_
    have hle : (m : ℚ) * 2 ^ e ≤ (2 ^ 53 : ℕ) := by
      have hone : (2 : ℚ) ^ e ≤ 1 := zpow_le_one_of_nonpos₀ one_le_two he.le
      calc
        (m : ℚ) * 2 ^ e ≤ m * 1 := by gcongr
        _ ≤ (2 ^ 53 : ℕ) := by rw [mul_one]; exact_mod_cast hm
    exact_mod_cast h.ge (i := (2 ^ 53 : ℕ)) hle

end Short

/-! ## Nearest numbers of 53 digits -/

section Nearest

variable {x q s : ℚ}

/-- A distance in units of the last place. -/
theorem abs_sub_mul_two_zpow (x i : ℚ) (e : ℤ) : |x - i * 2 ^ e| = |x / 2 ^ e - i| * 2 ^ e := by
  have hpos := two_zpow_pos e
  rw [← abs_of_pos hpos, ← abs_mul, abs_of_pos hpos, sub_mul, div_mul_cancel₀ _ hpos.ne']

/-- The digits of the nearest number. -/
theorem IsNearest.digits {e n : ℤ} (hlow : 2 ^ 52 * 2 ^ e ≤ x) (hhigh : x < 2 ^ 53 * 2 ^ e)
    (hn : IsRounded .toEven (x / 2 ^ e) n) : 2 ^ 52 ≤ n ∧ n ≤ 2 ^ 53 := by
  have hpos := two_zpow_pos e
  constructor
  · refine hn.le ?_
    rw [le_div_iff₀ hpos]
    exact_mod_cast hlow
  · refine hn.ge ?_
    rw [div_le_iff₀ hpos]
    exact_mod_cast hhigh.le

/-- The nearest short number is short. -/
theorem IsNearest.isShort (h : IsNearest x q) : IsShort q := by
  obtain ⟨e, n, hlow, hhigh, hn, rfl⟩ := h
  have hdigits := IsNearest.digits hlow hhigh hn
  refine ⟨n.toNat, e, by omega, ?_⟩
  rw [← Int.cast_natCast, Int.toNat_of_nonneg (by omega)]

/-- Rounding does not take half of a number away. -/
theorem IsNearest.lt_two_mul (h : IsNearest x q) : x < 2 * q := by
  obtain ⟨e, n, hlow, hhigh, hn, rfl⟩ := h
  have hn' : (2 ^ 52 : ℚ) ≤ n := by exact_mod_cast (IsNearest.digits hlow hhigh hn).1
  have hmul : 2 ^ 52 * 2 ^ e ≤ (n : ℚ) * 2 ^ e := by
    gcongr
  linarith

/-- Rounding moves a number by half of a last place at most. -/
theorem IsNearest.two_mul_abs_sub_le (h : IsNearest x q) {e : ℤ} (hx : x < 2 ^ 53 * 2 ^ e) :
    2 * |x - q| ≤ 2 ^ e := by
  obtain ⟨f, n, hlow, -, hn, rfl⟩ := h
  have hpos := two_zpow_pos f
  have hf : f ≤ e := by
    have hlt := hlow.trans_lt hx
    rw [two_pow_mul_zpow, two_pow_mul_zpow, two_zpow_lt_iff] at hlt
    push_cast at hlt
    omega
  calc
    2 * |x - n * 2 ^ f| = 2 * |x / 2 ^ f - n| * 2 ^ f := by
      rw [abs_sub_mul_two_zpow, mul_assoc]
    _ ≤ 1 * 2 ^ f := mul_le_mul_of_nonneg_right (by linarith [hn.near]) hpos.le
    _ ≤ 2 ^ e := by rw [one_mul]; exact two_zpow_le_iff.2 hf

/-- No other number of 53 digits is nearer. -/
theorem IsNearest.abs_sub_le (h : IsNearest x q) (hs : IsShort s) : |x - q| ≤ |x - s| := by
  obtain ⟨e, n, hlow, hhigh, hn, rfl⟩ := h
  have hpos := two_zpow_pos e
  -- among the multiples of the last place it is the nearest one
  have hgrid : ∀ i : ℤ, |x - n * 2 ^ e| ≤ |x - i * 2 ^ e| := by
    intro i
    rw [abs_sub_mul_two_zpow, abs_sub_mul_two_zpow]
    exact mul_le_mul_of_nonneg_right (hn.abs_sub_le i) hpos.le
  rcases le_or_gt (2 ^ 52 * 2 ^ e) s with hle | hlt
  · obtain ⟨i, rfl⟩ := hs.exists_eq_mul hle
    exact hgrid i
  · -- the others are below all of the binade, whose least number is a multiple
    have hleast := hgrid (2 ^ 52)
    push_cast at hleast
    refine hleast.trans ?_
    rw [abs_of_nonneg (by linarith), abs_of_nonneg (by linarith)]
    linarith

/-- A short number is the nearest one to itself. -/
theorem IsNearest.eq_of_isShort (h : IsNearest x q) (hx : IsShort x) : q = x := by
  have hle := h.abs_sub_le hx
  rw [sub_self, abs_zero] at hle
  exact (sub_eq_zero.1 (abs_eq_zero.1 (le_antisymm hle (abs_nonneg _)))).symm

/-- The last place of a number is determined by its size. -/
theorem lastPlace_unique {e f : ℤ} (hlow : 2 ^ 52 * 2 ^ e ≤ x) (hhigh : x < 2 ^ 53 * 2 ^ e)
    (hlow' : 2 ^ 52 * 2 ^ f ≤ x) (hhigh' : x < 2 ^ 53 * 2 ^ f) : e = f := by
  have hef := hlow.trans_lt hhigh'
  have hfe := hlow'.trans_lt hhigh
  rw [two_pow_mul_zpow, two_pow_mul_zpow, two_zpow_lt_iff] at hef hfe
  push_cast at hef hfe
  omega

/-- There is one nearest number of 53 digits. -/
theorem IsNearest.unique (hq : IsNearest x q) (hs : IsNearest x s) : q = s := by
  obtain ⟨e, n, hlow, hhigh, hn, rfl⟩ := hq
  obtain ⟨f, i, hlow', hhigh', hi, rfl⟩ := hs
  obtain rfl := lastPlace_unique hlow hhigh hlow' hhigh'
  rw [hn.unique hi]

/-- Where the last place is a unit, the nearest number is the nearest whole
one. -/
theorem IsNearest.exists_isRounded (h : IsNearest x q) (hlow : 2 ^ 52 ≤ x) (hhigh : x < 2 ^ 53) :
    ∃ n : ℤ, IsRounded .toEven x n ∧ q = n := by
  obtain ⟨e, n, hlow', hhigh', hn, rfl⟩ := h
  obtain rfl : e = 0 := lastPlace_unique hlow' hhigh' (by simpa using hlow) (by simpa using hhigh)
  refine ⟨n, ?_, by simp⟩
  rwa [zpow_zero, div_one] at hn

end Nearest

end GlutSketch
