import GlutSketch.Numeric.Layout
import GlutSketch.Proofs.Numeric.Exact

/-!
# GlutSketch.Proofs.Numeric.Shortest

The digits that a double is written with name it: among the doubles it is the
one nearest to them.  The numbers that are nearest to a double reach half of a
last place up, and as far down, or only a quarter if the last places below are
half as large.

* `Decimal.value` -- a decimal as a rational number.
* `Magnitude.readsBack_iff` -- the decimals between the two ends.
* `Magnitude.ReadsBack.isNearest` -- the double is the nearest one to all of
  them.
* `Magnitude.readsBack_shortest` -- the digits that are written are among them.
-/

namespace GlutSketch

/-! ## Decimals as rational numbers -/

/-- The value of a decimal as a rational number. -/
def Decimal.value (d : Decimal) : ℚ := d.digits * 10 ^ d.exponent

/-- Zeros that are moved into the exponent do not count. -/
theorem Decimal.value_stripZeros (limit : ℕ) (d : Decimal) :
    (stripZeros limit d).value = d.value := by
  induction limit generalizing d with
  | zero => rfl
  | succ limit ih =>
      rw [stripZeros]
      split
      · next h =>
        have hdigits : (d.digits : ℚ) = (d.digits / 10 : ℕ) * 10 := by
          exact_mod_cast (Nat.div_mul_cancel (Nat.dvd_of_mod_eq_zero h.2)).symm
        rw [ih, value, value, hdigits, zpow_add_one₀ (by norm_num)]
        ring
      · rfl

namespace Magnitude

variable {x : Magnitude} {d : Decimal} {tie : Tie}

/-- The exact decimal has the value of the double. -/
theorem value_exactDecimal (x : Magnitude) : x.exactDecimal.value = x.value := by
  have hpow : (10 : ℚ) ^ (-x.exponent).toNat =
      2 ^ (-x.exponent).toNat * 5 ^ (-x.exponent).toNat := by
    rw [← mul_pow]
    norm_num
  rw [value_eq_div, Decimal.value, exactDecimal, denominator, zpow_neg, zpow_natCast, hpow]
  simp only [pow2, Nat.pow_eq]
  push_cast
  field_simp

/-- The comparison is that of the values. -/
theorem compareDecimal_eq (d : Decimal) (n : ℕ) (e : ℤ) :
    compareDecimal d n e = cmp d.value (n * 2 ^ e) := by
  have hpos : (0 : ℚ) < 10 ^ (-d.exponent).toNat * 2 ^ (-e).toNat := by positivity
  have hleft : ((d.digits * pow10 d.exponent.toNat * pow2 (-e).toNat : ℕ) : ℚ) =
      d.value * (10 ^ (-d.exponent).toNat * 2 ^ (-e).toNat) := by
    rw [Decimal.value, zpow_eq_div (by norm_num) d.exponent]
    simp only [pow2, pow10, Nat.pow_eq]
    push_cast
    field_simp
  have hright : ((n * pow2 e.toNat * pow10 (-d.exponent).toNat : ℕ) : ℚ) =
      n * 2 ^ e * (10 ^ (-d.exponent).toNat * 2 ^ (-e).toNat) := by
    rw [zpow_eq_div two_ne_zero e]
    simp only [pow2, pow10, Nat.pow_eq]
    push_cast
    field_simp
  have hcast (a b : ℕ) : cmp (a : ℚ) b = cmp a b := Nat.strictMono_cast.cmp_map_eq a b
  rw [compareDecimal, ← cmp_eq_compare, ← hcast, hleft, hright, cmp_mul_pos_right hpos]

/-! ## The numbers nearest to a double -/

/-- How far the numbers that are nearest to a double reach down, in last
places. -/
def reach (x : Magnitude) : ℚ := if x.NarrowBelow then 1 / 4 else 1 / 2

/-- In last places: the decimals between the two ends, and the ends of an even
double. -/
theorem readsBack_iff (hx : x.significand ≠ 0) :
    x.ReadsBack d ↔
      x.significand - x.reach < d.value / 2 ^ x.exponent ∧
          d.value / 2 ^ x.exponent < x.significand + 1 / 2 ∨
        x.significand % 2 = 0 ∧
          (d.value / 2 ^ x.exponent = x.significand - x.reach ∨
            d.value / 2 ^ x.exponent = x.significand + 1 / 2) := by
  have hpos := two_zpow_pos x.exponent
  have hplace : (2 : ℚ) ^ (x.exponent - 2) = 2 ^ x.exponent / 4 := by
    rw [zpow_sub₀ two_ne_zero]
    norm_num
  have hlow : ((if x.NarrowBelow then 4 * x.significand - 1 else 4 * x.significand - 2 : ℕ) : ℚ) *
      2 ^ (x.exponent - 2) = (x.significand - x.reach) * 2 ^ x.exponent := by
    rw [reach, hplace]
    split
    · rw [Nat.cast_sub (by omega)]
      push_cast
      ring
    · rw [Nat.cast_sub (by omega)]
      push_cast
      ring
  have hhigh : ((4 * x.significand + 2 : ℕ) : ℚ) * 2 ^ (x.exponent - 2) =
      (x.significand + 1 / 2) * 2 ^ x.exponent := by
    rw [hplace]
    push_cast
    ring
  simp only [ReadsBack, compareDecimal_eq, hlow, hhigh, cmp_eq_lt_iff, cmp_eq_gt_iff,
    cmp_eq_eq_iff, lt_div_iff₀ hpos, div_lt_iff₀ hpos, div_eq_iff hpos.ne']

/-- Only the value of a decimal matters. -/
theorem readsBack_congr {d' : Decimal} (hx : x.significand ≠ 0) (h : d.value = d'.value) :
    x.ReadsBack d ↔ x.ReadsBack d' := by
  rw [readsBack_iff hx, readsBack_iff hx, h]

/-- The numbers nearest to a double reach below it. -/
theorem reach_pos (x : Magnitude) : 0 < x.reach := by
  unfold reach
  split <;> norm_num

/-- They reach half a last place at most. -/
theorem reach_le_half (x : Magnitude) : x.reach ≤ 1 / 2 := by
  unfold reach
  split <;> norm_num

/-- No decimal that reads back is beyond the ends. -/
theorem ReadsBack.bounds (h : x.ReadsBack d) (hx : x.significand ≠ 0) :
    x.significand - x.reach ≤ d.value / 2 ^ x.exponent ∧
      d.value / 2 ^ x.exponent ≤ x.significand + 1 / 2 := by
  have hreach := x.reach_pos
  obtain ⟨hlow, hhigh⟩ | ⟨-, hend | hend⟩ := (readsBack_iff hx).1 h
  · exact ⟨hlow.le, hhigh.le⟩
  · exact ⟨hend.ge, by linarith⟩
  · exact ⟨by linarith, hend.le⟩

/-- Zero reads back to no other number. -/
theorem ReadsBack.digits_ne_zero (h : x.ReadsBack d) (hx : x.significand ≠ 0) : d.digits ≠ 0 := by
  intro hzero
  have hreach := x.reach_le_half
  have hlow := (h.bounds hx).1
  have hone : (1 : ℚ) ≤ x.significand := by exact_mod_cast Nat.one_le_iff_ne_zero.2 hx
  rw [Decimal.value, hzero, Nat.cast_zero, zero_mul, zero_div] at hlow
  linarith

/-- In the binade of the double the nearest whole number of last places is
taken. -/
theorem ReadsBack.isRounded (h : x.ReadsBack d) (hx : x.significand ≠ 0) :
    IsRounded .toEven (d.value / 2 ^ x.exponent) x.significand := by
  have hreach := x.reach_le_half
  have hbounds := h.bounds hx
  refine ⟨?_, fun hhalf => ?_⟩
  · rw [Int.cast_natCast, abs_le]
    exact ⟨by linarith, by linarith⟩
  · obtain ⟨hlow, hhigh⟩ | ⟨heven, -⟩ := (readsBack_iff hx).1 h
    · -- between the ends nothing is half a place away
      rw [Int.cast_natCast] at hhalf
      obtain hplus | hminus := (abs_eq (by norm_num)).1 hhalf
      · linarith
      · linarith
    · exact_mod_cast Nat.even_iff.2 heven

/-- Below a power of two the last places are half as large, and there are none
left for a quarter. -/
theorem ReadsBack.isRounded_below (h : x.ReadsBack d) (hx : x.significand = 2 ^ 52)
    (he : -1074 < x.exponent) (hlt : d.value / 2 ^ x.exponent < 2 ^ 52) :
    IsRounded .toEven (d.value / 2 ^ (x.exponent - 1)) (2 ^ 53) := by
  have hreach : x.reach = 1 / 4 := if_pos ⟨hx, he⟩
  have hbounds := h.bounds (by rw [hx]; decide)
  have hplace : d.value / 2 ^ (x.exponent - 1) = 2 * (d.value / 2 ^ x.exponent) := by
    rw [zpow_sub_one₀ two_ne_zero]
    field_simp
  rw [hreach, hx] at hbounds
  push_cast at hbounds
  rw [hplace]
  refine ⟨?_, fun _ => ⟨2 ^ 52, by norm_num⟩⟩
  push_cast
  rw [abs_le]
  exact ⟨by linarith, by linarith⟩

/-- A double with 53 digits is the nearest one to the decimals that read back to
it. -/
theorem ReadsBack.isNearest (h : x.ReadsBack d) (hlog : x.significand.log2 = 52)
    (he : -1074 < x.exponent) : IsNearest d.value x.value := by
  have hx : x.significand ≠ 0 := by
    rintro hzero
    rw [hzero] at hlog
    simp at hlog
  have hpos := two_zpow_pos x.exponent
  have hreach := x.reach_le_half
  have hbounds := h.bounds hx
  obtain ⟨hfew, hmany⟩ := (Nat.log2_eq_iff hx).1 hlog
  have hmany' : (x.significand : ℚ) + 1 ≤ 2 ^ 53 := by exact_mod_cast hmany
  by_cases hbinade : 2 ^ 52 ≤ d.value / 2 ^ x.exponent
  · refine ⟨x.exponent, x.significand, (le_div_iff₀ hpos).1 hbinade, ?_, h.isRounded hx, rfl⟩
    rw [← div_lt_iff₀ hpos]
    linarith
  · -- then the double is the least of its binade
    have hlt := not_le.1 hbinade
    have hleast : x.significand = 2 ^ 52 := by
      have hcast : (x.significand : ℚ) < 2 ^ 52 + 1 := by linarith
      have hle : x.significand < 2 ^ 52 + 1 := by exact_mod_cast hcast
      omega
    have hplace : (2 : ℚ) ^ x.exponent = 2 * 2 ^ (x.exponent - 1) := by
      rw [← zpow_one_add₀ two_ne_zero]
      congr 1
      omega
    have hrounded := h.isRounded_below hleast he hlt
    have hlow : 2 ^ 52 / 2 ≤ d.value / 2 ^ x.exponent := by
      rw [hleast] at hbounds
      push_cast at hbounds
      linarith
    rw [le_div_iff₀ hpos, hplace] at hlow
    rw [div_lt_iff₀ hpos, hplace] at hlt
    refine ⟨x.exponent - 1, 2 ^ 53, by linarith, by linarith, hrounded, ?_⟩
    rw [value, hleast, hplace]
    push_cast
    ring

/-! ## The digits that are written -/

/-- The exact decimal reads back. -/
theorem readsBack_exactDecimal (hx : x.significand ≠ 0) : x.ReadsBack x.exactDecimal := by
  have hreach := x.reach_pos
  rw [readsBack_iff hx, value_exactDecimal, value, mul_div_cancel_right₀ _ (two_zpow_pos _).ne']
  exact .inl ⟨by linarith, by linarith⟩

/-- What is found on a grid reads back. -/
theorem readsBack_of_onGrid? {g : ℤ} (h : x.onGrid? tie g = some d) : x.ReadsBack d := by
  unfold onGrid? at h
  dsimp only at h
  split at h
  · next hlow =>
    split at h
    · next hhigh =>
      cases h
      obtain hnear | hnear := roundDiv_cases (x.numerator * pow10 (-g).toNat)
        (x.denominator * pow10 g.toNat) tie
      · rwa [hnear]
      · rwa [hnear]
    · cases h
      exact hlow
  · split at h
    · next hhigh =>
      cases h
      exact hhigh
    · cases h

/-- **Shortest digits**: the digits that are written read back to the same
double. -/
theorem readsBack_shortest (hx : x.significand ≠ 0) (tie : Tie) : x.ReadsBack (x.shortest tie) := by
  rw [shortest, readsBack_congr hx (Decimal.value_stripZeros 17 _)]
  cases hfound : (List.range 17).findSome? fun n =>
      x.onGrid? tie (x.decimalScale - (n + 1 : ℕ)) with
  | none => exact readsBack_exactDecimal hx
  | some d =>
      obtain ⟨n, -, hn⟩ := List.exists_of_findSome?_eq_some hfound
      exact readsBack_of_onGrid? hn

/-- Zero is written without an exponent, and every other number has digits. -/
theorem shortestDecimal_exponent (x : Magnitude) (tie : Tie)
    (h : (x.shortestDecimal tie).digits = 0) : (x.shortestDecimal tie).exponent = 0 := by
  unfold shortestDecimal at h ⊢
  split
  · rfl
  · next hx =>
    rw [if_neg hx] at h
    exact absurd h ((readsBack_shortest hx tie).digits_ne_zero hx)

end Magnitude

end GlutSketch
