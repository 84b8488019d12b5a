import GlutSketch.Proofs.Numeric.Sixteenths
import GlutSketch.Proofs.Program.Decimal

/-!
# GlutSketch.Proofs.Program.Thousandths

How coordinates and channels are rounded to thousandths.  A double that is no
tie is written directly, with the rule for ties of the layout that does not
matter then.  A tie is multiplied by a thousand, rounded away from zero and
divided again, and each of the three steps has to be followed: the product is
exact up to `2 ^ 53` halves only, and the quotient of the largest products is
not the tie any more.

* `TiePath` -- the numbers that a tie goes through.
* `TiePath.units_eq_iff` -- the ties that end at the right thousandth.
* `IsNearestThousandth` -- the decimal with three places that is nearest.
* `isNearestThousandth_fixed3_iff` -- the doubles that are written as this
  decimal.
-/

namespace GlutSketch.Program

open Float.Model (UnpackedFloat)
open Real64 Unpacked

/-! ## The way of a tie -/

/-- What an odd number `k` of sixteenths, a tie between two thousandths, goes
through: the product `p` with a thousand, the whole number `n` next to it, the
quotient `q` by a thousand, and the number `u` of thousandths that is
written. -/
structure TiePath (k : ℕ) (p : ℚ) (n : ℕ) (q : ℚ) (u : ℤ) : Prop where
  odd : k % 2 = 1
  lt : k < 2 ^ 53
  product : IsNearest (k / 16 * 1000) p
  whole : IsRounded .awayFromZero p n
  quotient : IsNearest (n / 1000) q
  units : IsRounded .toEven (q * 1000) u

section Tie

variable {k n : ℕ} {p q : ℚ} {u : ℤ}

/-- The number that the path begins with is short. -/
theorem TiePath.isShort (h : TiePath k p n q u) : IsShort (k / 16) :=
  isShort_sixteenths h.lt.le

/-- A tie is a half more than a whole number of thousandths. -/
theorem TiePath.exists_half (h : TiePath k p n q u) :
    ∃ a : ℕ, 125 * k = 2 * a + 1 ∧ (k / 16 * 1000 : ℚ) = a + 1 / 2 := by
  have hodd := h.odd
  refine ⟨125 * k / 2, by omega, ?_⟩
  have hk : (125 * k : ℚ) = 2 * (125 * k / 2 : ℕ) + 1 := by
    exact_mod_cast (by omega : 125 * k = 2 * (125 * k / 2) + 1)
  linarith

/-- How far the quotient is from the whole number. -/
theorem abs_thousandfold_sub (q : ℚ) (n : ℕ) :
    |q * 1000 - (n : ℤ)| = |n / 1000 - q| * 1000 := by
  rw [Int.cast_natCast, show q * 1000 - n = (n / 1000 - q) * (-1000) by ring, abs_mul]
  norm_num

/-- A half has two nearest whole numbers. -/
theorem IsRounded.of_half {tie : Tie} {a : ℕ} {i : ℤ} (h : IsRounded tie (a + 1 / 2) i) :
    (i = a ∨ i = a + 1) ∧ |(a + 1 / 2 : ℚ) - i| = 1 / 2 := by
  have hnear := abs_le.1 h.near
  have hlow : (a : ℚ) ≤ i := by linarith
  have hhigh : (i : ℚ) ≤ a + 1 := by linarith
  norm_cast at hlow hhigh
  have hi : i = a ∨ i = a + 1 := by omega
  refine ⟨hi, ?_⟩
  rcases hi with rfl | rfl <;> norm_num

/-- The one of the two that is farther from zero. -/
theorem two_mul_eq_iff {a : ℕ} {i : ℤ} (ha : 125 * k = 2 * a + 1) :
    2 * i = 125 * k + 1 ↔ i = a + 1 := by
  have hcast : (125 * k : ℤ) = 2 * a + 1 := by exact_mod_cast ha
  constructor <;> intro <;> linarith

/-- The even one of the two is the one that is farther from zero for every
second tie. -/
theorem two_mul_eq_iff_of_even {a : ℕ} {i : ℤ} (ha : 125 * k = 2 * a + 1)
    (hi : i = a ∨ i = a + 1) (heven : Even i) : 2 * i = 125 * k + 1 ↔ k % 4 = 3 := by
  rw [two_mul_eq_iff ha]
  rw [Int.even_iff] at heven
  obtain ⟨c, rfl⟩ : Odd k := (Nat.odd_mul.1 ⟨a, ha⟩).2
  obtain rfl : a = 125 * c + 62 := by omega
  omega

/-- As long as the product is exact, the nearest thousandth is written that is
farther from zero. -/
theorem TiePath.units_of_exact (h : TiePath k p n q u) (hk : 125 * k < 2 ^ 53) :
    2 * u = 125 * k + 1 := by
  obtain ⟨a, ha, hhalf⟩ := h.exists_half
  have hproduct := h.product
  rw [hhalf] at hproduct
  rw [ha] at hk
  have hshort : IsShort (a + 1 / 2) := by
    refine ⟨2 * a + 1, -1, by exact_mod_cast hk.le, ?_⟩
    push_cast
    norm_num
    ring
  have hwhole := h.whole
  rw [hproduct.eq_of_isShort hshort] at hwhole
  have hn : n = a + 1 := by exact_mod_cast hwhole.unique (isRounded_half_awayFromZero a)
  have hlt : (n / 1000 : ℚ) < 2 ^ 53 * 2 ^ (-10 : ℤ) := by
    have hcast : (2 * n : ℚ) < 2 ^ 53 + 1 := by
      rw [hn]
      exact_mod_cast (by linarith : 2 * (a + 1) < 2 ^ 53 + 1)
    norm_num at hcast ⊢
    linarith
  have hquotient := h.quotient.two_mul_abs_sub_le hlt
  have hu : u = n := by
    refine h.units.eq_of_abs_sub_lt ?_
    rw [abs_thousandfold_sub]
    norm_num at hquotient ⊢
    linarith
  rw [two_mul_eq_iff ha, hu, hn]
  rfl

/-- Where the product is rounded to a whole number, the even thousandth is
written. -/
theorem TiePath.units_of_whole (h : TiePath k p n q u) (hlow : 2 ^ 53 < 125 * k)
    (hhigh : 125 * k < 2 ^ 54) : 2 * u = 125 * k + 1 ↔ k % 4 = 3 := by
  obtain ⟨a, ha, hhalf⟩ := h.exists_half
  have hproduct := h.product
  rw [hhalf] at hproduct
  rw [ha] at hlow hhigh
  have hlow' : (2 ^ 53 : ℚ) < 2 * a + 1 := by exact_mod_cast hlow
  have hhigh' : (2 * a + 1 : ℚ) < 2 ^ 54 := by exact_mod_cast hhigh
  obtain ⟨i, hi, hp⟩ := hproduct.exists_isRounded (by linarith) (by linarith)
  obtain ⟨hvalue, htie⟩ := IsRounded.of_half hi
  have heven : Even i := hi.half htie
  have hwhole := h.whole
  rw [hp] at hwhole
  obtain rfl := hwhole.eq_of_intCast
  -- the tie itself is a double, so the quotient is not farther away
  have hnear := h.quotient.abs_sub_le h.isShort
  have hdistance : |(n / 1000 : ℚ) - k / 16| = 1 / 2000 := by
    rw [show (n / 1000 : ℚ) - k / 16 = ((a + 1 / 2) - (n : ℤ)) * (-1 / 1000) by
      rw [← hhalf]; push_cast; ring, abs_mul, htie]
    norm_num
  have hrounded : IsRounded .toEven (q * 1000) n := by
    refine ⟨?_, fun _ => heven⟩
    rw [abs_thousandfold_sub]
    linarith
  obtain rfl := h.units.unique hrounded
  exact two_mul_eq_iff_of_even ha hvalue heven

/-- Which thousandth is the right one. -/
theorem TiePath.isRounded_iff (h : TiePath k p n q u) {i : ℤ} :
    IsRounded .awayFromZero (k / 16 * 1000) i ↔ 2 * i = 125 * k + 1 := by
  obtain ⟨a, ha, hhalf⟩ := h.exists_half
  have hright := isRounded_half_awayFromZero a
  rw [hhalf, two_mul_eq_iff ha]
  constructor
  · exact fun hi => hi.unique hright
  · rintro rfl
    exact hright

/-! ## Products without a fraction -/

/-- A product that is rounded to a multiple of `2 ^ e`. -/
structure OnGrid (k n e : ℕ) : Prop where
  bounds : 1 ≤ e ∧ e ≤ 6
  size : 2 ^ 53 * 2 ^ e ≤ 125 * k ∧ 125 * k < 2 ^ 54 * 2 ^ e
  dvd : 2 ^ e ∣ n
  near : |(2 * n - 125 * k : ℤ)| ≤ 2 ^ e

/-- A tie that is too long to be a double lies on a coarse grid. -/
theorem TiePath.exists_onGrid (h : TiePath k p n q u) (hk : 2 ^ 54 < 125 * k) :
    ∃ e, OnGrid k n e := by
  have hnearest := h.product
  obtain ⟨e, i, hlow, hhigh, -, rfl⟩ := h.product
  have hlarge : (2 ^ 54 : ℚ) < 125 * k := by exact_mod_cast hk
  have hsmall : (k : ℚ) < 2 ^ 53 := by exact_mod_cast h.lt
  have hpos : 1 ≤ e := by
    by_contra hle
    have hone : (2 : ℚ) ^ e ≤ 1 := zpow_le_one_of_nonpos₀ one_le_two (by omega)
    linarith
  have hle : e ≤ 6 := by
    by_contra hlt
    have hpow : (2 : ℚ) ^ (7 : ℤ) ≤ 2 ^ e := two_zpow_le_iff.2 (by omega)
    norm_num at hpow
    linarith
  have hnear := hnearest.two_mul_abs_sub_le hhigh
  lift e to ℕ using by omega
  rw [zpow_natCast] at *
  have hwhole := h.whole
  rw [show (i : ℚ) * 2 ^ e = ((i * 2 ^ e : ℤ) : ℚ) by push_cast; rfl] at hwhole
  have hn : (n : ℤ) = i * 2 ^ e := hwhole.eq_of_intCast
  have hn' : (n : ℚ) = i * 2 ^ e := by exact_mod_cast hn
  refine ⟨e, by omega, ⟨?_, ?_⟩, ?_, ?_⟩
  · have hcast : (2 ^ 53 * 2 ^ e : ℚ) ≤ 125 * k := by linarith
    exact_mod_cast hcast
  · have hcast : (125 * k : ℚ) < 2 ^ 54 * 2 ^ e := by linarith
    exact_mod_cast hcast
  · refine Int.natCast_dvd_natCast.1 ⟨i, ?_⟩
    rw [hn]
    push_cast
    ring
  · have hcast : |((2 * n - 125 * k : ℤ) : ℚ)| ≤ 2 ^ e := by
      rw [show ((2 * n - 125 * k : ℤ) : ℚ) = (k / 16 * 1000 - i * 2 ^ e) * (-2) by
        rw [← hn']; push_cast; ring, abs_mul]
      norm_num at hnear ⊢
      linarith
    exact_mod_cast hcast

/-- The whole number, moved back, and the tie. -/
theorem abs_sub_sixteenths (k n : ℕ) :
    |(n / 1000 : ℚ) - k / 16| = |((2 * n - 125 * k : ℤ) : ℚ)| / 2000 := by
  rw [show (n / 1000 : ℚ) - k / 16 = ((2 * n - 125 * k : ℤ) : ℚ) / 2000 by push_cast; ring,
    abs_div]
  norm_num

/-- The quotient is at most twice as far from the tie. -/
theorem TiePath.abs_quotient_sub_le (h : TiePath k p n q u) :
    |q - k / 16| ≤ |((2 * n - 125 * k : ℤ) : ℚ)| / 1000 := by
  have hnear := h.quotient.abs_sub_le h.isShort
  have htriangle := abs_sub_le q (n / 1000) (k / 16)
  rw [abs_sub_comm q (n / 1000)] at htriangle
  rw [abs_sub_sixteenths] at *
  linarith

variable {e : ℕ}

/-- The quotient is a multiple of the last place of the tie. -/
theorem TiePath.exists_quotient_eq (h : TiePath k p n q u) (hgrid : OnGrid k n e) :
    ∃ i : ℤ, q = i * (2 ^ e / 1024) := by
  have hnear := abs_le.1 h.abs_quotient_sub_le
  have hdistance : |((2 * n - 125 * k : ℤ) : ℚ)| ≤ 2 ^ e := by exact_mod_cast hgrid.near
  have hsize : (2 ^ 53 * 2 ^ e : ℚ) ≤ 125 * k := by exact_mod_cast hgrid.size.1
  have hpos : (0 : ℚ) < 2 ^ e := by positivity
  have hplace : (2 : ℚ) ^ ((e : ℤ) - 10) = 2 ^ e / 1024 := by
    rw [zpow_sub₀ two_ne_zero, zpow_natCast]
    norm_num
  rw [← hplace]
  refine h.quotient.isShort.exists_eq_mul ?_
  rw [hplace]
  linarith

/-- A product that is near enough to the tie is divided back to it. -/
theorem TiePath.quotient_eq (h : TiePath k p n q u) (hgrid : OnGrid k n e)
    (hlt : 1024 * |(2 * n - 125 * k : ℤ)| < 1000 * 2 ^ e) : q = k / 16 := by
  have hnear := h.abs_quotient_sub_le
  obtain ⟨i, rfl⟩ := h.exists_quotient_eq hgrid
  have hpos : (0 : ℚ) < 2 ^ e / 1024 := by positivity
  have hlt' : 1024 * |((2 * n - 125 * k : ℤ) : ℚ)| < 1000 * 2 ^ e := by exact_mod_cast hlt
  have htie : (k / 16 : ℚ) = (k * 2 ^ (6 - e) : ℤ) * (2 ^ e / 1024) := by
    have hpow : (2 : ℚ) ^ (6 - e) * 2 ^ e = 64 := by
      rw [← pow_add, Nat.sub_add_cancel hgrid.bounds.2]
      norm_num
    push_cast
    rw [mul_assoc, ← mul_div_assoc, hpow]
    ring
  rw [htie] at hnear ⊢
  rw [← sub_mul, abs_mul, abs_of_pos hpos] at hnear
  have hone : |(i : ℚ) - (k * 2 ^ (6 - e) : ℤ)| < 1 := by
    by_contra hge
    have hmul := mul_le_mul_of_nonneg_right (not_lt.1 hge) hpos.le
    linarith
  have heq : i = k * 2 ^ (6 - e) := by
    have habs : |i - k * 2 ^ (6 - e)| < 1 := by exact_mod_cast hone
    exact sub_eq_zero.1 (Int.abs_lt_one_iff.1 habs)
  rw [heq]

/-- A product that is too far from the tie is divided to another double. -/
theorem TiePath.quotient_ne (h : TiePath k p n q u) (hfar : |(2 * n - 125 * k : ℤ)| = 63) :
    q ≠ k / 16 := by
  rintro rfl
  have hpos : 1 ≤ k := Nat.pos_of_ne_zero fun hk => by simpa [hk] using h.odd
  -- the next sixteenth on the side of the product is nearer
  obtain ⟨s, hs, hdistance⟩ : ∃ s : ℕ, s ≤ 2 ^ 53 ∧ |(n / 1000 : ℚ) - s / 16| = 62 / 2000 := by
    have hn : (n : ℚ) = ((2 * n - 125 * k : ℤ) + 125 * k) / 2 := by
      push_cast
      ring
    rcases (abs_eq (by decide)).1 hfar with hd | hd
    · refine ⟨k + 1, h.lt, ?_⟩
      rw [hn, hd, abs_of_neg (by push_cast; linarith)]
      push_cast
      ring
    · refine ⟨k - 1, (Nat.sub_le k 1).trans h.lt.le, ?_⟩
      rw [hn, hd, Nat.cast_sub hpos, abs_of_pos (by push_cast; linarith)]
      push_cast
      ring
  have hnear := h.quotient.abs_sub_le (isShort_sixteenths hs)
  rw [abs_sub_sixteenths, ← Int.cast_abs, hfar, hdistance] at hnear
  norm_num at hnear

/-- The units of a tie that is divided back to itself are even. -/
theorem TiePath.units_of_eq (h : TiePath k p n q u) (hq : q = k / 16) :
    2 * u = 125 * k + 1 ↔ k % 4 = 3 := by
  obtain ⟨a, ha, hhalf⟩ := h.exists_half
  have hunits := h.units
  rw [hq, hhalf] at hunits
  obtain ⟨hu, htie⟩ := IsRounded.of_half hunits
  exact two_mul_eq_iff_of_even ha hu (hunits.half htie)

/-- Another sixteenth is too far away to be written like the tie. -/
theorem TiePath.units_of_ne (h : TiePath k p n q u) {i : ℤ} (hq : q = i / 16)
    (hne : q ≠ k / 16) : 2 * u ≠ 125 * k + 1 := by
  intro hu
  have hnear := abs_le.1 h.units.near
  have hu' : (2 * u : ℚ) = 125 * k + 1 := by exact_mod_cast hu
  have hlow : (125 * k : ℚ) ≤ 125 * i := by linarith
  have hhigh : (125 * i : ℚ) ≤ 125 * k + 2 := by linarith
  norm_cast at hlow hhigh
  obtain rfl : i = k := by omega
  exact hne (hq.trans (by rw [Int.cast_natCast]))

/-- Among the largest ties the residue tells which ones the product moves
farthest. -/
theorem OnGrid.far_iff (hgrid : OnGrid k n 6) :
    |(2 * n - 125 * k : ℤ)| = 63 ↔ k % 128 = 21 ∨ k % 128 = 107 := by
  obtain ⟨m, hm⟩ := hgrid.dvd
  have hnear := abs_le.1 hgrid.near
  have hd : (2 * n - 125 * k : ℤ) = 128 * (m - k) + 3 * k := by
    rw [hm]
    push_cast
    ring
  rw [hd] at hnear ⊢
  rw [abs_eq (by decide)]
  constructor
  · -- three has an inverse modulo 128
    intro hfar
    have hk : (k : ℤ) = 43 * (128 * (m - k) + 3 * k) - 128 * (43 * (m - k) + k) := by ring
    omega
  · intro hmod
    omega

/-- All other products are near enough to the tie. -/
theorem OnGrid.near_of_not_far (hgrid : OnGrid k n e) (hodd : k % 2 = 1)
    (hfar : ¬(e = 6 ∧ |(2 * n - 125 * k : ℤ)| = 63)) :
    1024 * |(2 * n - 125 * k : ℤ)| < 1000 * 2 ^ e := by
  obtain ⟨hlow, hhigh⟩ := hgrid.bounds
  have hnear := hgrid.near
  have hparity : |(2 * n - 125 * k : ℤ)| % 2 = 1 := by
    obtain ⟨habs, -⟩ | ⟨habs, -⟩ := abs_cases (2 * n - 125 * k : ℤ) <;> omega
  generalize |(2 * n - 125 * k : ℤ)| = d at *
  interval_cases e <;> omega

/-! ## Ties that go astray -/

/-- The ties that are not written as the nearest thousandth farther from zero:
the product with a thousand loses its half, and the even neighbor is the wrong
one, or the quotient is another double. -/
def GoesAstray (k : ℕ) : Prop :=
  2 ^ 53 < 125 * k ∧ (k % 4 = 1 ∨ 2 ^ 59 < 125 * k ∧ k % 128 = 107)

/-- The written units are the right ones exactly for the ties that do not go
astray. -/
theorem TiePath.units_eq_iff (h : TiePath k p n q u) :
    2 * u = 125 * k + 1 ↔ ¬ GoesAstray k := by
  have hodd := h.odd
  unfold GoesAstray
  by_cases hexact : 125 * k < 2 ^ 53
  · have hu := h.units_of_exact hexact
    omega
  by_cases hwhole : 125 * k < 2 ^ 54
  · rw [h.units_of_whole (by omega) hwhole]
    omega
  obtain ⟨e, hgrid⟩ := h.exists_onGrid (by omega)
  have hsize := hgrid.size
  by_cases hfar : e = 6 ∧ |(2 * n - 125 * k : ℤ)| = 63
  · obtain ⟨rfl, hfar⟩ := hfar
    obtain ⟨i, hi⟩ := h.exists_quotient_eq hgrid
    have hne := h.units_of_ne (i := i) (by rw [hi]; norm_num; ring) (h.quotient_ne hfar)
    have hmod := hgrid.far_iff.1 hfar
    omega
  · rw [h.units_of_eq (h.quotient_eq hgrid (hgrid.near_of_not_far hodd hfar))]
    by_cases he : e = 6
    · subst he
      have hmod := mt hgrid.far_iff.2 fun hd => hfar ⟨rfl, hd⟩
      omega
    · have hpow : 2 ^ e ≤ 2 ^ 5 := Nat.pow_le_pow_right two_pos (by have := hgrid.bounds; omega)
      omega

end Tie

/-! ## Doubles near zero -/

theorem unpack_cutoff : (0.0005 : Float).toModel.unpack =
    .finite .positive 4611686018427388 (-63) (by decide) := rfl

/-- The cut-off is above half a thousandth, and no double is between the two. -/
theorem small_or_isNormal {v : Float} (h : v.isFinite) :
    v.abs < 0.0005 ∧ |value v| < 1 / 2000 ∨
      ¬v.abs < 0.0005 ∧ ∃ s q, IsNormal s q v ∧ 1 / 2000 < q := by
  obtain ⟨s, hu⟩ | ⟨s, m, e, hm, hu, -⟩ := (isFinite_iff_ulpLe.1 h).elim
  · left
    constructor
    · rw [lt_iff, unpack_cutoff]
      change (Float.Model.pack v.toModel.unpack.abs).unpack.lt _
      rw [hu]
      change (Float.Model.pack (.zero .positive)).unpack.lt _
      decide
    · simp [value, ofFloat_eq, hu, exactValue, Magnitude.value]
  · have hbounds := unpack_bounds hu
    have hplace : (2 : ℚ) ^ (-63 : ℤ) = 1 / 2 ^ 63 := by norm_num
    rw [lt_iff, unpack_abs hu, unpack_cutoff, lt_finite_iff, abs_value hu]
    by_cases hlt : e < -63 ∨ e = -63 ∧ m < 4611686018427388
    · refine .inl ⟨hlt, ?_⟩
      rcases hlt with hlt | ⟨rfl, hlt⟩
      · have hbits : (m : ℚ) < 2 ^ 53 := by
          exact_mod_cast (Nat.log2_lt hm.ne').1 (by omega : m.log2 < 53)
        calc
          (m : ℚ) * 2 ^ e ≤ 2 ^ 53 * 2 ^ (-64 : ℤ) :=
            mul_le_mul hbits.le (two_zpow_le_iff.2 (by omega)) (two_zpow_pos e).le (by simp)
          _ < 1 / 2000 := by norm_num
      · have hle : (m : ℚ) ≤ 4611686018427387 := by exact_mod_cast (by omega)
        rw [hplace]
        linarith
    · have hlog := hbounds.2.2.2 (by omega)
      refine .inr ⟨hlt, s, _, ⟨m, e, hm, hu, hlog, rfl⟩, ?_⟩
      rcases (by omega : -62 ≤ e ∨ e = -63 ∧ 4611686018427388 ≤ m) with hle | ⟨rfl, hle⟩
      · calc
          (1 / 2000 : ℚ) < 2 ^ 52 * 2 ^ (-62 : ℤ) := by norm_num
          _ ≤ m * 2 ^ e := mul_le_mul (log2_bounds hlog).1 (two_zpow_le_iff.2 hle)
            (two_zpow_pos _).le (Nat.cast_nonneg m)
      · have hle' : (4611686018427388 : ℚ) ≤ m := by exact_mod_cast hle
        rw [hplace]
        linarith

/-! ## Thousandths of doubles -/

/-- The value is an odd number of sixteenths, with either sign, that goes
astray. -/
def IsAstray (x : ℚ) : Prop := ∃ k : ℕ, k % 2 = 1 ∧ |x| = k / 16 ∧ GoesAstray k

section Fixed

variable {v : Float} {s : Float.Model.UnpackedFloat.Sign} {q : ℚ}

/-- A double that is no tie is written as the nearest thousandth, whatever the
rule for ties. -/
theorem IsNormal.exists_of_not_tie (h : IsNormal s q v) (hlow : 1 / 2000 < q)
    (htie : ¬∃ k : ℕ, k % 2 = 1 ∧ q = k / 16) :
    ∃ u : ℤ, IsRounded .awayFromZero (q * 1000) u ∧
      Spells 3 (if s == .negative then -u else u) (fixedText 3 v ++ "f") := by
  obtain ⟨u, hu, hspells⟩ := h.exists_spells (by decide : 0 < 3) (by linarith)
  norm_num at hu
  refine ⟨u, ⟨hu.near, fun hhalf => absurd ?_ htie⟩, hspells⟩
  -- a half would make an odd number of two thousandths
  obtain ⟨i, hi, hodd⟩ : ∃ i : ℤ, q * 2000 = i ∧ i % 2 = 1 := by
    rcases (abs_eq (by norm_num)).1 hhalf with hsub | hsub
    · exact ⟨2 * u + 1, by push_cast; linarith, by omega⟩
    · exact ⟨2 * u - 1, by push_cast; linarith, by omega⟩
  have hpos : (0 : ℚ) < i := by linarith
  lift i to ℕ using by exact_mod_cast hpos.le
  exact h.isShort.exists_sixteenths (by exact_mod_cast hi) (by exact_mod_cast hodd)

/-- An odd number of sixteenths takes the way of a tie. -/
theorem IsNormal.exists_tiePath {k : ℕ} (h : IsNormal s (k / 16) v) (hodd : k % 2 = 1) :
    ∃ p n q u, TiePath k p n q u ∧ Spells 3 (if s == .negative then -u else u)
      (fixedText 3 (Real64.round (v * 1000) / 1000) ++ "f") := by
  have hlt := h.isShort.lt_of_odd hodd
  have hone : (1 : ℚ) ≤ k := by exact_mod_cast (by omega : 1 ≤ k)
  have hlt' : (k : ℚ) < 2 ^ 53 := by exact_mod_cast hlt
  have hrange := @range_of_medium (k / 16 * 1000) (by linarith) (by linarith)
  obtain ⟨p, hproduct, hp⟩ := h.mul isNormal_thousand hrange.1 hrange.2
  have hlow := hproduct.lt_two_mul
  have hhigh := abs_le.1 (hproduct.abs_sub_le (isShort_natCast (n := 0) (by decide)))
  rw [Nat.cast_zero, sub_zero, abs_of_pos (by linarith)] at hhigh
  have hhigh' : p ≤ 2 ^ 100 := by linarith
  obtain ⟨n, hpos, hwhole, hn⟩ := hp.round (by linarith)
    (hhigh'.trans (pow_le_pow_right₀ one_le_two (by decide)))
  have hone' : (1 : ℚ) ≤ n := by exact_mod_cast hpos
  have hnear := abs_le.1 hwhole.near
  rw [Int.cast_natCast] at hnear
  have hrange' := @range_of_medium (n / 1000) (by linarith) (by linarith)
  obtain ⟨q, hquotient, hq⟩ := hn.div isNormal_thousand hrange'.1 hrange'.2
  have hlow' := hquotient.lt_two_mul
  obtain ⟨u, hunits, hspells⟩ := hq.exists_spells (by decide : 0 < 3) (by linarith)
  norm_num at hunits
  exact ⟨p, n, q, u, ⟨hodd, hlt, hproduct, hwhole, hquotient, hunits⟩, hspells⟩

theorem spells_zero : Spells 3 0 "0.000f" :=
  ⟨['0'], ['0', '0', '0'], ⟨by simp, by simp⟩, fun _ => rfl, by simp, rfl, rfl, rfl⟩

/-- The thousandths that a finite double is written with, and when they are the
right ones. -/
theorem exists_spells_fixed3 (h : v.isFinite) :
    ∃ u : ℤ, Spells 3 u (fixed3 v) ∧
      (IsRounded .awayFromZero (value v * 1000) u ↔ ¬IsAstray (value v)) := by
  unfold fixed3
  obtain ⟨hsmall, hlt⟩ | ⟨hlarge, s, q, hv, hlow⟩ := small_or_isNormal h
  · rw [if_pos hsmall]
    refine ⟨0, spells_zero, iff_of_true (.of_abs_sub_lt ?_) ?_⟩
    · rw [Int.cast_zero, sub_zero, abs_mul]
      norm_num
      linarith
    · rintro ⟨k, hodd, hk, -⟩
      have hone : (1 : ℚ) ≤ k := by exact_mod_cast (by omega : 1 ≤ k)
      linarith
  · rw [if_neg hlarge]
    have hvalue : value v * 1000 = if s == .negative then -(q * 1000) else q * 1000 := by
      rw [hv.value_eq]
      split <;> ring
    rw [hvalue, IsAstray, hv.abs_value]
    by_cases htie : ∃ k : ℕ, k % 2 = 1 ∧ q = k / 16
    · rw [if_pos ((hv.isOddWhole_sixteenths_iff hlow).2 htie)]
      obtain ⟨k, hodd, rfl⟩ := htie
      obtain ⟨p, n, q, u, hpath, hspells⟩ := IsNormal.exists_tiePath hv hodd
      refine ⟨_, hspells, ?_⟩
      rw [isRounded_signed_iff, hpath.isRounded_iff, hpath.units_eq_iff]
      refine not_congr ⟨fun hk => ⟨k, hodd, rfl, hk⟩, ?_⟩
      rintro ⟨k', -, hk, hastray⟩
      obtain rfl : k = k' := by
        have hk' : (k : ℚ) = k' := by linarith
        exact_mod_cast hk'
      exact hastray
    · rw [if_neg (mt (hv.isOddWhole_sixteenths_iff hlow).1 htie)]
      obtain ⟨u, hu, hspells⟩ := IsNormal.exists_of_not_tie hv hlow htie
      refine ⟨_, hspells, iff_of_true (isRounded_signed_iff.2 hu) ?_⟩
      rintro ⟨k, hodd, hk, -⟩
      exact htie ⟨k, hodd, hk⟩

/-- The text is the decimal with three places nearest to `x`: a half of a
thousandth goes away from zero, and a zero has no sign. -/
def IsNearestThousandth (x : ℚ) (text : String) : Prop :=
  ∃ n : ℤ, IsRounded .awayFromZero (x * 1000) n ∧ Spells 3 n text

/-- A finite number is written as the nearest thousandth unless it is astray. -/
theorem isNearestThousandth_fixed3_iff (h : v.isFinite) :
    IsNearestThousandth (value v) (fixed3 v) ↔ ¬IsAstray (value v) := by
  obtain ⟨u, hspells, hu⟩ := exists_spells_fixed3 h
  rw [← hu]
  constructor
  · rintro ⟨n, hn, hspells'⟩
    rwa [hspells.unique hspells']
  · exact fun hrounded => ⟨u, hrounded, hspells⟩

/-- A number that is too small for a thousandth is written as zero, without a
sign. -/
theorem fixed3_of_small (h : v.isFinite) (hsmall : |value v| < 1 / 2000) :
    fixed3 v = "0.000f" := by
  obtain ⟨hlt, -⟩ | ⟨-, s, q, hv, hlow⟩ := small_or_isNormal h
  · exact if_pos hlt
  · rw [hv.abs_value] at hsmall
    linarith

/-- **Thousandths**: a finite double is always written as a decimal with three
places, as a zero without a sign if it is below half a thousandth.  It is the
nearest such decimal, ties going away from zero, exactly if the double is none
of the large odd sixteenths that go astray. -/
theorem fixed3_spelling (h : v.isFinite) :
    (∃ n, Spells 3 n (fixed3 v)) ∧ (|value v| < 1 / 2000 → fixed3 v = "0.000f") ∧
      (IsNearestThousandth (value v) (fixed3 v) ↔ ¬IsAstray (value v)) := by
  obtain ⟨u, hspells, -⟩ := exists_spells_fixed3 h
  exact ⟨⟨u, hspells⟩, fixed3_of_small h, isNearestThousandth_fixed3_iff h⟩

end Fixed

/-- A tie of the usual size goes away from zero. -/
theorem isNearestThousandth_fixed3_tie :
    (2.5625 : Float).isFinite ∧ value 2.5625 = 41 / 16 ∧
      IsNearestThousandth (value 2.5625) (fixed3 2.5625) := by
  have hvalue : value 2.5625 = 41 / 16 := by
    have hparts : Binary64.ofFloat 2.5625 = .finite false ⟨41 * 2 ^ 47, -51⟩ := by decide +kernel
    simp only [value, hparts, Magnitude.value]
    norm_num
  refine ⟨by decide, hvalue, (fixed3_spelling (by decide)).2.2.2 ?_⟩
  rw [hvalue]
  rintro ⟨k, -, hk, hlarge, -⟩
  rw [abs_of_pos (by norm_num), div_left_inj' (by norm_num)] at hk
  have hk' : k = 41 := by exact_mod_cast hk.symm
  omega

/-- The product of the first one with a thousand is rounded to an even number,
and the product of the second one is divided to the next sixteenth. -/
theorem not_isNearestThousandth_fixed3_large :
    ¬IsNearestThousandth (value 4503599627370.5625) (fixed3 4503599627370.5625) ∧
      ¬IsNearestThousandth (value 316659348799489.3125) (fixed3 316659348799489.3125) := by
  constructor
  · have hparts : Binary64.ofFloat 4503599627370.5625 =
        .finite false ⟨72057594037929 * 2 ^ 6, -10⟩ := by decide +kernel
    rw [isNearestThousandth_fixed3_iff (by decide +kernel), not_not]
    refine ⟨72057594037929, by decide, ?_, by decide +kernel, .inl (by decide)⟩
    simp only [value, hparts, Magnitude.value]
    norm_num
  · have hparts : Binary64.ofFloat 316659348799489.3125 =
        .finite false ⟨5066549580791829, -4⟩ := by decide +kernel
    rw [isNearestThousandth_fixed3_iff (by decide +kernel), not_not]
    refine ⟨5066549580791829, by decide, ?_, by decide +kernel, ?_⟩
    · simp only [value, hparts, Magnitude.value]
      norm_num
    · decide +kernel

example : fixed3 4503599627370.5625 = "4503599627370.562f" := by decide +kernel

example : fixed3 316659348799489.3125 = "316659348799489.375f" := by decide +kernel

end GlutSketch.Program
