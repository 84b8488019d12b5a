import GlutSketch.Proofs.Numeric.Unpacked

/-!
# GlutSketch.Proofs.Numeric.Rounding

How coarse the last place of a rounded number can be.  Rounding shifts a number
to the last place that its size asks for and may carry into one more place, so
the last place of the result is at most twice the one that was asked for.

* `Unpacked.ulpLe_roundWithAccuracy` -- the bound for a number with an accuracy.
* `Unpacked.ulpLe_normalize` -- the same for an exact number with a sign.
* `Unpacked.roundWithAccuracy_normal` -- a number of 53 bits or more keeps 53 of
  them.
-/

namespace GlutSketch.Unpacked

open Float.Model (Format totalExponent UnpackedFloat)
open Float.Model.UnpackedFloat

/-! ## Numbers of binary digits -/

theorem pow2_succ (n : Nat) : pow2 (n + 1) = pow2 n * 2 := rfl

/-- A number below a power of two has a smaller logarithm. -/
theorem log2_le_of_lt {m n : Nat} (h : m < pow2 (n + 1)) : m.log2 ≤ n := by
  by_cases hm : m = 0
  · subst hm
    simp
  · exact Nat.le_of_lt_succ ((Nat.log2_lt hm).2 h)

theorem log2_mono {m n : Nat} (h : m ≤ n) : m.log2 ≤ n.log2 :=
  log2_le_of_lt (Nat.lt_of_le_of_lt h Nat.lt_log2_self)

/-- The logarithm of a product is at most one more than those of its factors
together. -/
theorem log2_mul_le (m n : Nat) : (m * n).log2 ≤ m.log2 + n.log2 + 1 := by
  apply log2_le_of_lt
  rw [show m.log2 + n.log2 + 1 + 1 = (m.log2 + 1) + (n.log2 + 1) by omega, pow2, Nat.pow_eq,
    Nat.pow_add]
  exact Nat.mul_lt_mul'' Nat.lt_log2_self Nat.lt_log2_self

theorem log2_shiftLeft_le (m n : Nat) : (m <<< n).log2 ≤ m.log2 + n := by
  apply log2_le_of_lt
  rw [Nat.shiftLeft_eq, Nat.add_right_comm, pow2, Nat.pow_eq, Nat.pow_add]
  exact Nat.mul_lt_mul_of_pos_right Nat.lt_log2_self (Nat.two_pow_pos n)

/-- A shift to the left adds its width to the logarithm. -/
theorem log2_shiftLeft {m : Nat} (hm : m ≠ 0) (n : Nat) : (m <<< n).log2 = m.log2 + n := by
  have hlow := Nat.mul_le_mul_right (2 ^ n) (Nat.log2_self_le hm)
  have hhigh := Nat.mul_lt_mul_of_pos_right (Nat.lt_log2_self (n := m)) (Nat.two_pow_pos n)
  rw [← Nat.pow_add] at hlow hhigh
  rw [Nat.shiftLeft_eq, Nat.log2_eq_iff (Nat.mul_ne_zero hm (Nat.ne_of_gt (Nat.two_pow_pos n))),
    Nat.add_right_comm]
  exact ⟨hlow, hhigh⟩

/-- A quotient has as many digits less as the divisor has after its first
one. -/
theorem log2_div_le (m n : Nat) : (m / n).log2 ≤ m.log2 - n.log2 := by
  by_cases hn : n = 0
  · simp [hn]
  · apply log2_le_of_lt
    rw [Nat.div_lt_iff_lt_mul (Nat.pos_of_ne_zero hn)]
    calc
      m < 2 ^ (m.log2 + 1) := Nat.lt_log2_self
      _ ≤ 2 ^ (m.log2 - n.log2 + 1 + n.log2) := Nat.pow_le_pow_right (by decide) (by omega)
      _ = 2 ^ (m.log2 - n.log2 + 1) * 2 ^ n.log2 := Nat.pow_add ..
      _ ≤ 2 ^ (m.log2 - n.log2 + 1) * n := Nat.mul_le_mul_left _ (Nat.log2_self_le hn)

/-- A shift to the right takes its width away. -/
theorem log2_shiftRight {m n : Nat} (hm : m ≠ 0) (hn : n ≤ m.log2) :
    (m >>> n).log2 = m.log2 - n := by
  have hlow : 2 ^ (m.log2 - n) * 2 ^ n ≤ m := by
    rw [← Nat.pow_add, Nat.sub_add_cancel hn]
    exact Nat.log2_self_le hm
  have hhigh : m < 2 ^ (m.log2 - n + 1) * 2 ^ n := by
    rw [← Nat.pow_add, show m.log2 - n + 1 + n = m.log2 + 1 by omega]
    exact Nat.lt_log2_self
  rw [← Nat.le_div_iff_mul_le (Nat.two_pow_pos n)] at hlow
  rw [← Nat.div_lt_iff_lt_mul (Nat.two_pow_pos n)] at hhigh
  rw [Nat.shiftRight_eq_div_pow,
    Nat.log2_eq_iff (Nat.ne_of_gt (Nat.lt_of_lt_of_le (Nat.two_pow_pos _) hlow))]
  exact ⟨hlow, hhigh⟩

/-- A carry adds a digit at most. -/
theorem log2_succ_le (m : Nat) : (m + 1).log2 ≤ m.log2 + 1 := by
  have hlt : m < pow2 (m.log2 + 1) := Nat.lt_log2_self
  apply log2_le_of_lt
  rw [pow2_succ]
  omega

/-! ## One shift -/

theorem mantissa_shiftRight (em : ExtendedMantissa) (n : Nat) :
    (em >>> n).mantissa = em.mantissa >>> n := by
  induction n with
  | zero => rfl
  | succ n ih =>
      have hstep : (em >>> (n + 1)).mantissa = (em >>> n).mantissa / 2 := rfl
      rw [hstep, ih, Nat.shiftRight_succ]

theorem mantissa_ofMantissaAndAccuracy (m : Nat) (acc : Accuracy) :
    (ExtendedMantissa.ofMantissaAndAccuracy m acc).mantissa = m := by
  cases acc with
  | exact => rfl
  | inexact o => cases o <;> rfl

/-- Rounding adds one or nothing. -/
theorem roundToNearestEven_bounds (m : Nat) (acc : Accuracy) :
    m ≤ acc.roundToNearestEven m ∧ acc.roundToNearestEven m ≤ m + 1 := by
  cases acc with
  | exact => simp [Accuracy.roundToNearestEven]
  | inexact o =>
      cases o with
      | lt => simp [Accuracy.roundToNearestEven]
      | gt => simp [Accuracy.roundToNearestEven]
      | eq =>
          simp only [Accuracy.roundToNearestEven]
          omega

/-- The last place of the result leaves 53 bits, and is never below the smallest
one. -/
theorem targetExponent_eq (t : Int) :
    Format.binary64.targetExponent t = max (t - 53) (-1074) := rfl

section Shift

variable (m : Nat) (e : Int) (acc : Accuracy)

/-- The last place after a shift. -/
theorem shiftToTargetExponent_snd :
    (shiftToTargetExponent Format.binary64 m e acc).2 =
      max e (max (totalExponent m e - 53) (-1074)) := by
  simp only [shiftToTargetExponent, shiftToExponent, targetExponent_eq]
  omega

/-- The size of a number after a shift and a carry. -/
theorem totalExponent_shiftToTargetExponent_le :
    totalExponent (shiftToTargetExponent Format.binary64 m e acc).1.roundedMantissa
      (shiftToTargetExponent Format.binary64 m e acc).2 ≤
        max (totalExponent m e) ((shiftToTargetExponent Format.binary64 m e acc).2 + 1) + 1 := by
  simp only [shiftToTargetExponent, shiftToExponent]
  generalize (Format.binary64.targetExponent (totalExponent m e) - e).toNat = n
  have hround := log2_mono (roundToNearestEven_bounds
    (ExtendedMantissa.ofMantissaAndAccuracy m acc >>> n).mantissa
    (ExtendedMantissa.ofMantissaAndAccuracy m acc >>> n).accuracy).2
  have hcarry := log2_succ_le (ExtendedMantissa.ofMantissaAndAccuracy m acc >>> n).mantissa
  have hshift := log2_div_le m (2 ^ n)
  rw [Nat.log2_two_pow, ← Nat.shiftRight_eq_div_pow] at hshift
  rw [mantissa_shiftRight, mantissa_ofMantissaAndAccuracy] at hround hcarry
  rw [ExtendedMantissa.roundedMantissa, mantissa_shiftRight, mantissa_ofMantissaAndAccuracy]
  simp only [totalExponent]
  omega

/-- A number of 53 bits or more keeps 53 of them. -/
theorem log2_shiftToTargetExponent (hm : 52 ≤ m.log2) (he : -1074 ≤ m.log2 - 52 + e) :
    (shiftToTargetExponent Format.binary64 m e acc).1.mantissa.log2 = 52 := by
  have hzero : m ≠ 0 := by
    intro hzero
    rw [hzero, Nat.log2_zero] at hm
    omega
  simp only [shiftToTargetExponent, shiftToExponent, targetExponent_eq, mantissa_shiftRight,
    mantissa_ofMantissaAndAccuracy, totalExponent]
  rw [log2_shiftRight hzero (by omega)]
  omega

end Shift

/-! ## Rounding -/

/-- The rounded number, shifted once more where it has carried. -/
def shiftTwice (m : Nat) (e : Int) (acc : Accuracy) : ExtendedMantissa × Int :=
  shiftToTargetExponent Format.binary64
    (shiftToTargetExponent Format.binary64 m e acc).1.roundedMantissa
    (shiftToTargetExponent Format.binary64 m e acc).2 .exact

section Round

variable {s : Sign} {m : Nat} {e k : Int} {acc : Accuracy}

/-- A rounded number is zero or has what is left after the two shifts. -/
theorem roundWithAccuracy_eq (s : Sign) (m : Nat) (e : Int) (acc : Accuracy) :
    (shiftTwice m e acc).1.mantissa = 0 ∧
        roundWithAccuracy Format.binary64 s m e acc = .zero s ∨
      ∃ hm, roundWithAccuracy Format.binary64 s m e acc =
        .finite s (shiftTwice m e acc).1.mantissa (shiftTwice m e acc).2 hm := by
  by_cases hzero : (shiftTwice m e acc).1.mantissa = 0
  · exact .inl ⟨hzero, dif_pos hzero⟩
  · exact .inr ⟨Nat.pos_of_ne_zero hzero, dif_neg hzero⟩

/-- A number of at most `2 ^ (k + 53)` has a last place of at most `2 ^ k`, and
a carry may double it. -/
theorem shiftTwice_snd_le (he : e ≤ k) (htotal : totalExponent m e ≤ k + 53) (hk : -1074 ≤ k) :
    (shiftTwice m e acc).2 ≤ k + 1 := by
  have hfirst := shiftToTargetExponent_snd m e acc
  have hrounded := totalExponent_shiftToTargetExponent_le m e acc
  rw [shiftTwice, shiftToTargetExponent_snd]
  omega

/-- A number of 53 bits or more keeps 53 of them, and its last place is not
finer than its size asks for. -/
theorem shiftTwice_normal (hm : 52 ≤ m.log2) (he : -1074 ≤ m.log2 - 52 + e) :
    (shiftTwice m e acc).1.mantissa.log2 = 52 ∧ m.log2 - 52 + e ≤ (shiftTwice m e acc).2 := by
  have hfirst := shiftToTargetExponent_snd m e acc
  have hmantissa := log2_shiftToTargetExponent m e acc hm he
  have hround := log2_mono (roundToNearestEven_bounds
    (shiftToTargetExponent Format.binary64 m e acc).1.mantissa
    (shiftToTargetExponent Format.binary64 m e acc).1.accuracy).1
  rw [← ExtendedMantissa.roundedMantissa] at hround
  rw [totalExponent] at hfirst
  refine ⟨log2_shiftToTargetExponent _ _ _ (by omega) (by omega), ?_⟩
  rw [shiftTwice, shiftToTargetExponent_snd]
  omega

/-- Rounding makes the last place at most twice as large. -/
theorem ulpLe_roundWithAccuracy (he : e ≤ k) (htotal : totalExponent m e ≤ k + 53)
    (hk : -1074 ≤ k) : UlpLe (k + 1) (roundWithAccuracy Format.binary64 s m e acc) := by
  obtain ⟨-, hround⟩ | ⟨hm, hround⟩ := roundWithAccuracy_eq s m e acc
  · rw [hround]
    trivial
  · rw [hround]
    exact shiftTwice_snd_le he htotal hk

/-- Rounding alone never gives an infinity: that is left to the packing. -/
theorem isFinite_roundWithAccuracy (s : Sign) (m : Nat) (e : Int) (acc : Accuracy) :
    (roundWithAccuracy Format.binary64 s m e acc).isFinite := by
  obtain ⟨-, hround⟩ | ⟨hm, hround⟩ := roundWithAccuracy_eq s m e acc
  · rw [hround]
    rfl
  · rw [hround]
    rfl

/-- A number with enough bits stays one of 53 bits. -/
theorem roundWithAccuracy_normal (s : Sign) (acc : Accuracy) (hm : 52 ≤ m.log2)
    (he : -1074 ≤ m.log2 - 52 + e) :
    ∃ m' e' hm', roundWithAccuracy Format.binary64 s m e acc = .finite s m' e' hm' ∧
      m'.log2 = 52 ∧ m.log2 - 52 + e ≤ e' := by
  have hnormal := @shiftTwice_normal m e acc hm he
  obtain ⟨hzero, -⟩ | ⟨hm', hround⟩ := roundWithAccuracy_eq s m e acc
  · rw [hzero, Nat.log2_zero] at hnormal
    omega
  · exact ⟨_, _, hm', hround, hnormal⟩

end Round

theorem totalExponent_decreaseExponent_le (m : Nat) (e t : Int) :
    totalExponent (decreaseExponent m e t).1 (decreaseExponent m e t).2 ≤ totalExponent m e := by
  have hlog := log2_shiftLeft_le m (e - t).toNat
  simp only [decreaseExponent, totalExponent]
  omega

/-- An exact number is shifted to the left first, so only its size matters. -/
theorem ulpLe_round {s : Sign} {m : Nat} {e k : Int} (htotal : totalExponent m e ≤ k + 53)
    (hk : -1074 ≤ k) : UlpLe (k + 1) (UnpackedFloat.round Format.binary64 s m e) := by
  have hle := totalExponent_decreaseExponent_le m e
    (Format.binary64.targetExponent (totalExponent m e))
  refine ulpLe_roundWithAccuracy ?_ (Int.le_trans hle htotal) hk
  rw [targetExponent_eq]
  omega

theorem ulpLe_normalize {n e k : Int} {s : Sign} (htotal : totalExponent n.natAbs e ≤ k + 53)
    (hk : -1074 ≤ k) : UlpLe (k + 1) (UnpackedFloat.normalize Format.binary64 n e s) := by
  simp only [UnpackedFloat.normalize]
  split
  · rename_i hn
    rw [Int.compare_eq_lt] at hn
    refine ulpLe_round ?_ hk
    rwa [show (-n).toNat = n.natAbs by omega]
  · trivial
  · rename_i hn
    rw [Int.compare_eq_gt] at hn
    refine ulpLe_round ?_ hk
    rwa [show n.toNat = n.natAbs by omega]

/-! ## Quotients -/

section Quotient

variable (m m' : Nat) (e e' : Int)

/-- The last place in which a quotient is computed. -/
theorem divCore_exponent :
    (divCore Format.binary64 m e m' e').2.1 =
      min (e - e') (max (totalExponent m e - totalExponent m' e' - 53) (-1074)) := by
  rw [divCore, targetExponent_eq]

/-- A quotient is hardly greater than the sizes of its operands ask for. -/
theorem totalExponent_divCore_le :
    totalExponent (divCore Format.binary64 m e m' e').1
      (divCore Format.binary64 m e m' e').2.1 ≤
        max (totalExponent m e - totalExponent m' e' + 1)
          ((divCore Format.binary64 m e m' e').2.1 + 1) := by
  rw [divCore_exponent]
  simp only [divCore, targetExponent_eq]
  generalize hexponent :
    min (e - e') (max (totalExponent m e - totalExponent m' e' - 53) (-1074)) = exponent
  have hquotient := log2_div_le (m <<< (e - e' - exponent).toNat) m'
  have hshift := log2_shiftLeft_le m (e - e' - exponent).toNat
  simp only [totalExponent] at *
  omega

end Quotient

/-! ## Differences -/

theorem natAbs_apply (s : Sign) (n : Int) : (s.apply n).natAbs = n.natAbs := by
  cases s with
  | negative => exact Int.natAbs_neg n
  | positive => rfl

/-- A number in smaller units stays below the same power of two. -/
theorem decreaseExponent_lt {m : Nat} {e low t : Int} (hlow : low ≤ e)
    (ht : totalExponent m e ≤ t) : (decreaseExponent m e low).1 < pow2 (t - low).toNat := by
  have hlog := log2_shiftLeft_le m (e - low).toNat
  simp only [totalExponent] at ht
  refine Nat.lt_of_lt_of_le Nat.lt_log2_self (Nat.pow_le_pow_right (by decide) ?_)
  simp only [decreaseExponent]
  omega

/-- The difference of two numbers below a power of two is below its double. -/
theorem totalExponent_difference_le (s s' : Sign) {m m' : Nat} {e e' t : Int}
    (ht : totalExponent m e ≤ t) (ht' : totalExponent m' e' ≤ t) :
    totalExponent (s.apply (decreaseExponent m e (min e e')).1 -
      s'.apply (decreaseExponent m' e' (min e e')).1).natAbs (min e e') ≤ t + 1 := by
  have hleft := decreaseExponent_lt (Int.min_le_left e e') ht
  have hright := decreaseExponent_lt (Int.min_le_right e e') ht'
  have hdifference := Int.natAbs_sub_le (s.apply (decreaseExponent m e (min e e')).1)
    (s'.apply (decreaseExponent m' e' (min e e')).1)
  rw [natAbs_apply, natAbs_apply, Int.natAbs_natCast, Int.natAbs_natCast] at hdifference
  have hlog := log2_le_of_lt (n := (t - min e e').toNat)
    (Nat.lt_of_le_of_lt hdifference (by rw [pow2_succ]; omega))
  simp only [totalExponent] at *
  omega

end GlutSketch.Unpacked
