import GlutSketch.Proofs.Numeric.Rounding

/-!
# GlutSketch.Proofs.Numeric.Finite

Which operations on doubles stay finite.  A bound on the last place is a bound
on the size, and every operation has a rule for it: a product adds the sizes, a
quotient subtracts them, a difference doubles the greater one.  A result beyond
the bounds is infinite, and no operation makes an infinity or a NaN finite
again.

* `Real64.isFinite_iff_ulpLe` -- a double is finite if it has any such bound.
* `Real64.UlpLe.mul`, `UlpLe.div`, `UlpLe.sub`, `UlpLe.add` -- the rules.
* `Real64.isFinite_of_mul` and its companions -- the way back.
-/

namespace GlutSketch.Real64

open Float.Model (Format totalExponent UnpackedFloat)
open Float.Model.UnpackedFloat
open Unpacked

variable {j k l t : Int} {x y : Float}

/-! ## Sizes -/

/-- A finite double with a last place of at most `2 ^ k`, and so below
`2 ^ (k + 53)`. -/
def UlpLe (k : Int) (x : Float) : Prop := Unpacked.UlpLe k x.toModel.unpack

instance (k : Int) (x : Float) : Decidable (UlpLe k x) :=
  inferInstanceAs (Decidable (Unpacked.UlpLe k _))

/-- A double of at least `2 ^ t`, perhaps infinite. -/
@[irreducible]
def TwoPowLe (t : Int) (x : Float) : Prop :=
  match x.toModel.unpack with
  | .finite _ m e _ => t < totalExponent m e
  | .infinity _ => True
  | _ => False

instance (t : Int) (x : Float) : Decidable (TwoPowLe t x) := by
  unfold TwoPowLe
  split <;> infer_instance

theorem UlpLe.mono (h : j ≤ k) (hx : UlpLe j x) : UlpLe k x := Unpacked.UlpLe.mono h hx

theorem UlpLe.elim (hx : UlpLe k x) :
    (∃ s, x.toModel.unpack = .zero s) ∨
      ∃ s m e hm, x.toModel.unpack = .finite s m e hm ∧ e ≤ k :=
  Unpacked.UlpLe.elim hx

theorem TwoPowLe.elim (hx : TwoPowLe t x) :
    (∃ s, x.toModel.unpack = .infinity s) ∨
      ∃ s m e hm, x.toModel.unpack = .finite s m e hm ∧ t < totalExponent m e := by
  unfold TwoPowLe at hx
  cases hu : x.toModel.unpack with
  | notANumber =>
      rw [hu] at hx
      cases hx
  | infinity s => exact .inl ⟨s, rfl⟩
  | zero s =>
      rw [hu] at hx
      cases hx
  | finite s m e hm =>
      rw [hu] at hx
      exact .inr ⟨s, m, e, hm, rfl, hx⟩

/-- A double with a bounded last place is finite. -/
theorem UlpLe.isFinite (hx : UlpLe k x) : x.isFinite := by
  change x.toModel.unpack.isFinite
  obtain ⟨s, hu⟩ | ⟨s, m, e, hm, hu, -⟩ := hx.elim
  · rw [hu]
    rfl
  · rw [hu]
    rfl

/-- The last place of the greatest doubles is `2 ^ 971`. -/
theorem isFinite_iff_ulpLe : x.isFinite ↔ UlpLe 971 x := by
  constructor
  · intro h
    change x.toModel.unpack.isFinite at h
    change Unpacked.UlpLe 971 x.toModel.unpack
    cases hu : x.toModel.unpack with
    | notANumber =>
        rw [hu] at h
        cases h
    | infinity s =>
        rw [hu] at h
        cases h
    | zero s => trivial
    | finite s m e hm => exact (unpack_bounds hu).2.2.1
  · exact UlpLe.isFinite

/-- A finite double is one with a finite exact value. -/
theorem isFinite_iff_ofFloat :
    x.isFinite ↔ ∃ negative m, Binary64.ofFloat x = .finite negative m := by
  change x.toModel.unpack.isFinite ↔ _
  rw [ofFloat_eq]
  cases x.toModel.unpack with
  | notANumber => exact iff_of_false (by decide) (by rintro ⟨_, _, hvalue⟩; cases hvalue)
  | infinity s => exact iff_of_false Bool.false_ne_true (by rintro ⟨_, _, hvalue⟩; cases hvalue)
  | zero s => exact iff_of_true rfl ⟨_, _, rfl⟩
  | finite s m e hm => exact iff_of_true rfl ⟨_, _, rfl⟩

/-- The exact value in units of the last place. -/
theorem UlpLe.ofFloat (hx : UlpLe k x) (hlow : -1074 ≤ k) :
    ∃ negative m, Binary64.ofFloat x = .finite negative m ∧ m.significand.log2 ≤ 52 ∧
      m.exponent ≤ k := by
  rw [ofFloat_eq]
  obtain ⟨s, hu⟩ | ⟨s, m, e, hm, hu, he⟩ := hx.elim
  · rw [hu]
    exact ⟨_, _, rfl, by decide, hlow⟩
  · rw [hu]
    exact ⟨_, _, rfl, (unpack_bounds hu).1, he⟩

/-! ## Results in reach -/

/-- A product has a last place of at most the product of both, times that of one
significand. -/
theorem UlpLe.mul (hx : UlpLe j x) (hy : UlpLe k y) (hl : j + k + 54 ≤ l) (hlow : -1073 ≤ l)
    (hhigh : l ≤ 971) : UlpLe l (x * y) := by
  refine ulpLe_unpack_pack (by omega) hhigh ?_
  obtain ⟨s, hu⟩ | ⟨s, m, e, hm, hu, he⟩ := hx.elim
  · obtain ⟨s', hv⟩ | ⟨s', m', e', hm', hv, -⟩ := hy.elim
    · rw [hu, hv]
      trivial
    · rw [hu, hv]
      trivial
  · obtain ⟨s', hv⟩ | ⟨s', m', e', hm', hv, he'⟩ := hy.elim
    · rw [hu, hv]
      trivial
    · have hbits := (unpack_bounds hu).1
      have hbits' := (unpack_bounds hv).1
      have hlog := log2_mul_le m m'
      rw [hu, hv, ← Int.sub_add_cancel l 1]
      refine ulpLe_roundWithAccuracy (by omega) ?_ (by omega)
      simp only [totalExponent]
      omega

/-- A number over an infinity is zero, so the divisor need not be finite. -/
theorem UlpLe.div (hx : UlpLe j x) (hy : TwoPowLe t y) (hl : j + 1 - t ≤ l) (hlow : -1073 ≤ l)
    (hhigh : l ≤ 971) : UlpLe l (x / y) := by
  refine ulpLe_unpack_pack (by omega) hhigh ?_
  obtain ⟨s, hu⟩ | ⟨s, m, e, hm, hu, he⟩ := hx.elim
  · obtain ⟨s', hv⟩ | ⟨s', m', e', hm', hv, -⟩ := hy.elim
    · rw [hu, hv]
      trivial
    · rw [hu, hv]
      trivial
  · obtain ⟨s', hv⟩ | ⟨s', m', e', hm', hv, ht⟩ := hy.elim
    · rw [hu, hv]
      trivial
    · have hbits := (unpack_bounds hu).1
      have hexponent := divCore_exponent m m' e e'
      have hquotient := totalExponent_divCore_le m m' e e'
      have htotal : totalExponent m e ≤ j + 53 := by
        rw [totalExponent]
        omega
      rw [hu, hv]
      have hround := @ulpLe_roundWithAccuracy (s / s') _ _ (l - 1)
        (divCore Format.binary64 m e m' e').2.2 (by omega) (Int.le_trans hquotient (by omega))
        (by omega)
      rwa [Int.sub_add_cancel] at hround

/-- The difference of numbers with 53 digits each. -/
theorem ulpLe_sub {u v : UnpackedFloat} (hu : Unpacked.UlpLe k u) (hv : Unpacked.UlpLe k v)
    (hbits : ∀ s m e hm, u = .finite s m e hm → m.log2 ≤ 52)
    (hbits' : ∀ s m e hm, v = .finite s m e hm → m.log2 ≤ 52) (hl : k + 2 ≤ l)
    (hlow : -1072 ≤ l) : Unpacked.UlpLe l (UnpackedFloat.sub Format.binary64 u v) := by
  obtain ⟨s, rfl⟩ | ⟨s, m, e, hm, rfl, he⟩ := hu.elim
  · obtain ⟨s', rfl⟩ | ⟨s', m', e', hm', rfl, he'⟩ := hv.elim
    · cases s <;> cases s' <;> trivial
    · exact Int.le_trans he' (by omega)
  · obtain ⟨s', rfl⟩ | ⟨s', m', e', hm', rfl, he'⟩ := hv.elim
    · exact Int.le_trans he (by omega)
    · have hm52 := hbits _ _ _ _ rfl
      have hm52' := hbits' _ _ _ _ rfl
      have hsize := @totalExponent_difference_le s s' m m' e e' (l + 51)
        (by simp only [totalExponent]; omega) (by simp only [totalExponent]; omega)
      rw [← Int.sub_add_cancel l 1]
      refine ulpLe_normalize (Int.le_trans hsize ?_) (by omega)
      omega

/-- A difference has at most four times the greater last place. -/
theorem UlpLe.sub (hx : UlpLe k x) (hy : UlpLe k y) (hl : k + 2 ≤ l) (hlow : -1072 ≤ l)
    (hhigh : l ≤ 971) : UlpLe l (x - y) := by
  refine ulpLe_unpack_pack (by omega) hhigh (ulpLe_sub hx hy ?_ ?_ hl hlow)
  · exact fun _ _ _ _ hu => (unpack_bounds hu).1
  · exact fun _ _ _ _ hv => (unpack_bounds hv).1

theorem ulpLe_neg {u : UnpackedFloat} (hu : Unpacked.UlpLe k u) : Unpacked.UlpLe k u.neg := by
  obtain ⟨s, rfl⟩ | ⟨s, m, e, hm, rfl, he⟩ := hu.elim
  · trivial
  · exact he

theorem UlpLe.neg (hx : UlpLe k x) (hlow : -1074 ≤ k) (hhigh : k ≤ 971) : UlpLe k (-x) :=
  ulpLe_unpack_pack hlow hhigh (ulpLe_neg hx)

/-- A sum is the difference from the negation. -/
theorem add_eq_sub_neg (u v : UnpackedFloat) :
    UnpackedFloat.add Format.binary64 u v = UnpackedFloat.sub Format.binary64 u v.neg := by
  have happly : ∀ (s : Sign) (n : Int), (-s).apply n = -s.apply n := fun s n => by
    cases s
    · exact (Int.neg_neg n).symm
    · rfl
  cases v with
  | notANumber => cases u <;> rfl
  | infinity s => cases s <;> cases u <;> rfl
  | zero s => cases s <;> cases u <;> rfl
  | finite s m e hm =>
      cases u with
      | finite s' m' e' hm' =>
          refine congrArg (UnpackedFloat.normalize Format.binary64 · (min e' e) .positive) ?_
          rw [happly, Int.sub_neg]
      | _ => cases s <;> rfl

/-- A sum is bounded like a difference. -/
theorem UlpLe.add (hx : UlpLe k x) (hy : UlpLe k y) (hl : k + 2 ≤ l) (hlow : -1072 ≤ l)
    (hhigh : l ≤ 971) : UlpLe l (x + y) := by
  refine ulpLe_unpack_pack (by omega) hhigh ?_
  rw [add_eq_sub_neg]
  refine ulpLe_sub hx (ulpLe_neg hy) ?_ ?_ hl hlow
  · exact fun _ _ _ _ hu => (unpack_bounds hu).1
  · intro s m e hm hv
    cases hy : y.toModel.unpack <;> rw [hy] at hv <;> cases hv
    exact (unpack_bounds hy).1

/-- Turning the sign keeps a double finite. -/
theorem isFinite_neg (hx : x.isFinite) : (-x).isFinite :=
  ((isFinite_iff_ulpLe.1 hx).neg (by decide) (by decide)).isFinite

/-- A product of finite doubles is infinite or finite. -/
theorem isFinite_mul (hx : x.isFinite) (hy : y.isFinite) (h : (x * y).isInf = false) :
    (x * y).isFinite := by
  have hproduct : (UnpackedFloat.mul Format.binary64 x.toModel.unpack
      y.toModel.unpack).isFinite := by
    obtain ⟨s, hu⟩ | ⟨s, m, e, hm, hu, -⟩ := (isFinite_iff_ulpLe.1 hx).elim
    · obtain ⟨s', hv⟩ | ⟨s', m', e', hm', hv, -⟩ := (isFinite_iff_ulpLe.1 hy).elim
      · rw [hu, hv]
        rfl
      · rw [hu, hv]
        rfl
    · obtain ⟨s', hv⟩ | ⟨s', m', e', hm', hv, -⟩ := (isFinite_iff_ulpLe.1 hy).elim
      · rw [hu, hv]
        rfl
      · rw [hu, hv]
        exact isFinite_roundWithAccuracy ..
  cases isFinite_or_isInf_unpack_pack hproduct with
  | inl hfinite => exact hfinite
  | inr hinf => exact absurd (h.symm.trans hinf) (by decide)

/-! ## Operands of finite results -/

/-- A finite product has finite factors. -/
theorem isFinite_of_mul (h : (x * y).isFinite) : x.isFinite ∧ y.isFinite := by
  have hproduct := isFinite_of_unpack_pack h
  change x.toModel.unpack.isFinite ∧ y.toModel.unpack.isFinite
  generalize x.toModel.unpack = u at *
  generalize y.toModel.unpack = v at *
  cases u <;> cases v <;> first | exact ⟨rfl, rfl⟩ | cases hproduct

/-- A finite quotient has a finite dividend. -/
theorem isFinite_of_div (h : (x / y).isFinite) : x.isFinite := by
  have hquotient := isFinite_of_unpack_pack h
  change x.toModel.unpack.isFinite
  generalize x.toModel.unpack = u at *
  generalize y.toModel.unpack = v at *
  cases u <;> cases v <;> first | rfl | cases hquotient

/-- A finite difference is one of finite numbers. -/
theorem isFinite_of_sub (h : (x - y).isFinite) : x.isFinite ∧ y.isFinite := by
  have hdifference := isFinite_of_unpack_pack h
  change x.toModel.unpack.isFinite ∧ y.toModel.unpack.isFinite
  generalize x.toModel.unpack = u at *
  generalize y.toModel.unpack = v at *
  by_cases hboth : u.isInf ∧ v.isInf
  · -- two infinities cancel to a NaN or stay an infinity
    exfalso
    cases u <;> cases v <;> simp [UnpackedFloat.isInf] at hboth
    rename_i s s'
    cases s <;> cases s' <;> cases hdifference
  · cases u <;> cases v <;>
      first | exact ⟨rfl, rfl⟩ | cases hdifference | exact absurd ⟨rfl, rfl⟩ hboth

/-! ## Comparisons -/

/-- Doubles are compared by what they unpack to. -/
theorem lt_iff : x < y ↔ x.toModel.unpack.lt y.toModel.unpack := by
  change decide (x.toModel.unpack.lt y.toModel.unpack = true) = true ↔ _
  exact decide_eq_true_iff

theorem le_iff : x ≤ y ↔ x.toModel.unpack.le y.toModel.unpack := by
  change decide (x.toModel.unpack.le y.toModel.unpack = true) = true ↔ _
  exact decide_eq_true_iff

/-- No infinity and no NaN has a size below another double. -/
theorem isFinite_of_abs_lt (h : x.abs < y) : x.isFinite := by
  rw [lt_iff] at h
  change (Float.Model.pack x.toModel.unpack.abs).unpack.lt y.toModel.unpack at h
  change x.toModel.unpack.isFinite
  generalize y.toModel.unpack = v at h
  cases hu : x.toModel.unpack with
  | notANumber =>
      rw [hu] at h
      cases h
  | infinity s =>
      have hinf : (Float.Model.pack (UnpackedFloat.infinity s).abs).unpack =
        .infinity .positive := unpack_packedInfinity .positive
      rw [hu, hinf] at h
      cases v with
      | infinity s' => cases s' <;> cases h
      | notANumber => cases h
      | zero s' => cases h
      | finite s' m e hm => cases h
  | zero s => rfl
  | finite s m e hm => rfl

/-- Between two finite doubles there are only finite ones. -/
theorem isFinite_of_between {z : Float} (hx : x.isFinite) (hz : z.isFinite) (hxy : x ≤ y)
    (hyz : y ≤ z) : y.isFinite := by
  rw [le_iff] at hxy hyz
  change x.toModel.unpack.isFinite at hx
  change z.toModel.unpack.isFinite at hz
  change y.toModel.unpack.isFinite
  generalize x.toModel.unpack = u at *
  generalize z.toModel.unpack = w at *
  cases hv : y.toModel.unpack with
  | notANumber =>
      rw [hv] at hyz
      cases hyz
  | infinity s =>
      rw [hv] at hxy hyz
      cases s with
      | negative => cases u <;> first | cases hx; done | cases hxy
      | positive => cases w <;> first | cases hz; done | cases hyz
  | zero s => rfl
  | finite s m e hm => rfl

/-- The greater of two finite numbers is finite. -/
theorem isFinite_maximum (hx : x.isFinite) (hy : y.isFinite) : (maximum x y).isFinite := by
  unfold maximum
  split
  · exact hy
  · split
    · exact hy
    · exact hx

end GlutSketch.Real64
