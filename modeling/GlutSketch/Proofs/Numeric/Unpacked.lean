import GlutSketch.Numeric.Binary64

/-!
# GlutSketch.Proofs.Numeric.Unpacked

The arithmetic of doubles takes a double apart, computes on the parts and packs
the result again.  The parts are those of `Binary64.ofFloat`, and packing never
makes a last place coarser.

* `Unpacked.ofFloat_eq` -- the exact value is read off the parts.
* `Unpacked.UlpLe` -- zero, or finite with a last place of at most `2 ^ k`.
* `Unpacked.ulpLe_unpack_pack` -- packing keeps such a bound.
* `Unpacked.unpack_pack_of_canonical` -- packing keeps a number that has the
  form of a double.
* `Unpacked.unpack_pack_normal` -- packing keeps a number of 53 bits, or makes
  it infinite.
-/

namespace GlutSketch

open Float.Model (Format UnpackedFloat)
open Float.Model.UnpackedFloat

/-! ## The fields of a double -/

namespace Unpacked

theorem toNat_ones : (-1#11).toNat = 2047 := by decide

/-- The significand is in the last 52 bits. -/
theorem toNat_unpackMantissa (b : BitVec 64) :
    (@unpackMantissa Format.binary64 b).toNat = b.toNat % pow2 52 := by
  simp [unpackMantissa]

theorem toNat_unpackExponent (b : BitVec 64) :
    (@unpackExponent Format.binary64 b).toNat = b.toNat / pow2 52 % pow2 11 := by
  simp [unpackExponent, Nat.shiftRight_eq_div_pow]

theorem toNat_unpackSign (b : BitVec 64) :
    (@unpackSign Format.binary64 b).toNat = b.toNat / pow2 63 := by
  have hsign : (@unpackSign Format.binary64 b).toNat = (b.extractLsb 63 63).toNat := rfl
  have hlt := b.isLt
  rw [hsign, BitVec.extractLsb_toNat, Nat.shiftRight_eq_div_pow, pow2, Nat.pow_eq]
  omega

theorem ofBitVec_beq_negative (s : BitVec 1) :
    (Sign.ofBitVec s == .negative) = (s.toNat == 1) := by
  revert s
  decide

/-- The bit that is not stored stands before the others. -/
theorem toNat_implicit_append (mantissa : BitVec 52) :
    (1#1 ++ mantissa).toNat = pow2 52 + mantissa.toNat := by
  rw [BitVec.toNat_append, ← Nat.shiftLeft_add_eq_or_of_lt mantissa.isLt]
  simp [Nat.shiftLeft_eq]

section Fields

variable (b : BitVec Format.binary64.numBits)

/-- The parts of a double, from its fields. -/
theorem unpack_eq :
    unpack Format.binary64 b =
      if unpackExponent b = -1#11 then
        if unpackMantissa b = 0#52 then .infinity (.ofBitVec (unpackSign b)) else .notANumber
      else if unpackExponent b = 0#11 then
        if h : unpackMantissa b = 0#52 then .zero (.ofBitVec (unpackSign b))
        else
          .finite (.ofBitVec (unpackSign b)) (unpackMantissa b).toNat
            ((unpackExponent b).toNat - 1075 + 1)
            (by simpa [BitVec.toNat_pos, BitVec.pos_iff_ne_zero])
      else
        .finite (.ofBitVec (unpackSign b)) (1#1 ++ unpackMantissa b).toNat
          ((unpackExponent b).toNat - 1075)
          (by rw [toNat_implicit_append]; exact Nat.add_pos_left (by decide) _) := rfl

end Fields

/-- The exact value of the parts that the arithmetic of doubles works on. -/
def exactValue : UnpackedFloat → Binary64
  | .notANumber => .nan
  | .infinity s => .infinite (s == .negative)
  | .zero s => .finite (s == .negative) ⟨0, -1074⟩
  | .finite s m e _ => .finite (s == .negative) ⟨m, e⟩

/-- Taking a double apart is the same for exact values and for arithmetic. -/
theorem ofFloat_eq (x : Float) : Binary64.ofFloat x = exactValue x.toModel.unpack := by
  have hbits : x.toBits.toNat = x.toModel.toBits.toBitVec.toNat := rfl
  simp only [Binary64.ofFloat, hbits, ← toNat_unpackMantissa, ← toNat_unpackExponent,
    ← toNat_unpackSign, ← ofBitVec_beq_negative]
  rw [Float.Model.unpack, unpack_eq]
  generalize x.toModel.toBits.toBitVec = b
  by_cases hlast : @unpackExponent Format.binary64 b = -1#11
  · rw [if_pos hlast, if_pos (by rw [hlast, toNat_ones])]
    by_cases hzero : @unpackMantissa Format.binary64 b = 0#52
    · rw [if_pos hzero, if_pos (by rw [hzero, BitVec.toNat_zero])]
      rfl
    · rw [if_neg hzero, if_neg (by rwa [← BitVec.toNat_inj] at hzero)]
      rfl
  · rw [if_neg hlast, if_neg (by rwa [← BitVec.toNat_inj, toNat_ones] at hlast)]
    by_cases hfirst : @unpackExponent Format.binary64 b = 0#11
    · rw [if_pos hfirst, if_pos (by rw [hfirst, BitVec.toNat_zero])]
      by_cases hzero : @unpackMantissa Format.binary64 b = 0#52
      · rw [dif_pos hzero, hzero]
        rfl
      · rw [dif_neg hzero, hfirst]
        rfl
    · rw [if_neg hfirst, if_neg (by rwa [← BitVec.toNat_inj] at hfirst)]
      show _ = Binary64.finite _ ⟨(1#1 ++ @unpackMantissa Format.binary64 b).toNat, _⟩
      rw [toNat_implicit_append]

/-- The parts of a finite double: 53 bits at most, fewer only in the last place
that all subnormal numbers share. -/
theorem unpack_bounds {b : BitVec 64} {s : Sign} {m : Nat} {e : Int} {hm : 0 < m}
    (h : unpack Format.binary64 b = .finite s m e hm) :
    m.log2 ≤ 52 ∧ -1074 ≤ e ∧ e ≤ 971 ∧ (-1074 < e → m.log2 = 52) := by
  have hfraction : (@unpackMantissa Format.binary64 b).toNat < 2 ^ 52 := BitVec.isLt _
  have hexponent : (@unpackExponent Format.binary64 b).toNat < 2 ^ 11 := BitVec.isLt _
  rw [unpack_eq] at h
  by_cases hlast : @unpackExponent Format.binary64 b = -1#11
  · rw [if_pos hlast] at h
    by_cases hzero : @unpackMantissa Format.binary64 b = 0#52
    · rw [if_pos hzero] at h
      cases h
    · rw [if_neg hzero] at h
      cases h
  · rw [if_neg hlast] at h
    by_cases hfirst : @unpackExponent Format.binary64 b = 0#11
    · rw [if_pos hfirst, hfirst, BitVec.toNat_zero] at h
      by_cases hzero : @unpackMantissa Format.binary64 b = 0#52
      · rw [dif_pos hzero] at h
        cases h
      · rw [dif_neg hzero] at h
        injection h with _ hmantissa he
        have hlt := (Nat.log2_lt (Nat.ne_of_gt hm)).2 (hmantissa ▸ hfraction)
        omega
    · rw [if_neg hfirst] at h
      rw [← BitVec.toNat_inj, toNat_ones] at hlast
      rw [← BitVec.toNat_inj, BitVec.toNat_zero] at hfirst
      injection h with _ hmantissa he
      rw [toNat_implicit_append, pow2, Nat.pow_eq] at hmantissa
      have hlt := (Nat.log2_lt (k := 53) (Nat.ne_of_gt hm)).2 (by omega)
      have hle := (Nat.le_log2 (k := 52) (Nat.ne_of_gt hm)).2 (by omega)
      omega

/-! ## Bounds on the last place -/

/-- Zero, or a finite number with a last place of at most `2 ^ k`. -/
def UlpLe (k : Int) : UnpackedFloat → Prop
  | .zero _ => True
  | .finite _ _ e _ => e ≤ k
  | _ => False

instance (k : Int) (u : UnpackedFloat) : Decidable (UlpLe k u) := by
  unfold UlpLe
  split <;> infer_instance

variable {j k : Int} {u : UnpackedFloat}

theorem UlpLe.mono (h : j ≤ k) (hu : UlpLe j u) : UlpLe k u := by
  cases u with
  | notANumber => exact hu
  | infinity s => exact hu
  | zero s => trivial
  | finite s m e hm => exact Int.le_trans hu h

/-- What is bounded is a zero or a finite number. -/
theorem UlpLe.elim (h : UlpLe k u) :
    (∃ s, u = .zero s) ∨ ∃ s m e hm, u = .finite s m e hm ∧ e ≤ k := by
  cases u with
  | notANumber => cases h
  | infinity s => cases h
  | zero s => exact .inl ⟨s, rfl⟩
  | finite s m e hm => exact .inr ⟨s, m, e, hm, rfl, h⟩

/-! ## Packing -/

section Packing

variable {s : Sign} {m : Nat} {e : Int} {hm : 0 < m}

/-- A number is packed as an infinity, a normal or a subnormal double. -/
theorem pack_finite :
    pack Format.binary64 (.finite s m e hm) =
      if 2048 ≤ (e + (1023 : Nat) + (52 : Nat)).toNat + 1 then packedInfinity Format.binary64 s
      else if m.log2 + 1 = 53 then
        packComponents Format.binary64 s (BitVec.ofNat 11 (e + (1023 : Nat) + (52 : Nat)).toNat)
          (BitVec.ofNat 52 m)
      else packComponents Format.binary64 s 0#11 (BitVec.ofNat 52 m) := rfl

/-- A number in reach is packed with its exponent if it has 53 bits, and with
the exponent of the subnormal numbers if it has fewer. -/
theorem pack_of_le (he : e ≤ 971) :
    pack Format.binary64 (.finite s m e hm) = packComponents Format.binary64 s
      (if m.log2 = 52 then BitVec.ofNat 11 (e + 1075).toNat else 0#11) (BitVec.ofNat 52 m) := by
  have hbiased : (e + (1023 : Nat) + (52 : Nat)).toNat = (e + 1075).toNat := by omega
  rw [pack_finite, hbiased]
  split
  · omega
  · split
    · rw [if_pos (by omega)]
    · rw [if_neg (by omega)]

/-- A number out of reach is packed as an infinity. -/
theorem pack_of_gt (he : 971 < e) :
    pack Format.binary64 (.finite s m e hm) = packedInfinity Format.binary64 s := by
  have hbiased : (e + (1023 : Nat) + (52 : Nat)).toNat = (e + 1075).toNat := by omega
  rw [pack_finite, hbiased]
  split
  · rfl
  · omega

/-- An infinity is unpacked as it was packed. -/
theorem unpack_packedInfinity (s : Sign) :
    unpack Format.binary64 (packedInfinity Format.binary64 s) = .infinity s := by
  cases s with
  | negative => rfl
  | positive => rfl

/-- The stored exponent bounds the last place, whatever the other fields are. -/
theorem ulpLe_unpack_packComponents (s : Sign) (exponent : BitVec 11) (mantissa : BitVec 52)
    (hlast : exponent.toNat < 2047) (hlow : -1074 ≤ k)
    (hexponent : (exponent.toNat : Int) ≤ k + 1075) :
    UlpLe k (unpack Format.binary64 (packComponents Format.binary64 s exponent mantissa)) := by
  have hstored := @unpackExponent_packComponents Format.binary64 s exponent mantissa
  rw [unpack_eq, hstored, if_neg (by rw [← BitVec.toNat_inj, toNat_ones]; omega)]
  by_cases hfirst : exponent = 0#11
  · rw [if_pos hfirst]
    by_cases hzero : @unpackMantissa Format.binary64
        (packComponents Format.binary64 s exponent mantissa) = 0#52
    · rw [dif_pos hzero]
      trivial
    · rw [dif_neg hzero]
      show (exponent.toNat : Int) - 1075 + 1 ≤ k
      rw [hfirst, BitVec.toNat_zero]
      omega
  · rw [if_neg hfirst]
    show (exponent.toNat : Int) - 1075 ≤ k
    omega

/-- Packing keeps a bound on the last place. -/
theorem ulpLe_unpack_pack (hlow : -1074 ≤ k) (hhigh : k ≤ 971) (hu : UlpLe k u) :
    UlpLe k (Float.Model.pack u).unpack := by
  obtain ⟨s, rfl⟩ | ⟨s, m, e, hm, rfl, he⟩ := hu.elim
  · cases s with
    | negative => trivial
    | positive => trivial
  · change UlpLe k (unpack Format.binary64 (pack Format.binary64 _))
    rw [pack_of_le (by omega)]
    refine ulpLe_unpack_packComponents _ _ _ ?_ hlow ?_
    · split
      · rw [BitVec.toNat_ofNat]
        omega
      · decide
    · split
      · rw [BitVec.toNat_ofNat]
        omega
      · rw [BitVec.toNat_zero]
        omega

theorem ofBitVec_unpackSign_packComponents (s : Sign) (exponent : BitVec 11)
    (mantissa : BitVec 52) :
    Sign.ofBitVec (@unpackSign Format.binary64
      (packComponents Format.binary64 s exponent mantissa)) = s := by
  have hbit : (s.toBitVec ++ exponent ++ mantissa).getLsbD 63 = s.toBitVec[0] := by
    rw [BitVec.getLsbD_append, if_neg (by decide), BitVec.getLsbD_append, if_neg (by decide)]
    rfl
  have hstored : @unpackSign Format.binary64
      (packComponents Format.binary64 s exponent mantissa) = s.toBitVec := by
    ext i hi
    obtain rfl : i = 0 := by omega
    change (BitVec.extractLsb 63 63 (s.toBitVec ++ exponent ++ mantissa))[0] = _
    rw [BitVec.getElem_extract]
    exact hbit
  rw [hstored]
  cases s with
  | negative => rfl
  | positive => rfl

/-- Packing does not change a number that has the form of a double. -/
theorem unpack_pack_of_canonical (hlog : m.log2 ≤ 52) (hlow : -1074 ≤ e) (hhigh : e ≤ 971)
    (hnormal : -1074 < e → m.log2 = 52) :
    (Float.Model.pack (.finite s m e hm)).unpack = .finite s m e hm := by
  change unpack Format.binary64 (pack Format.binary64 _) = _
  have hlt : m < 2 ^ 53 := (Nat.log2_lt (Nat.ne_of_gt hm)).1 (by omega)
  rw [pack_of_le hhigh, unpack_eq, unpackExponent_packComponents, unpackMantissa_packComponents,
    ofBitVec_unpackSign_packComponents]
  by_cases hbits : m.log2 = 52
  · have hle := ((Nat.log2_eq_iff (Nat.ne_of_gt hm)).1 hbits).1
    have hmantissa : (1#1 ++ BitVec.ofNat 52 m).toNat = m := by
      rw [toNat_implicit_append, pow2, Nat.pow_eq, BitVec.toNat_ofNat]
      omega
    have hexponent : (BitVec.ofNat 11 (e + 1075).toNat).toNat = (e + 1075).toNat := by
      rw [BitVec.toNat_ofNat, Nat.mod_eq_of_lt (by omega)]
    rw [if_pos hbits, if_neg (by rw [← BitVec.toNat_inj, toNat_ones]; omega),
      if_neg (by rw [← BitVec.toNat_inj, BitVec.toNat_zero]; omega)]
    refine (UnpackedFloat.finite.injEq ..).mpr ⟨rfl, hmantissa, ?_⟩
    rw [hexponent]
    omega
  · have hfew : m < 2 ^ 52 := (Nat.log2_lt (Nat.ne_of_gt hm)).1 (by omega)
    have hmantissa : (BitVec.ofNat 52 m).toNat = m := by
      rw [BitVec.toNat_ofNat, Nat.mod_eq_of_lt hfew]
    rw [if_neg hbits, if_neg (by decide), if_pos rfl,
      dif_neg (by rw [← BitVec.toNat_inj, hmantissa, BitVec.toNat_zero]; omega)]
    refine (UnpackedFloat.finite.injEq ..).mpr ⟨rfl, hmantissa, ?_⟩
    rw [BitVec.toNat_zero]
    omega

/-- A number of 53 bits is packed without a change, or it is too large for a
double. -/
theorem unpack_pack_normal (hlog : m.log2 = 52) (hlow : -1074 ≤ e) :
    (Float.Model.pack (.finite s m e hm)).unpack = .infinity s ∨
      (Float.Model.pack (.finite s m e hm)).unpack = .finite s m e hm := by
  by_cases he : e ≤ 971
  · exact .inr (unpack_pack_of_canonical (by omega) hlow he fun _ => hlog)
  · left
    change unpack Format.binary64 (pack Format.binary64 _) = _
    rw [pack_of_gt (by omega), unpack_packedInfinity]

end Packing

/-- An infinity and a NaN stay what they are, so what is finite after packing
was so before. -/
theorem isFinite_of_unpack_pack (h : (Float.Model.pack u).unpack.isFinite) : u.isFinite := by
  cases u with
  | notANumber => exact absurd h (by decide)
  | infinity s =>
      cases s with
      | negative => exact absurd h (by decide)
      | positive => exact absurd h (by decide)
  | zero s => rfl
  | finite s m e hm => rfl

/-- Packing may make a finite number infinite, but never a NaN. -/
theorem isFinite_or_isInf_unpack_pack (h : u.isFinite) :
    (Float.Model.pack u).unpack.isFinite ∨ (Float.Model.pack u).unpack.isInf := by
  cases u with
  | notANumber => cases h
  | infinity s => cases h
  | zero s =>
      cases s with
      | negative => exact .inl rfl
      | positive => exact .inl rfl
  | finite s m e hm =>
      by_cases he : e ≤ 971
      · left
        have hu : UlpLe (max e (-1074)) (.finite s m e hm) := Int.le_max_left ..
        obtain ⟨s', hp⟩ | ⟨s', m', e', hm', hp, -⟩ :=
          (ulpLe_unpack_pack (by omega) (by omega) hu).elim
        · rw [hp]
          rfl
        · rw [hp]
          rfl
      · right
        change (unpack Format.binary64 (pack Format.binary64 _)).isInf
        rw [pack_of_gt (by omega), unpack_packedInfinity]
        rfl

end Unpacked

end GlutSketch
