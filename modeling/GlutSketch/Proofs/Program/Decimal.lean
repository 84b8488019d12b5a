import Mathlib
import GlutSketch.Proofs.Numeric.Correct
import GlutSketch.Proofs.Program.Number

/-!
# GlutSketch.Proofs.Program.Decimal

Which number a literal of a program spells.

* `Spells` -- the text is a decimal with a given number of places.
* `Spells.unique` -- a text spells one number only.
* `spells_fixedText` -- a double is spelled as the nearest number of units, ties
  to even.
-/

namespace GlutSketch

/-! ## Digits in place -/

/-- The text is the decimal for `n` units of the last of `places` places: a
minus sign if `n` is negative, digits without a zero in front (but a zero for
nothing), a point, exactly `places` digits, and an `f`. -/
def Spells (places : ℕ) (n : ℤ) (text : String) : Prop :=
  ∃ whole fraction, AreDigits whole ∧ (whole.head? = some '0' → whole = ['0']) ∧
    (∀ c ∈ fraction, c.isDigit) ∧ fraction.length = places ∧
    digitsValue (whole ++ fraction) = n.natAbs ∧
    text.toList = (if n < 0 then ['-'] else []) ++ (whole ++ '.' :: fraction ++ ['f'])

/-- The digits of `units` with zeros in front, so many that one digit is left
for the whole part. -/
def paddedDigits (units places : ℕ) : List Char :=
  List.replicate (places + 1 - (decimalDigits units).length) '0' ++ decimalDigits units

section Padded

variable {units places : ℕ}

theorem isDigit_of_mem_paddedDigits {c : Char} (h : c ∈ paddedDigits units places) : c.isDigit :=
  isDigit_of_mem_padded (areDigits_decimalDigits units).2 c h

/-- Zeros in front do not change a value. -/
theorem digitsValue_paddedDigits : digitsValue (paddedDigits units places) = units := by
  rw [paddedDigits, digitsValue_zeros_append, digitsValue_decimalDigits]

/-- There is a digit before the point. -/
theorem lt_length_paddedDigits : places < (paddedDigits units places).length := by
  rw [paddedDigits, List.length_append, List.length_replicate]
  omega

/-- A zero in front is all of the whole part. -/
theorem length_paddedDigits_of_head? (h : (paddedDigits units places).head? = some '0') :
    (paddedDigits units places).length = places + 1 := by
  by_contra hlong
  rw [paddedDigits, List.length_append, List.length_replicate] at hlong
  rw [paddedDigits, show places + 1 - (decimalDigits units).length = 0 by omega] at h
  -- a zero is in front of the digits of zero only, and that is one digit
  obtain ⟨ds, hds⟩ := List.head?_eq_some_iff.1 h
  obtain rfl := decimalDigits_cons_zero hds
  rw [show (decimalDigits 0).length = 1 by decide] at hlong
  omega

/-- The point stands before the last digits. -/
theorem fixedDigits_eq (h : 0 < places) : fixedDigits units places =
    (paddedDigits units places).take ((paddedDigits units places).length - places) ++
      '.' :: (paddedDigits units places).drop ((paddedDigits units places).length - places) :=
  if_neg h.ne'

end Padded

/-- Where the point is put: no zero stands in front of the whole part but one
that is all of it. -/
theorem exists_fixedDigits (units : ℕ) {places : ℕ} (h : 0 < places) :
    ∃ whole fraction, AreDigits whole ∧ (whole.head? = some '0' → whole = ['0']) ∧
      (∀ c ∈ fraction, c.isDigit) ∧ fraction.length = places ∧
      digitsValue (whole ++ fraction) = units ∧
      fixedDigits units places = whole ++ '.' :: fraction := by
  have hlength := @lt_length_paddedDigits units places
  refine ⟨_, _, areDigits_of_subset (fun c => isDigit_of_mem_paddedDigits) (List.take_subset _ _)
    ?_, fun hzero => ?_, fun c hc => isDigit_of_mem_paddedDigits (List.drop_subset _ _ hc), ?_, ?_,
    fixedDigits_eq h⟩
  · rw [List.length_take]
    omega
  · rw [List.head?_take, if_neg (by omega)] at hzero
    rw [length_paddedDigits_of_head? hzero, Nat.add_sub_cancel_left]
    obtain ⟨ds, hds⟩ := List.head?_eq_some_iff.1 hzero
    rw [hds]
    rfl
  · rw [List.length_drop]
    omega
  · rw [List.take_append_drop, digitsValue_paddedDigits]

/-- A number with digits in front has no sign there. -/
theorem AreDigits.head?_append_ne {ds : List Char} (h : AreDigits ds) (rest : List Char) :
    (ds ++ rest).head? ≠ some '-' := by
  obtain ⟨c, cs, rfl⟩ := List.exists_cons_of_ne_nil h.1
  intro hhead
  obtain rfl : c = '-' := by simpa using hhead
  exact absurd (h.2 '-' (List.mem_cons_self ..)) (by decide)

/-- The point separates the two parts of a number. -/
theorem AreDigits.append_point_inj {ds ds' fs fs' : List Char} (h : AreDigits ds)
    (h' : AreDigits ds') (heq : ds ++ '.' :: fs = ds' ++ '.' :: fs') : ds = ds' ∧ fs = fs' := by
  have hpoint : ∀ cs, NoDigit ('.' :: cs) := by
    rintro cs c hc
    obtain rfl : '.' = c := by simpa using hc
    rfl
  have hsplit := congrArg splitDigits heq
  rw [splitDigits_digits_append h.2 (hpoint _), splitDigits_digits_append h'.2 (hpoint _)] at hsplit
  simpa using hsplit

/-- A text spells one number only. -/
theorem Spells.unique {places : ℕ} {n i : ℤ} {text : String} (hn : Spells places n text)
    (hi : Spells places i text) : n = i := by
  obtain ⟨whole, fraction, hwhole, -, -, -, hvalue, htext⟩ := hn
  obtain ⟨whole', fraction', hwhole', -, -, -, hvalue', htext'⟩ := hi
  rw [htext] at htext'
  by_cases hneg : n < 0 ↔ i < 0
  · simp only [hneg, List.append_right_inj, List.append_left_inj] at htext'
    obtain ⟨rfl, rfl⟩ := hwhole.append_point_inj hwhole' htext'
    omega
  · exfalso
    by_cases hn : n < 0
    · rw [if_pos hn, if_neg (by omega), List.nil_append, List.append_assoc whole'] at htext'
      exact hwhole'.head?_append_ne _ (by rw [← htext']; rfl)
    · rw [if_neg hn, if_pos (by omega), List.nil_append, List.append_assoc whole] at htext'
      exact hwhole.head?_append_ne _ (by rw [htext']; rfl)

/-- What spells a decimal is a literal. -/
theorem Spells.isLiteral {places : ℕ} {n : ℤ} {text : String} (h : Spells places n text)
    (hplaces : 0 < places) : IsLiteral text := by
  obtain ⟨whole, fraction, hwhole, -, hfraction, hlength, -, htext⟩ := h
  have hdigits : AreDigits fraction :=
    ⟨List.ne_nil_of_length_pos (hlength ▸ hplaces), hfraction⟩
  refine ⟨_, ⟨whole, fraction, hwhole, hdigits, rfl⟩, ?_⟩
  rw [htext]
  split
  · exact .inr rfl
  · exact .inl rfl

/-! ## Doubles -/

/-- The number of units of a finite double is the nearest one, ties to even. -/
theorem Magnitude.isRounded_units (m : Magnitude) (places : ℕ) :
    IsRounded .toEven (m.value * 10 ^ places) (m.units places) := by
  have h := isRounded_roundDiv (m.numerator * pow10 places) m.denominator_pos .toEven
  rw [m.value_eq_div, div_mul_eq_mul_div]
  exact_mod_cast h

/-- A double is spelled by its units; the sign of a zero would not belong
there. -/
theorem spells_fixedText {x : Float} {negative : Bool} {m : Magnitude}
    (h : Binary64.ofFloat x = .finite negative m) {places : ℕ} (hplaces : 0 < places)
    (hsign : negative → m.units places ≠ 0) :
    Spells places (if negative then -(m.units places : ℤ) else m.units places)
      (fixedText places x ++ "f") := by
  obtain ⟨whole, fraction, hwhole, hzero, hfraction, hlength, hvalue, hfixed⟩ :=
    exists_fixedDigits (m.units places) hplaces
  refine ⟨whole, fraction, hwhole, hzero, hfraction, hlength, ?_, ?_⟩
  · rw [hvalue]
    cases negative <;> simp
  · rw [String.toList_append, fixedText_finite h, hfixed]
    cases negative with
    | false => simp
    | true =>
        have hpos := Nat.pos_of_ne_zero (hsign rfl)
        simp [hpos]

/-- A normal double that does not vanish in its places is spelled with its
sign. -/
theorem Real64.IsNormal.exists_spells {s : Float.Model.UnpackedFloat.Sign} {q : ℚ} {x : Float}
    (h : Real64.IsNormal s q x) {places : ℕ} (hplaces : 0 < places)
    (hq : 1 / 2 < q * 10 ^ places) :
    ∃ u : ℤ, IsRounded .toEven (q * 10 ^ places) u ∧
      Spells places (if s == .negative then -u else u) (fixedText places x ++ "f") := by
  obtain ⟨m, hm, rfl⟩ := h.ofFloat
  have hunits := m.isRounded_units places
  have hpos : (0 : ℚ) < m.units places := by
    have hnear := abs_le.1 hunits.near
    rw [Int.cast_natCast] at hnear
    linarith
  exact ⟨m.units places, hunits, spells_fixedText hm hplaces fun _ => by exact_mod_cast hpos.ne'⟩

end GlutSketch
