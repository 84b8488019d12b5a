import GlutSketch.Program.Text
import GlutSketch.Proofs.Text.Digits

/-!
# GlutSketch.Proofs.Program.Number

What the numbers of a program look like.  A finite number is written as digits,
a point and digits; an infinity or a NaN is written as letters.  Either way the
text is a single word, so that a line can be split at its commas and brackets
again.

* `IsLiteral` -- an optional minus sign, digits, a point, digits, and an `f`.
* `IsWord` -- letters, digits, points, signs and underscores only.
* `fixed3_isWord`, `penText_isWord` -- every number of a program is a word.
-/

namespace GlutSketch

/-! ## Literals -/

/-- Digits, a point and digits. -/
def IsFixed (cs : List Char) : Prop :=
  ∃ whole fraction, AreDigits whole ∧ AreDigits fraction ∧ cs = whole ++ '.' :: fraction

/-- With places after the point there is a digit on both sides of it. -/
theorem isFixed_fixedDigits (units : Nat) {places : Nat} (h : 0 < places) :
    IsFixed (fixedDigits units places) := by
  have hdigits := isDigit_of_mem_padded (k := places + 1 - (decimalDigits units).length)
    (areDigits_decimalDigits units).2
  have hlen : places + 1 ≤ (List.replicate (places + 1 - (decimalDigits units).length) '0' ++
      decimalDigits units).length := by
    rw [List.length_append, List.length_replicate]
    omega
  simp only [fixedDigits]
  rw [if_neg (by omega)]
  generalize List.replicate (places + 1 - (decimalDigits units).length) '0' ++
    decimalDigits units = padded at hdigits hlen
  refine ⟨_, _, areDigits_of_subset hdigits (List.take_subset _ _) ?_,
    areDigits_of_subset hdigits (List.drop_subset _ _) ?_, rfl⟩
  · rw [List.length_take]
    omega
  · rw [List.length_drop]
    omega

/-- A finite number as a program spells it: an optional minus sign, digits, a
point, digits, and an `f`. -/
def IsLiteral (text : String) : Prop :=
  ∃ cs, IsFixed cs ∧ (text.toList = cs ++ ['f'] ∨ text.toList = '-' :: cs ++ ['f'])

/-- Every literal has a point; the spellings of the infinities and of NaN have
none. -/
theorem IsLiteral.point_mem {text : String} (h : IsLiteral text) : '.' ∈ text.toList := by
  obtain ⟨cs, ⟨whole, fraction, -, -, rfl⟩, htext | htext⟩ := h
  · rw [htext]
    simp
  · rw [htext]
    simp

/-- A text with a sign or without one, and the fixed digits of a magnitude. -/
theorem fixedText_finite {x : Float} {negative : Bool} {m : Magnitude}
    (h : Binary64.ofFloat x = .finite negative m) (places : Nat) :
    (fixedText places x).toList =
      if negative then '-' :: fixedDigits (m.units places) places
      else fixedDigits (m.units places) places := by
  simp only [fixedText, signedText, h, String.toList_ofList]

/-- A finite double with places after the point and an `f` is a literal. -/
theorem fixedText_isLiteral {x : Float} {negative : Bool} {m : Magnitude}
    (h : Binary64.ofFloat x = .finite negative m) {places : Nat} (hplaces : 0 < places) :
    IsLiteral (fixedText places x ++ "f") := by
  refine ⟨_, isFixed_fixedDigits (m.units places) hplaces, ?_⟩
  rw [String.toList_append, fixedText_finite h]
  cases negative with
  | false => exact .inl rfl
  | true => exact .inr rfl

/-- What is not finite is written without a point. -/
theorem fixedText_not_finite {x : Float}
    (h : ∀ negative m, Binary64.ofFloat x ≠ .finite negative m) (places : Nat) :
    fixedText places x = "NaN" ∨ fixedText places x = "inf" ∨ fixedText places x = "-inf" := by
  cases hx : Binary64.ofFloat x with
  | nan => exact .inl (by simp only [fixedText, signedText, hx])
  | infinite negative =>
      cases negative with
      | false => exact .inr (.inl (by simp [fixedText, signedText, hx]))
      | true => exact .inr (.inr (by simp [fixedText, signedText, hx]))
  | finite negative m => exact absurd hx (h negative m)

/-! ## Words -/

/-- A character of a name or of a number. -/
def isWordChar (c : Char) : Bool := c.isAlphanum || c = '_' || c = '.' || c = '-'

/-- A name or a number: no blank, comma, bracket or line end. -/
def IsWord (cs : List Char) : Prop := cs ≠ [] ∧ ∀ c ∈ cs, isWordChar c

instance (cs : List Char) : Decidable (IsWord cs) :=
  decidable_of_iff ((!cs.isEmpty && cs.all isWordChar) = true) (by simp [IsWord])

theorem isWordChar_of_isDigit {c : Char} (h : c.isDigit) : isWordChar c := by
  simp [isWordChar, Char.isAlphanum, h]

theorem IsWord.append {cs ds : List Char} (hcs : IsWord cs) (hds : IsWord ds) :
    IsWord (cs ++ ds) := by
  refine ⟨by simp [hcs.1], ?_⟩
  intro c hc
  cases List.mem_append.1 hc with
  | inl h => exact hcs.2 c h
  | inr h => exact hds.2 c h

/-- Digits are characters of a word. -/
theorem AreDigits.isWord {cs : List Char} (h : AreDigits cs) : IsWord cs :=
  ⟨h.1, fun c hc => isWordChar_of_isDigit (h.2 c hc)⟩

theorem IsFixed.isWord {cs : List Char} (h : IsFixed cs) : IsWord cs := by
  obtain ⟨whole, fraction, hwhole, hfraction, rfl⟩ := h
  have hpoint : IsWord ['.'] := by decide
  exact hwhole.isWord.append (hpoint.append hfraction.isWord)

/-- A literal has no comma, no parenthesis and no blank in it. -/
theorem IsLiteral.isWord {text : String} (h : IsLiteral text) : IsWord text.toList := by
  have hsuffix : IsWord ['f'] := by decide
  have hsign : IsWord ['-'] := by decide
  obtain ⟨cs, hcs, htext | htext⟩ := h
  · rw [htext]
    exact hcs.isWord.append hsuffix
  · rw [htext]
    exact (hsign.append hcs.isWord).append hsuffix

/-- A double with places after the point and an `f` is a word, finite or not. -/
theorem fixedText_isWord (x : Float) {places : Nat} (hplaces : 0 < places) :
    IsWord (fixedText places x ++ "f").toList := by
  by_cases hfinite : ∃ negative m, Binary64.ofFloat x = .finite negative m
  · obtain ⟨negative, m, hx⟩ := hfinite
    exact (fixedText_isLiteral hx hplaces).isWord
  · have hx : ∀ negative m, Binary64.ofFloat x ≠ .finite negative m :=
      fun negative m h => hfinite ⟨negative, m, h⟩
    obtain h | h | h := fixedText_not_finite hx places
    · rw [h]
      decide
    · rw [h]
      decide
    · rw [h]
      decide

namespace Program

/-- A coordinate is one word, finite or not. -/
theorem fixed3_isWord (v : Float) : IsWord (fixed3 v).toList := by
  unfold fixed3
  split
  · decide
  · split
    · exact fixedText_isWord _ (by decide)
    · exact fixedText_isWord _ (by decide)

theorem penText_isWord (v : Float) : IsWord (penText v).toList :=
  fixedText_isWord v (by decide)

end Program

end GlutSketch
