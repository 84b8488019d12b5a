import GlutSketch.Equation.Lexer
import GlutSketch.Proofs.Text.Digits

/-!
# GlutSketch.Proofs.Equation.Lexeme

The lexical grammar of a line of plot equation, apart from any way of reading
it:

```
Lexeme   = Symbol | '**' | Decimal Exponent? | (letter | '_') (letter | digit | '_')*
Decimal  = digit+ ('.' digit*)? | '.' digit+
Exponent = ('e' | 'E') ('+' | '-')? digit+
```

`IsLexeme word kind` says that the characters `word` are a lexeme, which is a
token of the kind `kind`.  The lexer finds the longest lexeme at the front of a
text (`lexeme?_eq_some_iff`), and none exactly where none begins
(`lexeme?_eq_none_iff`).
-/

namespace GlutSketch.Equation

/-! ## The grammar -/

/-- The lexemes of one character. -/
def symbols : List (Char × TokenKind) :=
  [('+', .plus), ('-', .minus), ('−', .minus), ('*', .star), ('×', .star), ('⋅', .star),
    ('/', .slash), ('÷', .slash), ('^', .caret), ('=', .equals), ('(', .leftParen),
    (')', .rightParen), (',', .comma), ('|', .bar), ('π', .identifier "pi")]

/-- Digits with or without a point among or after them, or a point and digits:
the word, and its digits before and after the point. -/
inductive IsDecimal : List Char → List Char → List Char → Prop
  | whole {ds : List Char} (h : AreDigits ds) : IsDecimal ds ds []
  | point {ds fs : List Char} (h : AreDigits ds) (hf : ∀ c ∈ fs, c.isDigit) :
      IsDecimal (ds ++ '.' :: fs) ds fs
  | fraction {fs : List Char} (h : AreDigits fs) : IsDecimal ('.' :: fs) [] fs

/-- The sign of an exponent, true for a minus. -/
inductive IsExponentSign : List Char → Bool → Prop
  | none : IsExponentSign [] false
  | plus : IsExponentSign ['+'] false
  | minus : IsExponentSign ['-'] true

/-- An exponent and its value, which is zero if there is none. -/
inductive IsExponent : List Char → Int → Prop
  | none : IsExponent [] 0
  | some {letter : Char} {sign ds : List Char} {negative : Bool} (hl : letter = 'e' ∨ letter = 'E')
      (hs : IsExponentSign sign negative) (h : AreDigits ds) :
      IsExponent (letter :: (sign ++ ds)) (if negative then -digitsValue ds else digitsValue ds)

/-- The lexemes, and the kinds of token that they are. -/
inductive IsLexeme : List Char → TokenKind → Prop
  | symbol {c : Char} {kind : TokenKind} (h : (c, kind) ∈ symbols) : IsLexeme [c] kind
  | doubleStar : IsLexeme ['*', '*'] .caret
  | number {word whole fraction tail : List Char} {exponent : Int}
      (hd : IsDecimal word whole fraction) (he : IsExponent tail exponent) :
      IsLexeme (word ++ tail) (.number (Numeral.value ⟨whole, fraction, exponent⟩))
  | name {c : Char} {cs : List Char} (hc : isNameStart c) (hcs : ∀ d ∈ cs, isNamePart d) :
      IsLexeme (c :: cs) (.identifier (String.ofList (c :: cs)))

/-- The first `size` characters of `cs` are a lexeme, of this kind only, and no
lexeme at the front of `cs` is longer. -/
structure IsLongest (cs : List Char) (kind : TokenKind) (size : Nat) : Prop where
  lexeme_iff : ∀ kind', IsLexeme (cs.take size) kind' ↔ kind' = kind
  size_le : size ≤ cs.length
  longest : ∀ word kind', IsLexeme word kind' → word <+: cs → word.length ≤ size

/-! ## Characters -/

/-- A character that begins a numeral. -/
def IsNumeric (c : Char) : Prop := c.isDigit ∨ c = '.'

section

variable {c : Char}

/-- A character is a symbol exactly if the table says so. -/
theorem symbol?_eq_some_iff {kind : TokenKind} : symbol? c = some kind ↔ (c, kind) ∈ symbols := by
  unfold symbol?
  split <;> simp_all [symbols, eq_comm]

/-- Nothing that begins a name is a symbol. -/
theorem symbol?_of_isNameStart (h : isNameStart c) : symbol? c = none := by
  unfold symbol?
  split <;> first | rfl | exact absurd h (by decide)

/-- Nothing that begins a number is a symbol. -/
theorem symbol?_of_isNumeric (h : IsNumeric c) : symbol? c = none := by
  unfold symbol?
  split <;> first | rfl | exact absurd h (by simp [IsNumeric])

theorem isNamePart_of_isNameStart (h : isNameStart c) : isNamePart c := by
  simp only [isNameStart, isNamePart, Char.isAlphanum, Bool.or_eq_true] at h ⊢
  exact h.imp_left .inl

theorem isNamePart_of_isDigit (h : c.isDigit) : isNamePart c := by
  simp [isNamePart, Char.isAlphanum, h]

theorem isAlpha_iff : c.isAlpha ↔ 65 ≤ c.toNat ∧ c.toNat ≤ 90 ∨ 97 ≤ c.toNat ∧ c.toNat ≤ 122 := by
  change (decide (c.val ≥ 'A'.val ∧ c.val ≤ 'Z'.val) ||
    (decide (c.val ≥ 'a'.val) && decide (c.val ≤ 'z'.val))) = true ↔ _
  simp only [Bool.or_eq_true, Bool.and_eq_true, decide_eq_true_eq, ge_iff_le,
    UInt32.le_iff_toNat_le]
  rfl

theorem isDigit_iff : c.isDigit ↔ 48 ≤ c.toNat ∧ c.toNat ≤ 57 := by
  simp only [Char.isDigit, Bool.and_eq_true, decide_eq_true_eq, ge_iff_le,
    UInt32.le_iff_toNat_le]
  rfl

/-- Nothing that begins a number begins a name. -/
theorem isNameStart_of_isNumeric (h : IsNumeric c) : isNameStart c = false := by
  rcases h with h | rfl
  · rw [isDigit_iff] at h
    rw [← Bool.not_eq_true, isNameStart, Bool.or_eq_true, isAlpha_iff, beq_iff_eq]
    rintro (hletter | rfl)
    · omega
    · exact absurd h (by decide)
  · decide

end

/-! ## Splitting numerals -/

section

variable {cs ds fs tail word whole fraction : List Char} {exponent : Int}

theorem noDigit_nil : NoDigit [] := by simp [NoDigit]

/-- Digits at the front are split off, and perhaps more; what is after them is
left. -/
theorem splitDigits_of_isPrefix (hds : ∀ c ∈ ds, c.isDigit) (htail : NoDigit tail)
    (h : ds ++ tail <+: cs) :
    tail <+: (splitDigits cs).2 ∧ ds.length + (splitDigits cs).2.length ≤ cs.length := by
  obtain ⟨rest, rfl⟩ := h
  cases tail with
  | nil =>
      have hle := length_splitDigits_le rest
      rw [splitDigits, List.append_nil, List.dropWhile_append_of_pos hds]
      refine ⟨List.nil_prefix, ?_⟩
      rw [List.length_append]
      exact Nat.add_le_add_left hle _
  | cons c tail =>
      rw [List.append_assoc, splitDigits_digits_append hds (by simpa [NoDigit] using htail)]
      exact ⟨List.prefix_append .., by simp⟩

/-- Digits at the front are found. -/
theorem splitDigits_ne_nil (hds : AreDigits ds) (h : ds <+: cs) : (splitDigits cs).1 ≠ [] := by
  intro hnil
  have hle := (splitDigits_of_isPrefix hds.2 noDigit_nil (by simpa using h)).2
  have hlength := congrArg List.length (splitDigits_append cs)
  rw [List.length_append, hnil] at hlength
  have hpos := List.length_pos_iff.2 hds.1
  simp at hlength
  omega

/-- A text that goes on with no digit and no point. -/
def EndsDecimal (cs : List Char) : Prop := ∀ c ∈ cs.head?, ¬ IsNumeric c

theorem EndsDecimal.noDigit (h : EndsDecimal cs) : NoDigit cs :=
  fun c hc => by simpa using fun hdigit => h c hc (.inl hdigit)

/-- Only a point is taken off besides digits. -/
theorem splitFraction_of_endsDecimal (h : EndsDecimal cs) : splitFraction cs = ([], cs) := by
  unfold splitFraction
  split
  · exact absurd (.inr rfl) (h '.' rfl)
  · rfl

/-- A fraction is taken with its point, or nothing is. -/
theorem exists_of_splitFraction (cs : List Char) :
    (splitFraction cs = ([], cs)) ∨ ∃ fs rest, cs = '.' :: (fs ++ rest) ∧ (∀ c ∈ fs, c.isDigit) ∧
      splitFraction cs = (fs, rest) := by
  unfold splitFraction
  split
  · next cs =>
    exact .inr ⟨(splitDigits cs).1, (splitDigits cs).2, by rw [splitDigits_append],
      fun c hc => isDigit_of_mem_splitDigits hc, rfl⟩
  · exact .inl rfl

/-- A fraction at the front is taken, and what follows its digits is left. -/
theorem splitFraction_of_isPrefix (hfs : ∀ c ∈ fs, c.isDigit) (htail : NoDigit tail)
    (h : '.' :: (fs ++ tail) <+: cs) :
    tail <+: (splitFraction cs).2 ∧ fs.length + 1 + (splitFraction cs).2.length ≤ cs.length ∧
      (AreDigits fs → (splitFraction cs).1 ≠ []) := by
  obtain ⟨rest, rfl⟩ := h
  have hfraction : fs ++ tail <+: fs ++ tail ++ rest := List.prefix_append ..
  obtain ⟨hleft, hlength⟩ := splitDigits_of_isPrefix hfs htail hfraction
  refine ⟨hleft, ?_,
    fun hds => splitDigits_ne_nil hds ((List.prefix_append fs tail).trans hfraction)⟩
  rw [List.cons_append, List.length_cons]
  simp only [splitFraction]
  omega

theorem length_splitFraction_le (cs : List Char) : (splitFraction cs).2.length ≤ cs.length := by
  rcases exists_of_splitFraction cs with h | ⟨fs, rest, hcs, -, h⟩
  · simp [h]
  · rw [h, hcs]
    simp
    omega

/-- A decimal at the front is split off, and perhaps more; what is after it is
left. -/
theorem IsDecimal.split (hd : IsDecimal word whole fraction) (htail : EndsDecimal tail)
    (h : word ++ tail <+: cs) :
    tail <+: (splitFraction (splitDigits cs).2).2 ∧
      word.length + (splitFraction (splitDigits cs).2).2.length ≤ cs.length ∧
      ((splitDigits cs).1 ≠ [] ∨ (splitFraction (splitDigits cs).2).1 ≠ []) := by
  cases hd with
  | whole hds =>
      obtain ⟨hleft, hlength⟩ := splitDigits_of_isPrefix hds.2 htail.noDigit h
      have hle := length_splitFraction_le (splitDigits cs).2
      refine ⟨?_, by omega, .inl (splitDigits_ne_nil hds ((List.prefix_append word tail).trans h))⟩
      cases tail with
      | nil => exact List.nil_prefix
      | cons c tail =>
          obtain ⟨rest, hrest⟩ := hleft
          have hends : EndsDecimal (splitDigits cs).2 := by
            rw [← hrest]
            simpa [EndsDecimal] using htail
          rw [splitFraction_of_endsDecimal hends, ← hrest]
          exact List.prefix_append ..
  | @point _ fs hds hfs =>
      rw [List.append_assoc, List.cons_append] at h
      obtain ⟨hleft, hlength⟩ := splitDigits_of_isPrefix hds.2 (by simp [NoDigit]) h
      obtain ⟨hleft', hlength', -⟩ := splitFraction_of_isPrefix hfs htail.noDigit hleft
      refine ⟨hleft', ?_, .inl (splitDigits_ne_nil hds ((List.prefix_append whole _).trans h))⟩
      rw [List.length_append, List.length_cons]
      omega
  | fraction hfs =>
      have hnone : ∀ c ∈ ([] : List Char), c.isDigit := by simp
      obtain ⟨hleft, hlength⟩ := splitDigits_of_isPrefix hnone (by simp [NoDigit]) h
      obtain ⟨hleft', hlength', hne⟩ := splitFraction_of_isPrefix hfs.2 htail.noDigit hleft
      refine ⟨hleft', ?_, .inr (hne hfs)⟩
      rw [List.length_cons]
      rw [List.length_nil] at hlength
      omega

/-- A sign before digits is taken as the sign of an exponent. -/
theorem IsExponentSign.splitSign_append {sign : List Char} {negative : Bool}
    (hs : IsExponentSign sign negative) (hds : AreDigits ds) (rest : List Char) :
    splitSign (sign ++ (ds ++ rest)) = (negative, ds ++ rest) := by
  obtain ⟨d, ds', rfl⟩ := List.exists_cons_of_ne_nil hds.1
  have hd : d.isDigit := hds.2 d List.mem_cons_self
  cases hs with
  | none =>
      rw [List.nil_append, List.cons_append, splitSign]
      · rintro cs h
        obtain ⟨rfl, -⟩ := List.cons.inj h
        simp at hd
      · rintro cs h
        obtain ⟨rfl, -⟩ := List.cons.inj h
        simp at hd
  | plus => rfl
  | minus => rfl

/-- Whatever is taken as a sign is one. -/
theorem exists_of_splitSign (cs : List Char) :
    ∃ sign, cs = sign ++ (splitSign cs).2 ∧ IsExponentSign sign (splitSign cs).1 := by
  unfold splitSign
  split
  · exact ⟨['-'], rfl, .minus⟩
  · exact ⟨['+'], rfl, .plus⟩
  · exact ⟨[], rfl, .none⟩

/-- An exponent that begins with its letter and has digits is taken with all the
digits that follow. -/
theorem splitExponent_letter {letter : Char} {sign : List Char} {negative : Bool}
    (hl : letter = 'e' ∨ letter = 'E') (hs : IsExponentSign sign negative) (hds : AreDigits ds)
    (rest : List Char) :
    splitExponent (letter :: (sign ++ (ds ++ rest))) =
      (if negative then -(digitsValue (splitDigits (ds ++ rest)).1 : Int)
        else digitsValue (splitDigits (ds ++ rest)).1, (splitDigits (ds ++ rest)).2) := by
  have hne := splitDigits_ne_nil hds (List.prefix_append ds rest)
  simp only [splitExponent, if_pos hl, hs.splitSign_append hds]

/-- Whatever is taken as an exponent is one. -/
theorem exists_of_splitExponent (cs : List Char) :
    ∃ tail, cs = tail ++ (splitExponent cs).2 ∧ IsExponent tail (splitExponent cs).1 := by
  unfold splitExponent
  split
  · exact ⟨[], rfl, .none⟩
  · next letter cs =>
    split
    · next hl =>
      obtain ⟨sign, hcs, hs⟩ := exists_of_splitSign cs
      have hunsigned := splitDigits_append (splitSign cs).2
      dsimp only
      split
      · exact ⟨[], rfl, .none⟩
      · next digits rest hne heq =>
        rw [heq] at hunsigned
        have hfirst : (splitDigits (splitSign cs).2).1 = digits := congrArg Prod.fst heq
        have hds : AreDigits digits := ⟨hne, fun c hc => isDigit_of_mem_splitDigits (hfirst ▸ hc)⟩
        refine ⟨letter :: (sign ++ digits), ?_, .some hl hs hds⟩
        rw [List.cons_append, List.append_assoc, hunsigned, ← hcs]
    · exact ⟨[], rfl, .none⟩

theorem length_splitExponent_le (cs : List Char) : (splitExponent cs).2.length ≤ cs.length := by
  obtain ⟨tail, hcs, -⟩ := exists_of_splitExponent cs
  have hlength := congrArg List.length hcs
  rw [List.length_append] at hlength
  omega

/-- An exponent ends the digits before it, and is no fraction. -/
theorem IsExponent.endsDecimal (he : IsExponent tail exponent) : EndsDecimal tail := by
  cases he with
  | none => simp [EndsDecimal]
  | some hl => rcases hl with rfl | rfl <;> simp [EndsDecimal, IsNumeric]

/-- An exponent at the front is split off, and perhaps more. -/
theorem IsExponent.split (he : IsExponent tail exponent) (h : tail <+: cs) :
    tail.length + (splitExponent cs).2.length ≤ cs.length := by
  cases he with
  | none => exact (Nat.zero_add _).symm ▸ length_splitExponent_le cs
  | @some letter sign ds negative hl hs hds =>
      obtain ⟨rest, rfl⟩ := h
      have hfront : ds ++ [] <+: ds ++ rest := by simp
      have hlength := (splitDigits_of_isPrefix hds.2 noDigit_nil hfront).2
      rw [List.cons_append, List.append_assoc, splitExponent_letter hl hs hds]
      simp only [List.length_cons, List.length_append] at hlength ⊢
      omega

/-! ## Numerals -/

theorem numeral?_def (cs : List Char) :
    numeral? cs =
      if (splitDigits cs).1 = [] ∧ (splitFraction (splitDigits cs).2).1 = [] then none
      else some (⟨(splitDigits cs).1, (splitFraction (splitDigits cs).2).1,
        (splitExponent (splitFraction (splitDigits cs).2).2).1⟩,
        (splitExponent (splitFraction (splitDigits cs).2).2).2) := rfl

/-- The digits and the point that are split off are a decimal, if there is a
digit at all. -/
theorem exists_of_splitFraction_splitDigits (cs : List Char)
    (hne : ¬ ((splitDigits cs).1 = [] ∧ (splitFraction (splitDigits cs).2).1 = [])) :
    ∃ word, cs = word ++ (splitFraction (splitDigits cs).2).2 ∧
      IsDecimal word (splitDigits cs).1 (splitFraction (splitDigits cs).2).1 := by
  have hcs := splitDigits_append cs
  have hdigits : ∀ c ∈ (splitDigits cs).1, c.isDigit := fun c => isDigit_of_mem_splitDigits
  rcases exists_of_splitFraction (splitDigits cs).2 with h | ⟨fs, rest, hafter, hfs, h⟩
  · rw [h] at hne ⊢
    have hds : AreDigits (splitDigits cs).1 := ⟨fun hnil => hne ⟨hnil, rfl⟩, hdigits⟩
    exact ⟨_, hcs.symm, .whole hds⟩
  · rw [h] at hne ⊢
    rw [hafter] at hcs
    by_cases hnil : (splitDigits cs).1 = []
    · rw [hnil] at hne hcs ⊢
      exact ⟨'.' :: fs, hcs.symm, .fraction ⟨fun hfs => hne ⟨rfl, hfs⟩, hfs⟩⟩
    · refine ⟨(splitDigits cs).1 ++ '.' :: fs, ?_, .point ⟨hnil, hdigits⟩ hfs⟩
      rw [List.append_assoc]
      exact hcs.symm

/-- Whatever is read as a numeral is a decimal number and an exponent. -/
theorem exists_of_numeral? {n : Numeral} {rest : List Char} (h : numeral? cs = some (n, rest)) :
    ∃ word tail, cs = word ++ tail ++ rest ∧ IsDecimal word n.whole n.fraction ∧
      IsExponent tail n.exponent := by
  rw [numeral?_def] at h
  split at h
  · cases h
  · next hne =>
    simp only [Option.some.injEq, Prod.mk.injEq] at h
    obtain ⟨rfl, rfl⟩ := h
    obtain ⟨word, hword, hd⟩ := exists_of_splitFraction_splitDigits cs hne
    obtain ⟨tail, htail, he⟩ := exists_of_splitExponent (splitFraction (splitDigits cs).2).2
    exact ⟨word, tail, by rw [List.append_assoc, ← htail, ← hword], hd, he⟩

/-- A numeral at the front is read, and perhaps more. -/
theorem numeral?_of_isPrefix (hd : IsDecimal word whole fraction) (he : IsExponent tail exponent)
    (h : word ++ tail <+: cs) :
    ∃ n rest, numeral? cs = some (n, rest) ∧ (word ++ tail).length + rest.length ≤ cs.length := by
  obtain ⟨hleft, hlength, hne⟩ := hd.split he.endsDecimal h
  have hlength' := he.split hleft
  rw [numeral?_def, if_neg fun hnil => hne.elim (absurd hnil.1) (absurd hnil.2)]
  refine ⟨_, _, rfl, ?_⟩
  rw [List.length_append]
  omega

/-- A decimal number is split at its point if nothing after it belongs to it. -/
theorem IsDecimal.splitFraction_splitDigits (hd : IsDecimal word whole fraction)
    (htail : EndsDecimal tail) :
    (splitDigits (word ++ tail)).1 = whole ∧
      splitFraction (splitDigits (word ++ tail)).2 = (fraction, tail) := by
  cases hd with
  | whole hds =>
      rw [splitDigits_digits_append hds.2 htail.noDigit]
      exact ⟨rfl, splitFraction_of_endsDecimal htail⟩
  | @point _ fs hds hfs =>
      rw [List.append_assoc, splitDigits_digits_append hds.2 (by simp [NoDigit])]
      exact ⟨rfl, splitDigits_digits_append hfs htail.noDigit⟩
  | fraction hfs =>
      exact ⟨rfl, splitDigits_digits_append hfs.2 htail.noDigit⟩

/-- An exponent is taken as a whole. -/
theorem IsExponent.splitExponent_eq (he : IsExponent tail exponent) :
    splitExponent tail = (exponent, []) := by
  cases he with
  | none => rfl
  | @some letter sign ds negative hl hs hds =>
      have hsplit : splitDigits (ds ++ []) = (ds, []) :=
        splitDigits_digits_append hds.2 (by simp [NoDigit])
      have heq := splitExponent_letter hl hs hds []
      rwa [hsplit, List.append_nil] at heq

/-- A numeral that is the whole text is read as itself. -/
theorem numeral?_eq (hd : IsDecimal word whole fraction) (he : IsExponent tail exponent) :
    numeral? (word ++ tail) = some (⟨whole, fraction, exponent⟩, []) := by
  obtain ⟨hwhole, hfraction⟩ := hd.splitFraction_splitDigits he.endsDecimal
  have hne : ¬ (whole = [] ∧ fraction = []) := by
    rintro ⟨rfl, rfl⟩
    cases hd with
    | whole hds => exact hds.1 rfl
    | point hds => exact hds.1 rfl
    | fraction hfs => exact hfs.1 rfl
  rw [numeral?_def, hwhole, hfraction, he.splitExponent_eq, if_neg hne]

end

/-! ## Lexemes -/

section

variable {cs word : List Char} {kind : TokenKind} {size : Nat}

/-- A symbol is a lexeme of its own, except where a second star makes a
power. -/
theorem lexeme?_of_symbol {c : Char} {rest : List Char} (h : symbol? c = some kind)
    (hstar : ∀ rest', c = '*' → rest = '*' :: rest' → False) :
    lexeme? (c :: rest) = some (kind, 1) := by
  rw [lexeme?.eq_3 c rest hstar, h]

/-- A name goes on as long as its characters do. -/
theorem lexeme?_of_isNameStart {c : Char} {rest : List Char} (h : isNameStart c) :
    lexeme? (c :: rest) = some (.identifier (String.ofList (c :: rest.takeWhile isNamePart)),
      (c :: rest.takeWhile isNamePart).length) := by
  rw [lexeme?.eq_3 c rest (by rintro _ rfl; exact absurd h (by decide)), symbol?_of_isNameStart h]
  exact if_pos h

/-- A number is as long as the numeral at the front. -/
theorem lexeme?_of_isNumeric {c : Char} {rest : List Char} (h : IsNumeric c) :
    lexeme? (c :: rest) = (numeral? (c :: rest)).map fun (n, after) =>
      (.number n.value, (c :: rest).length - after.length) := by
  have hname : ¬ isNameStart c := by simp [isNameStart_of_isNumeric h]
  rw [lexeme?.eq_3 c rest (by rintro _ rfl; simp [IsNumeric] at h), symbol?_of_isNumeric h]
  exact if_neg hname

/-- A numeral begins with a digit or a point. -/
theorem IsDecimal.exists_cons {whole fraction : List Char} (hd : IsDecimal word whole fraction) :
    ∃ c rest, word = c :: rest ∧ IsNumeric c := by
  cases hd with
  | whole hds =>
      obtain ⟨d, ds, rfl⟩ := List.exists_cons_of_ne_nil hds.1
      exact ⟨d, ds, rfl, .inl (hds.2 d List.mem_cons_self)⟩
  | point hds =>
      obtain ⟨d, ds, rfl⟩ := List.exists_cons_of_ne_nil hds.1
      exact ⟨d, _, rfl, .inl (hds.2 d List.mem_cons_self)⟩
  | fraction hfs => exact ⟨'.', _, rfl, .inr rfl⟩

/-- What is found at the front is a lexeme. -/
theorem exists_of_lexeme? (h : lexeme? cs = some (kind, size)) :
    ∃ word rest, cs = word ++ rest ∧ IsLexeme word kind ∧ word.length = size := by
  unfold lexeme? at h
  split at h
  · cases h
  · next rest =>
    cases h
    exact ⟨['*', '*'], rest, rfl, .doubleStar, rfl⟩
  · next c rest _ =>
    split at h
    · next kind' hsymbol =>
      cases h
      exact ⟨[c], rest, rfl, .symbol (symbol?_eq_some_iff.1 hsymbol), rfl⟩
    · split at h
      · next hname =>
        cases h
        have hparts : ∀ d ∈ rest.takeWhile isNamePart, isNamePart d :=
          List.all_eq_true.1 List.all_takeWhile
        refine ⟨c :: rest.takeWhile isNamePart, rest.dropWhile isNamePart, ?_,
          .name hname hparts, rfl⟩
        rw [List.cons_append, List.takeWhile_append_dropWhile]
      · obtain ⟨⟨n, after⟩, hnumeral, heq⟩ := Option.map_eq_some_iff.1 h
        cases heq
        obtain ⟨word, tail, hcs, hd, he⟩ := exists_of_numeral? hnumeral
        refine ⟨word ++ tail, after, hcs, .number hd he, ?_⟩
        have hlength := congrArg List.length hcs
        rw [List.length_append] at hlength
        omega

/-- Wherever a lexeme begins, one is found that is at least as long. -/
theorem IsLexeme.exists_lexeme? (h : IsLexeme word kind) (hfront : word <+: cs) :
    ∃ kind' size, lexeme? cs = some (kind', size) ∧ word.length ≤ size := by
  obtain ⟨rest, rfl⟩ := hfront
  cases h with
  | @symbol c _ h =>
      have hsymbol := symbol?_eq_some_iff.2 h
      by_cases hstar : ∃ rest', c = '*' ∧ rest = '*' :: rest'
      · obtain ⟨rest', rfl, rfl⟩ := hstar
        exact ⟨.caret, 2, rfl, Nat.le_succ 1⟩
      · exact ⟨kind, 1, lexeme?_of_symbol hsymbol fun rest' hc hr => hstar ⟨rest', hc, hr⟩,
          Nat.le_refl 1⟩
  | doubleStar => exact ⟨.caret, 2, rfl, Nat.le_refl 2⟩
  | @number word whole fraction tail exponent hd he =>
      obtain ⟨n, after, hnumeral, hlength⟩ :=
        numeral?_of_isPrefix hd he (List.prefix_append (word ++ tail) rest)
      obtain ⟨c, more, rfl, hc⟩ := hd.exists_cons
      refine ⟨.number n.value, _, ?_, Nat.le_sub_of_add_le hlength⟩
      rw [List.cons_append, List.cons_append] at hnumeral ⊢
      rw [lexeme?_of_isNumeric hc, hnumeral]
      rfl
  | @name c parts hc hparts =>
      rw [List.cons_append]
      refine ⟨_, _, lexeme?_of_isNameStart hc, ?_⟩
      rw [List.takeWhile_append_of_pos hparts, ← List.cons_append, List.length_append]
      exact Nat.le_add_right ..

/-- What is cut out as a numeral is one when it is read on its own. -/
theorem IsLexeme.number?_eq {x : Float} (h : IsLexeme word (.number x)) :
    number? word = some x := by
  cases h with
  | symbol h => simp [symbols] at h
  | number hd he => rw [number?, numeral?_eq hd he]

/-- A lexeme that is the whole text is found as itself. -/
theorem IsLexeme.lexeme?_eq (h : IsLexeme word kind) : lexeme? word = some (kind, word.length) := by
  cases h with
  | symbol h => exact lexeme?_of_symbol (symbol?_eq_some_iff.2 h) (by simp)
  | doubleStar => rfl
  | number hd he =>
      have hnumeral := numeral?_eq hd he
      obtain ⟨c, more, rfl, hc⟩ := hd.exists_cons
      rw [List.cons_append] at hnumeral ⊢
      rw [lexeme?_of_isNumeric hc, hnumeral]
      rfl
  | @name c parts hc hparts =>
      have hall : (parts ++ []).takeWhile isNamePart = parts ++ [].takeWhile isNamePart :=
        List.takeWhile_append_of_pos hparts
      rw [List.append_nil, List.takeWhile_nil, List.append_nil] at hall
      rw [lexeme?_of_isNameStart hc, hall]

/-- The characters of a lexeme decide what kind of token it is. -/
theorem IsLexeme.iff {kind' : TokenKind} (h : IsLexeme word kind) :
    IsLexeme word kind' ↔ kind' = kind := by
  refine ⟨fun h' => ?_, fun heq => heq ▸ h⟩
  have heq := h'.lexeme?_eq.symm.trans h.lexeme?_eq
  simpa using heq

theorem IsLongest.lexeme (h : IsLongest cs kind size) : IsLexeme (cs.take size) kind :=
  (h.lexeme_iff kind).2 rfl

/-- No lexeme is empty. -/
theorem IsLexeme.length_pos (h : IsLexeme word kind) : 0 < word.length := by
  refine List.length_pos_iff.2 ?_
  rintro rfl
  cases h.lexeme?_eq

/-- A lexeme has at least one character, and no more than there are. -/
theorem size_of_lexeme? (h : lexeme? cs = some (kind, size)) : 0 < size ∧ size ≤ cs.length := by
  obtain ⟨word, rest, rfl, hword, rfl⟩ := exists_of_lexeme? h
  exact ⟨hword.length_pos, by simp⟩

/-- **Longest lexeme**: the lexer finds the longest lexeme at the front of a
text. -/
theorem lexeme?_eq_some_iff : lexeme? cs = some (kind, size) ↔ IsLongest cs kind size := by
  constructor
  · intro h
    obtain ⟨word, rest, rfl, hword, rfl⟩ := exists_of_lexeme? h
    refine ⟨fun kind' => by rw [List.take_left, hword.iff], by simp, ?_⟩
    intro word' kind' hword' hfront
    obtain ⟨_, _, h', hle⟩ := hword'.exists_lexeme? hfront
    rw [h] at h'
    cases h'
    exact hle
  · intro h
    obtain ⟨kind', size', h', hle⟩ := h.lexeme.exists_lexeme? (List.take_prefix size cs)
    rw [List.length_take, Nat.min_eq_left h.size_le] at hle
    obtain ⟨word, rest, rfl, hword, rfl⟩ := exists_of_lexeme? h'
    obtain rfl : word.length = size :=
      Nat.le_antisymm (h.longest word kind' hword (List.prefix_append ..)) hle
    have hkind := (h.lexeme_iff kind').1 (by rwa [List.take_left])
    rw [h', hkind]

/-- None is found exactly where none begins. -/
theorem lexeme?_eq_none_iff :
    lexeme? cs = none ↔ ∀ word kind, IsLexeme word kind → ¬ word <+: cs := by
  constructor
  · intro h word kind hword hfront
    obtain ⟨_, _, h', -⟩ := hword.exists_lexeme? hfront
    rw [h] at h'
    cases h'
  · intro h
    cases h' : lexeme? cs with
    | none => rfl
    | some found =>
        obtain ⟨word, rest, rfl, hword, -⟩ := exists_of_lexeme? h'
        exact absurd (List.prefix_append ..) (h word _ hword)

end

/-! ## White space -/

section

variable {c : Char} {word : List Char} {kind : TokenKind}

/-- White space lies below the visible characters of ASCII or above them. -/
theorem toNat_of_isWhiteSpace (h : isWhiteSpace c) : c.toNat ≤ 32 ∨ 133 ≤ c.toNat := by
  simp only [isWhiteSpace, whiteSpaceRanges, List.any_cons, List.any_nil, Bool.or_eq_true,
    Bool.and_eq_true, decide_eq_true_eq] at h
  grind

/-- No part of a name is white space. -/
theorem isWhiteSpace_of_isNamePart (h : isNamePart c) : isWhiteSpace c = false := by
  rw [← Bool.not_eq_true]
  intro hspace
  have hrange := toNat_of_isWhiteSpace hspace
  simp only [isNamePart, Char.isAlphanum, Bool.or_eq_true, isAlpha_iff, isDigit_iff,
    beq_iff_eq] at h
  rcases h with h | rfl
  · omega
  · exact absurd hrange (by decide)

theorem isWhiteSpace_of_isDigit (h : c.isDigit) : isWhiteSpace c = false :=
  isWhiteSpace_of_isNamePart (isNamePart_of_isDigit h)

theorem IsDecimal.isWhiteSpace_eq_false {whole fraction : List Char}
    (hd : IsDecimal word whole fraction) : ∀ d ∈ word, isWhiteSpace d = false := by
  have point : isWhiteSpace '.' = false := by decide
  cases hd with
  | whole hds => exact fun d hd => isWhiteSpace_of_isDigit (hds.2 d hd)
  | point hds hfs =>
      simp only [List.mem_append, List.mem_cons]
      rintro d (hd | rfl | hd)
      · exact isWhiteSpace_of_isDigit (hds.2 d hd)
      · exact point
      · exact isWhiteSpace_of_isDigit (hfs d hd)
  | fraction hfs =>
      simp only [List.mem_cons]
      rintro d (rfl | hd)
      · exact point
      · exact isWhiteSpace_of_isDigit (hfs.2 d hd)

theorem IsExponent.isWhiteSpace_eq_false {exponent : Int} (he : IsExponent word exponent) :
    ∀ d ∈ word, isWhiteSpace d = false := by
  cases he with
  | none => simp
  | @some letter sign ds negative hl hs hds =>
      have hsign : ∀ d ∈ sign, isWhiteSpace d = false := by
        cases hs <;> simp <;> decide
      simp only [List.mem_cons, List.mem_append]
      rintro d (rfl | hd | hd)
      · rcases hl with rfl | rfl <;> decide
      · exact hsign d hd
      · exact isWhiteSpace_of_isDigit (hds.2 d hd)

/-- No character of a lexeme is white space. -/
theorem IsLexeme.isWhiteSpace_eq_false (h : IsLexeme word kind) :
    ∀ d ∈ word, isWhiteSpace d = false := by
  cases h with
  | @symbol c _ h =>
      have hall : ∀ s ∈ symbols, isWhiteSpace s.1 = false := by decide
      intro d hd
      rw [List.mem_singleton.1 hd]
      exact hall _ h
  | doubleStar => simp; decide
  | number hd he =>
      intro d hmem
      exact (List.mem_append.1 hmem).elim (hd.isWhiteSpace_eq_false d) (he.isWhiteSpace_eq_false d)
  | name hc hcs =>
      simp only [List.mem_cons]
      rintro d (rfl | hd)
      · exact isWhiteSpace_of_isNamePart (isNamePart_of_isNameStart hc)
      · exact isWhiteSpace_of_isNamePart (hcs d hd)

end

end GlutSketch.Equation
