import GlutSketch.Json.Printer
import GlutSketch.Json.Reader
import GlutSketch.Proofs.Text.Digits

/-!
# GlutSketch.Proofs.Json.Scalar

Scalars that are written are read back: a string is scanned as its characters,
and a number as its spelling, whatever follows it.

* `unitOf` -- the unit as which a written character is read.
* `scan?_quote` -- strings.
* `Number.IsSpelled` -- digits without a useless zero in front.
* `scan?_text` -- numbers.
-/

namespace GlutSketch.Json

/-! ## Strings -/

/-- The unit as which a written character is read: a control character without a
letter of its own is written by its code. -/
def unitOf (c : Char) : StringUnit :=
  if c.toNat < 0x20 ∧ c ∉ ['\x08', '\x0c', '\n', '\r', '\t'] then .code c.toNat else .char c

/-- The four digits of a control character. -/
theorem hexDigitsValue?_control : ∀ n < 0x20,
    hexDigitsValue? ['0', '0', hexDigit (n / 16), hexDigit (n % 16)] = some n := by
  decide

theorem stringUnits?_of_plain {c : Char} (hquote : c ≠ '"') (hslash : c ≠ '\\')
    (hcontrol : ¬ c.toNat < 0x20) (rest : List Char) :
    stringUnits? (c :: rest) =
      (stringUnits? rest).map fun (units, after) => (.char c :: units, after) := by
  rw [stringUnits?]
  · rw [if_neg (by simp [hcontrol, hslash])]
  · exact hquote
  · intro a b c' d rest' hc
    exact absurd hc hslash
  · intro e rest' hc
    exact absurd hc hslash

/-- A written character is read as its unit. -/
theorem stringUnits?_escape (c : Char) (rest : List Char) :
    stringUnits? (escape c ++ rest) =
      (stringUnits? rest).map fun (units, after) => (unitOf c :: units, after) := by
  unfold escape
  split
  · rfl
  · rfl
  · rfl
  · rfl
  · rfl
  · rfl
  · rfl
  · next hquote hslash hb hf hn hr ht =>
      by_cases hcontrol : c.toNat < 0x20
      · have hletter : c ∉ ['\x08', '\x0c', '\n', '\r', '\t'] := by
          simp only [List.mem_cons, List.not_mem_nil, or_false, not_or]
          exact ⟨hb, hf, hn, hr, ht⟩
        have hunit : unitOf c = .code c.toNat := if_pos ⟨hcontrol, hletter⟩
        simp only [hcontrol, if_true, List.cons_append, List.nil_append]
        rw [stringUnits?, hexDigitsValue?_control _ hcontrol, hunit]
      · have hunit : unitOf c = .char c := if_neg fun h => hcontrol h.1
        simp only [hcontrol, if_false, List.cons_append, List.nil_append]
        rw [stringUnits?_of_plain hquote hslash hcontrol, hunit]

/-- An escaped text is read back unit by unit. -/
theorem stringUnits?_text (text rest : List Char) :
    stringUnits? (text.flatMap escape ++ '"' :: rest) = some (text.map unitOf, rest) := by
  induction text with
  | nil => rfl
  | cons c text ih =>
      rw [List.flatMap_cons, List.append_assoc, stringUnits?_escape, ih]
      rfl

/-- A unit stands for its character: no code is half of a pair. -/
theorem unitsText?_unitOf (c : Char) (rest : List StringUnit) :
    unitsText? (unitOf c :: rest) = (unitsText? rest).map (c :: ·) := by
  unfold unitOf
  split
  · next hcontrol =>
      have hlow : isLowSurrogate c.toNat = false := by
        simp only [isLowSurrogate, Bool.and_eq_false_iff, decide_eq_false_iff_not]
        omega
      have hhigh : isHighSurrogate c.toNat = false := by
        simp only [isHighSurrogate, Bool.and_eq_false_iff, decide_eq_false_iff_not]
        omega
      rw [unitsText?.eq_def]
      simp [hlow, hhigh]
  · rfl

/-- The units of a text give the text. -/
theorem unitsText?_map (text : List Char) : unitsText? (text.map unitOf) = some text := by
  induction text with
  | nil => rfl
  | cons c text ih =>
      rw [List.map_cons, unitsText?_unitOf, ih]
      rfl

/-- A string in quotes is scanned as the string. -/
theorem scan?_quote (text rest : List Char) :
    scan? (quote text ++ rest) = some (.scalar (ofString (String.ofList text)), rest) := by
  rw [quote, List.cons_append, List.append_assoc, List.singleton_append, scan?,
    stringUnits?_text]
  simp [unitsText?_map, ofString]

/-! ## Numbers -/

/-- What the spelling of a number has to be: digits, of which the first is no
useless zero, and only digits after the point. -/
structure Number.IsSpelled (n : Number) : Prop where
  whole : AreDigits n.whole
  head : ∀ cs, n.whole = '0' :: cs → cs = []
  fraction : ∀ c ∈ n.fraction, c.isDigit

/-- A text that no number goes on with. -/
def EndsNumber (cs : List Char) : Prop :=
  ∀ c ∈ cs.head?, c.isDigit = false ∧ c ≠ '.' ∧ c ≠ 'e' ∧ c ≠ 'E'

theorem EndsNumber.noDigit {cs : List Char} (h : EndsNumber cs) : NoDigit cs :=
  fun c hc => (h c hc).1

/-- Digits are read up to the first character that is none. -/
theorem someDigits?_append {ds rest : List Char} (hds : AreDigits ds) (hrest : NoDigit rest) :
    someDigits? (ds ++ rest) = some (ds, rest) := by
  obtain ⟨d, ds', rfl⟩ := List.exists_cons_of_ne_nil hds.1
  rw [someDigits?, splitDigits_digits_append hds.2 hrest]

/-- A whole part is read, if it has no leading zero. -/
theorem wholePart?_append {ds rest : List Char} (hds : AreDigits ds)
    (hzero : ∀ cs, ds = '0' :: cs → cs = []) (hrest : NoDigit rest) :
    wholePart? (ds ++ rest) = some (ds, rest) := by
  obtain ⟨d, ds', rfl⟩ := List.exists_cons_of_ne_nil hds.1
  by_cases hd : d = '0'
  · rw [hd] at hzero
    obtain rfl := hzero ds' rfl
    rw [hd]
    rfl
  · rw [wholePart?]
    · exact someDigits?_append hds hrest
    · intro cs h
      exact hd (List.cons.inj h).1

/-- The spelling of the digits after the point. -/
def fractionText (fraction : List Char) : List Char :=
  if fraction = [] then [] else '.' :: fraction

/-- The spelling of an exponent, if there is one. -/
def exponentTextOf : Option Int → List Char
  | none => []
  | some e => exponentText e

/-- A number is written as a sign, a whole part, a fraction and an exponent. -/
theorem Number.text_eq (n : Number) :
    n.text = (if n.negative then ['-'] else []) ++
      (n.whole ++ (fractionText n.fraction ++ exponentTextOf n.exponent)) := by
  unfold Number.text exponentTextOf fractionText
  cases n.exponent with
  | none => simp
  | some e => simp

/-- A fraction is read as it is written. -/
theorem fractionPart?_append {fraction rest : List Char} (h : ∀ c ∈ fraction, c.isDigit)
    (hdigit : NoDigit rest) (hpoint : rest.head? ≠ some '.') :
    fractionPart? (fractionText fraction ++ rest) = some (fraction, rest) := by
  unfold fractionText
  by_cases hnil : fraction = []
  · rw [if_pos hnil, hnil, List.nil_append]
    cases rest with
    | nil => rfl
    | cons c rest =>
        have hc : c ≠ '.' := fun e => hpoint (by rw [e]; rfl)
        rw [fractionPart?]
        intro cs hcs
        exact absurd (List.cons.inj hcs).1 hc
  · rw [if_neg hnil]
    exact someDigits?_append ⟨hnil, h⟩ hdigit

/-- An exponent is read as it is written. -/
theorem exponentPart?_append (exponent : Option Int) {rest : List Char} (hrest : EndsNumber rest) :
    exponentPart? (exponentTextOf exponent ++ rest) = some (exponent, rest) := by
  cases exponent with
  | none =>
      cases rest with
      | nil => rfl
      | cons c rest =>
          obtain ⟨-, -, hlower, hupper⟩ := hrest c rfl
          simp [exponentTextOf, exponentPart?, hlower, hupper]
  | some e =>
      have hdigits := someDigits?_append (areDigits_decimalDigits e.natAbs) hrest.noDigit
      have hvalue := digitsValue_decimalDigits e.natAbs
      rw [exponentTextOf, exponentText]
      by_cases he : e < 0
      · have hsign : -(e.natAbs : Int) = e := by omega
        rw [if_pos he, List.cons_append, List.cons_append, exponentPart?, if_pos (.inl rfl)]
        simp only [splitSign, hdigits, hvalue, Option.map_some, if_true, hsign]
      · have hsign : (e.natAbs : Int) = e := by omega
        rw [if_neg he, List.cons_append, List.cons_append, exponentPart?, if_pos (.inl rfl)]
        simp only [splitSign, hdigits, hvalue, Option.map_some, Bool.false_eq_true, if_false, hsign]

/-- The parts of a number are found one after the other, since each ends where
the next begins. -/
theorem number?_text {n : Number} (h : n.IsSpelled) {rest : List Char} (hrest : EndsNumber rest) :
    number? (n.text ++ rest) = some (n, rest) := by
  have hexponent : NoDigit (exponentTextOf n.exponent ++ rest) ∧
      (exponentTextOf n.exponent ++ rest).head? ≠ some '.' := by
    cases n.exponent with
    | none => exact ⟨hrest.noDigit, fun hc => (hrest '.' hc).2.1 rfl⟩
    | some e => exact ⟨fun c hc => by cases hc; rfl, by simp [exponentTextOf, exponentText]⟩
  have hfraction : NoDigit (fractionText n.fraction ++ (exponentTextOf n.exponent ++ rest)) := by
    unfold fractionText
    split
    · exact hexponent.1
    · intro c hc
      cases hc
      rfl
  have hunsigned : unsigned? n.negative
      (n.whole ++ (fractionText n.fraction ++ (exponentTextOf n.exponent ++ rest))) =
        some (n, rest) := by
    simp only [unsigned?, wholePart?_append h.whole h.head hfraction,
      fractionPart?_append h.fraction hexponent.1 hexponent.2,
      exponentPart?_append n.exponent hrest, Option.bind_eq_bind, Option.bind_some, pure]
  rw [n.text_eq]
  simp only [List.append_assoc]
  cases hnegative : n.negative with
  | true =>
      rw [hnegative] at hunsigned
      exact hunsigned
  | false =>
      rw [hnegative] at hunsigned
      obtain ⟨d, ds, hds⟩ := List.exists_cons_of_ne_nil h.whole.1
      have hd : d ≠ '-' := by
        rintro rfl
        exact absurd (h.whole.2 '-' (by rw [hds]; exact List.mem_cons_self)) (by decide)
      rw [hds] at hunsigned ⊢
      rw [if_neg (by decide), List.nil_append, List.cons_append, number?]
      · exact hunsigned
      · intro cs hcs
        exact hd (List.cons.inj hcs).1

/-- The first character of a number is a digit or a minus sign. -/
theorem Number.IsSpelled.text_cons {n : Number} (h : n.IsSpelled) :
    ∃ c cs, n.text = c :: cs ∧ (c.isDigit ∨ c = '-') := by
  obtain ⟨d, ds, hds⟩ := List.exists_cons_of_ne_nil h.whole.1
  rw [n.text_eq]
  cases n.negative with
  | true => exact ⟨'-', _, rfl, .inr rfl⟩
  | false =>
      have hd : d.isDigit := h.whole.2 d (by rw [hds]; exact List.mem_cons_self)
      rw [hds]
      exact ⟨d, _, rfl, .inl hd⟩

/-- No mark and no word begins like a number. -/
theorem scan?_cons_of_number {c : Char} (h : c.isDigit ∨ c = '-') (cs : List Char) :
    scan? (c :: cs) =
      (number? (c :: cs)).map fun (n, after) => (.scalar (.number n), after) := by
  have hne : ∀ d : Char, ¬ (d.isDigit ∨ d = '-') → c ≠ d := by
    rintro d hd rfl
    exact hd h
  rw [scan?]
  all_goals exact fun rest hcs => hne _ (by decide) (List.cons.inj hcs).1

/-- A number is scanned as its spelling. -/
theorem scan?_text {n : Number} (h : n.IsSpelled) {rest : List Char} (hrest : EndsNumber rest) :
    scan? (n.text ++ rest) = some (.scalar (.number n), rest) := by
  have hread := number?_text h hrest
  obtain ⟨c, cs, htext, hc⟩ := h.text_cons
  rw [htext, List.cons_append] at hread ⊢
  rw [scan?_cons_of_number hc, hread]
  rfl

end GlutSketch.Json
