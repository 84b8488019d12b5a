import GlutSketch.Json.Value
import GlutSketch.Text.Digits

/-!
# GlutSketch.Json.Reader

Reading a text as JSON.  `scan?` takes one token off the front of a text; a
value is read by an automaton that makes a step per token (`State.step?`) and
keeps the containers that are still open, so that the depth of nesting costs no
stack.
-/

namespace GlutSketch.Json

/-! ## Strings -/

/-- A character of a string, or a code unit that is spelled by its number. -/
inductive StringUnit where
  | char (c : Char)
  | code (n : Nat)
deriving DecidableEq

/-- A code unit that is the first half of a pair. -/
def isHighSurrogate (n : Nat) : Bool := 0xD800 ≤ n && n < 0xDC00

/-- A code unit that is the second half of a pair. -/
def isLowSurrogate (n : Nat) : Bool := 0xDC00 ≤ n && n < 0xE000

/-- The text of a sequence of units; nothing if half of a pair stands alone. -/
def unitsText? : List StringUnit → Option (List Char)
  | [] => some []
  | .char c :: rest => (unitsText? rest).map (c :: ·)
  | .code n :: rest =>
      if isLowSurrogate n then none
      else if isHighSurrogate n then
        match rest with
        | .code low :: rest =>
            if isLowSurrogate low then
              let c := Char.ofNat (0x10000 + (n - 0xD800) * 0x400 + (low - 0xDC00))
              (unitsText? rest).map (c :: ·)
            else none
        | _ => none
      else (unitsText? rest).map (Char.ofNat n :: ·)

/-- The character that a letter after a backslash stands for. -/
def escaped? : Char → Option Char
  | '"' => some '"'
  | '\\' => some '\\'
  | '/' => some '/'
  | 'b' => some '\x08'
  | 'f' => some '\x0c'
  | 'n' => some '\n'
  | 'r' => some '\r'
  | 't' => some '\t'
  | _ => none

/-- Reads a string after its opening quote.  Control characters have to be
escaped. -/
def stringUnits? : List Char → Option (List StringUnit × List Char)
  | [] => none
  | '"' :: rest => some ([], rest)
  | '\\' :: 'u' :: a :: b :: c :: d :: rest =>
      match hexDigitsValue? [a, b, c, d] with
      | none => none
      | some n => (stringUnits? rest).map fun (units, after) => (.code n :: units, after)
  | '\\' :: e :: rest =>
      match escaped? e with
      | none => none
      | some c => (stringUnits? rest).map fun (units, after) => (.char c :: units, after)
  | c :: rest =>
      if c.toNat < 0x20 ∨ c = '\\' then none
      else (stringUnits? rest).map fun (units, after) => (.char c :: units, after)

/-! ## Numbers -/

/-- Digits, at least one. -/
def someDigits? (cs : List Char) : Option (List Char × List Char) :=
  match splitDigits cs with
  | ([], _) => none
  | split => some split

/-- The whole part of a number: a zero, or digits that do not begin with one. -/
def wholePart? : List Char → Option (List Char × List Char)
  | '0' :: cs => some (['0'], cs)
  | cs => someDigits? cs

/-- The digits after a point, if there is one. -/
def fractionPart? : List Char → Option (List Char × List Char)
  | '.' :: cs => someDigits? cs
  | cs => some ([], cs)

/-- The exponent, if there is one. -/
def exponentPart? : List Char → Option (Option Int × List Char)
  | [] => some (none, [])
  | c :: cs =>
      if c = 'e' ∨ c = 'E' then
        let (negative, unsigned) := splitSign cs
        (someDigits? unsigned).map fun (digits, rest) =>
          (some (if negative then -digitsValue digits else digitsValue digits), rest)
      else some (none, c :: cs)

/-- Reads a number without its sign. -/
def unsigned? (negative : Bool) (cs : List Char) : Option (Number × List Char) := do
  let (whole, afterWhole) ← wholePart? cs
  let (fraction, afterFraction) ← fractionPart? afterWhole
  let (exponent, rest) ← exponentPart? afterFraction
  return (⟨negative, whole, fraction, exponent⟩, rest)

/-- Reads a number. -/
def number? : List Char → Option (Number × List Char)
  | '-' :: cs => unsigned? true cs
  | cs => unsigned? false cs

/-! ## Tokens -/

/-- A token: a mark, or a value that is no container. -/
inductive Token where
  | leftBrace
  | rightBrace
  | leftBracket
  | rightBracket
  | colon
  | comma
  | scalar (value : Json)

/-- White space between tokens. -/
def isBlank (c : Char) : Bool := c == ' ' || c == '\t' || c == '\n' || c == '\r'

/-- The token at the front, and the text after it. -/
def scan? : List Char → Option (Token × List Char)
  | '{' :: rest => some (.leftBrace, rest)
  | '}' :: rest => some (.rightBrace, rest)
  | '[' :: rest => some (.leftBracket, rest)
  | ']' :: rest => some (.rightBracket, rest)
  | ':' :: rest => some (.colon, rest)
  | ',' :: rest => some (.comma, rest)
  | '"' :: rest =>
      (stringUnits? rest).map fun (units, after) =>
        (.scalar (.string ((unitsText? units).map String.ofList)), after)
  | 'n' :: 'u' :: 'l' :: 'l' :: rest => some (.scalar .null, rest)
  | 't' :: 'r' :: 'u' :: 'e' :: rest => some (.scalar (.bool true), rest)
  | 'f' :: 'a' :: 'l' :: 's' :: 'e' :: rest => some (.scalar (.bool false), rest)
  | cs => (number? cs).map fun (n, after) => (.scalar (.number n), after)

/-! ## Automaton -/

/-- A container that is open, with what it holds so far, the last first.  An
object waits for the value of the member `name`. -/
inductive Frame where
  | elements (before : List Json)
  | members (before : List (Option String × Json)) (name : Option String)

/-- What may come next, inside the open containers, the innermost first. -/
inductive State where
  /-- A value has to come. -/
  | value (frames : List Frame)
  /-- An array has just been opened: a value or its end. -/
  | opened (frames : List Frame)
  /-- An object has just been opened: a name or its end. -/
  | name (frames : List Frame)
  /-- A comma in an object: a name has to come. -/
  | nextName (frames : List Frame) (before : List (Option String × Json))
  /-- A name has been read: a colon has to come. -/
  | colon (frames : List Frame) (before : List (Option String × Json)) (name : Option String)
  /-- A value is complete: a comma, or the end of the innermost container. -/
  | complete (frames : List Frame) (value : Json)

namespace State

/-- A step in a place where a value has to come. -/
def stepValue? (frames : List Frame) : Token → Option State
  | .leftBrace => some (.name frames)
  | .leftBracket => some (.opened frames)
  | .scalar v => some (.complete frames v)
  | _ => none

/-- A step of the automaton. -/
def step? : State → Token → Option State
  | value frames, t => stepValue? frames t
  | opened frames, .rightBracket => some (.complete frames (.array []))
  | opened frames, t => stepValue? (.elements [] :: frames) t
  | name frames, .rightBrace => some (.complete frames (.object []))
  | name frames, .scalar (.string text) => some (.colon frames [] text)
  | nextName frames before, .scalar (.string text) => some (.colon frames before text)
  | colon frames before text, .colon => some (.value (.members before text :: frames))
  | complete (.elements before :: frames) v, .comma =>
      some (.value (.elements (v :: before) :: frames))
  | complete (.elements before :: frames) v, .rightBracket =>
      some (.complete frames (.array (v :: before).reverse))
  | complete (.members before text :: frames) v, .comma =>
      some (.nextName frames ((text, v) :: before))
  | complete (.members before text :: frames) v, .rightBrace =>
      some (.complete frames (.object ((text, v) :: before).reverse))
  | _, _ => none

/-- The value read, once nothing is open. -/
def result? : State → Option Json
  | complete [] v => some v
  | _ => none

end State

/-! ## Texts

Each reader of a string or of a part of a number leaves a rest that is no longer than its text, and
a shorter one if it read something. -/

/-- A string takes at least its closing quote. -/
theorem length_stringUnits? {cs rest : List Char} {units : List StringUnit}
    (h : stringUnits? cs = some (units, rest)) : rest.length < cs.length := by
  fun_induction stringUnits? cs generalizing units with
  | case1 => simp at h
  | case2 r => simp_all
  | case3 => simp at h
  | case4 a b c d r n hn ih =>
      simp only [Option.map_eq_some_iff, Prod.exists, Prod.mk.injEq] at h
      obtain ⟨u, after, hr, -, rfl⟩ := h
      have := ih hr
      simp only [List.length_cons]
      omega
  | case5 => simp at h
  | case6 e r _ c hc ih =>
      simp only [Option.map_eq_some_iff, Prod.exists, Prod.mk.injEq] at h
      obtain ⟨u, after, hr, -, rfl⟩ := h
      have := ih hr
      simp only [List.length_cons]
      omega
  | case7 => simp at h
  | case8 c r _ _ _ _ ih =>
      simp only [Option.map_eq_some_iff, Prod.exists, Prod.mk.injEq] at h
      obtain ⟨u, after, hr, -, rfl⟩ := h
      have := ih hr
      simp only [List.length_cons]
      omega

/-- Digits that have to be there take a character. -/
theorem length_someDigits? {cs digits rest : List Char}
    (h : someDigits? cs = some (digits, rest)) : rest.length < cs.length := by
  have happ := splitDigits_append cs
  unfold someDigits? at h
  split at h
  · simp at h
  · next hne =>
    rw [Option.some.injEq] at h
    rw [h] at happ hne
    have hpos : 0 < digits.length := List.length_pos_iff.2 fun hnil => hne rest (by rw [hnil])
    have hlen : digits.length + rest.length = cs.length := by rw [← happ, List.length_append]
    omega

theorem length_wholePart? {cs digits rest : List Char}
    (h : wholePart? cs = some (digits, rest)) : rest.length < cs.length := by
  unfold wholePart? at h
  split at h
  · simp_all
  · exact length_someDigits? h

/-- A fraction may be missing. -/
theorem length_fractionPart? {cs digits rest : List Char}
    (h : fractionPart? cs = some (digits, rest)) : rest.length ≤ cs.length := by
  unfold fractionPart? at h
  split at h
  · have := length_someDigits? h
    simp only [List.length_cons]
    omega
  · simp_all

theorem length_exponentPart? {cs rest : List Char} {exponent : Option Int}
    (h : exponentPart? cs = some (exponent, rest)) : rest.length ≤ cs.length := by
  unfold exponentPart? at h
  split at h
  · simp_all
  · next c r =>
    split at h
    · simp only [Option.map_eq_some_iff, Prod.exists, Prod.mk.injEq] at h
      obtain ⟨digits, after, hd, -, rfl⟩ := h
      have := length_someDigits? hd
      have := length_splitSign_le r
      simp only [List.length_cons]
      omega
    · simp_all

/-- A number takes at least its first digit. -/
theorem length_number? {cs rest : List Char} {n : Number} (h : number? cs = some (n, rest)) :
    rest.length < cs.length := by
  have unsigned {negative : Bool} {cs : List Char} (h : unsigned? negative cs = some (n, rest)) :
      rest.length < cs.length := by
    simp only [unsigned?, bind, Option.bind_eq_some_iff, pure, Option.some.injEq, Prod.mk.injEq,
      Prod.exists] at h
    obtain ⟨whole, r, hw, fraction, r', hf, exponent, r'', he, -, rfl⟩ := h
    have := length_wholePart? hw
    have := length_fractionPart? hf
    have := length_exponentPart? he
    omega
  unfold number? at h
  split at h
  · have := unsigned h
    simp only [List.length_cons]
    omega
  · exact unsigned h

/-- A token has at least one character. -/
theorem length_scan? {cs rest : List Char} {t : Token} (h : scan? cs = some (t, rest)) :
    rest.length < cs.length := by
  fun_cases scan? cs with
  | case7 r =>
      simp only [scan?, Option.map_eq_some_iff, Prod.exists, Prod.mk.injEq] at h
      obtain ⟨u, after, hu, -, rfl⟩ := h
      have := length_stringUnits? hu
      simp only [List.length_cons]
      omega
  | case11 =>
      simp_all only [scan?, Option.map_eq_some_iff, Prod.exists, Prod.mk.injEq]
      obtain ⟨n, after, hn, -, rfl⟩ := h
      exact length_number? hn
  | _ =>
      simp only [scan?, Option.some.injEq, Prod.mk.injEq] at h
      rw [← h.2]
      simp only [List.length_cons]
      omega

/-- Runs the automaton over a text. -/
def State.run? (s : State) (cs : List Char) : Option State :=
  match cs with
  | [] => some s
  | c :: rest =>
      if isBlank c then s.run? rest
      else match _h : scan? (c :: rest) with
        | none => none
        | some (t, after) =>
            match s.step? t with
            | none => none
            | some next => next.run? after
termination_by cs.length
decreasing_by
  · exact Nat.lt_succ_self _
  · exact length_scan? _h

/-- Reads a text that is one JSON value. -/
def parse? (text : List Char) : Option Json :=
  ((State.value []).run? text).bind State.result?

end GlutSketch.Json
