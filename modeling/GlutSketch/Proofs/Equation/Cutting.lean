import GlutSketch.Equation.Classify
import GlutSketch.Proofs.Equation.Places

/-!
# GlutSketch.Proofs.Equation.Cutting

A line is cut into its longest lexemes, and no character of it is lost.
`IsCut text start stop ts` says that the tokens `ts` are such a cut of the
characters from `start` up to `stop`: they stand in order without overlap, each
is the longest lexeme that begins at its place, and the characters between them
are white space.

* `tokensFrom_eq_ok_iff` -- the lexer succeeds with the one cut of the whole
  text;
* `exists_of_tokensFrom_error` -- it fails after a cut of the characters before
  the first place where no lexeme begins;
* `tokenize_cuts` -- both for a line.
-/

namespace GlutSketch.Equation

/-! ## Cuts -/

/-- The place is within the span. -/
def Span.Holds (s : Span) (i : Nat) : Prop := s.start ≤ i ∧ i < s.stop

/-- The tokens are a cut of the text from `start` up to `stop` into longest
lexemes. -/
structure IsCut (text : List Char) (start stop : Nat) (ts : List Token) : Prop where
  inOrder : InOrder stop start ts
  /-- The characters outside of the tokens are white space, and those inside are
  not. -/
  blank : ∀ i c, start ≤ i → i < stop → text[i]? = some c →
    (isWhiteSpace c ↔ ∀ t ∈ ts, ¬ t.span.Holds i)
  longest : ∀ t ∈ ts, IsLongest (text.drop t.span.start) t.kind (t.span.stop - t.span.start)

/-- The text goes on at `place` with the character `c`, where no lexeme
begins. -/
structure IsStuck (text : List Char) (place : Nat) (c : Char) : Prop where
  front : text[place]? = some c
  not_blank : isWhiteSpace c = false
  no_lexeme : ∀ word kind, IsLexeme word kind → ¬ word <+: text.drop place

section

variable {text cs : List Char} {start stop size i : Nat} {c : Char} {kind : TokenKind}
  {ts : List Token} {e : Error}

/-- No character of a longest lexeme is white space. -/
theorem IsLongest.isWhiteSpace_eq_false (h : IsLongest (text.drop start) kind size)
    (hi : start ≤ i) (hsize : i < start + size) (hc : text[i]? = some c) :
    isWhiteSpace c = false := by
  refine h.lexeme.isWhiteSpace_eq_false c (List.mem_of_getElem? (i := i - start) ?_)
  rw [List.getElem?_take_of_lt (by omega), List.getElem?_drop, Nat.add_sub_cancel' hi, hc]

/-- Between a place and itself there is nothing to cut. -/
theorem isCut_self_iff : IsCut text start start ts ↔ ts = [] := by
  constructor
  · intro h
    refine List.eq_nil_iff_forall_not_mem.2 fun t ht => ?_
    have hplace := h.inOrder.of_mem ht
    omega
  · rintro rfl
    exact ⟨Nat.le_refl start, fun i c hstart hstop => absurd hstart (by omega), by simp⟩

/-- White space before a cut. -/
theorem isCut_blank_iff (hc : text[start]? = some c) (hspace : isWhiteSpace c) :
    IsCut text start stop ts ∧ start < stop ↔ IsCut text (start + 1) stop ts := by
  constructor
  · rintro ⟨h, hstop⟩
    have hoff := (h.blank start c (Nat.le_refl start) hstop hc).1 hspace
    refine ⟨?_, fun i d hi => h.blank i d (by omega), h.longest⟩
    cases ts with
    | nil => exact hstop
    | cons t ts =>
        have hfirst := hoff t List.mem_cons_self
        obtain ⟨hstart, hpos, hrest⟩ := h.inOrder
        simp only [Span.Holds] at hfirst
        exact ⟨by omega, hpos, hrest⟩
  · intro h
    refine ⟨⟨h.inOrder.mono (Nat.le_succ start), fun i d hi hstop hd => ?_, h.longest⟩,
      h.inOrder.start_le⟩
    by_cases hfirst : i = start
    · subst hfirst
      obtain rfl : c = d := Option.some.inj (hc.symm.trans hd)
      refine iff_of_true hspace fun t ht hholds => ?_
      have hplace := h.inOrder.of_mem ht
      simp only [Span.Holds] at hholds
      omega
    · exact h.blank i d (by omega) hstop hd

/-- A token before a cut. -/
theorem IsCut.cons (hl : IsLongest (text.drop start) kind size)
    (h : IsCut text (start + size) stop ts) :
    IsCut text start stop (⟨kind, ⟨start, start + size⟩⟩ :: ts) := by
  have hpos : 0 < size := (size_of_lexeme? (lexeme?_eq_some_iff.2 hl)).1
  refine ⟨⟨Nat.le_refl start, Nat.lt_add_of_pos_right hpos, h.inOrder⟩, fun i c hi hstop hc => ?_,
    ?_⟩
  · by_cases hinside : i < start + size
    · rw [hl.isWhiteSpace_eq_false hi hinside hc]
      exact iff_of_false Bool.false_ne_true fun hoff => hoff _ List.mem_cons_self ⟨hi, hinside⟩
    · rw [h.blank i c (by omega) hstop hc, List.forall_mem_cons]
      exact (and_iff_right fun hholds => hinside hholds.2).symm
  · intro t ht
    rcases List.mem_cons.1 ht with rfl | ht
    · rwa [Nat.add_sub_cancel_left]
    · exact h.longest t ht

/-- A cut begins with a token, unless the text begins with white space. -/
theorem IsCut.exists_cons (h : IsCut text start stop ts) (hc : text[start]? = some c)
    (hspace : ¬ isWhiteSpace c) (hstop : start < stop) :
    ∃ kind size rest, ts = ⟨kind, ⟨start, start + size⟩⟩ :: rest ∧
      IsLongest (text.drop start) kind size ∧ IsCut text (start + size) stop rest := by
  have hoff : ¬ ∀ t ∈ ts, ¬ t.span.Holds start :=
    mt (h.blank start c (Nat.le_refl start) hstop hc).2 hspace
  cases ts with
  | nil => exact absurd (by simp) hoff
  | cons t rest =>
      obtain ⟨kind, ⟨first, last⟩⟩ := t
      obtain ⟨hstart, hpos, hrest⟩ := h.inOrder
      dsimp only at hstart hpos hrest
      -- the tokens after the first are too far on
      obtain rfl : first = start := by
        refine Classical.byContradiction fun hne => hoff fun u hu hholds => ?_
        simp only [Span.Holds] at hholds
        rcases List.mem_cons.1 hu with rfl | hu
        · dsimp only at hholds
          omega
        · have hplace := hrest.of_mem hu
          omega
      obtain ⟨size, rfl⟩ : ∃ size, last = first + size := ⟨last - first, by omega⟩
      have hl := h.longest _ List.mem_cons_self
      dsimp only at hl
      rw [Nat.add_sub_cancel_left] at hl
      refine ⟨kind, size, rest, rfl, hl, hrest, fun i d hi hi' hd => ?_, fun u hu =>
        h.longest u (List.mem_cons_of_mem _ hu)⟩
      rw [h.blank i d (by omega) hi' hd, List.forall_mem_cons]
      exact and_iff_right fun hholds => Nat.not_lt.2 hi hholds.2

/-- A cut begins with the longest lexeme at its front. -/
theorem isCut_token_iff (hc : text[start]? = some c) (hspace : ¬ isWhiteSpace c)
    (hstop : start < stop) (hl : IsLongest (text.drop start) kind size) :
    IsCut text start stop ts ↔
      ∃ rest, ts = ⟨kind, ⟨start, start + size⟩⟩ :: rest ∧ IsCut text (start + size) stop rest := by
  constructor
  · intro h
    obtain ⟨kind', size', rest, rfl, hl', hrest⟩ := h.exists_cons hc hspace hstop
    have heq := (lexeme?_eq_some_iff.2 hl).symm.trans (lexeme?_eq_some_iff.2 hl')
    simp only [Option.some.injEq, Prod.mk.injEq] at heq
    obtain ⟨rfl, rfl⟩ := heq
    exact ⟨rest, rfl, hrest⟩
  · rintro ⟨rest, rfl, hrest⟩
    exact hrest.cons hl

/-! ## The lexer -/

/-- What is left of a text after its next character and some more. -/
theorem drop_succ_of_drop_eq_cons (hcs : text.drop start = c :: cs) :
    text[start]? = some c ∧ start < text.length ∧
      ∀ size, 0 < size → text.drop (start + size) = cs.drop (size - 1) := by
  have hlength := congrArg List.length hcs
  rw [List.length_drop, List.length_cons] at hlength
  refine ⟨?_, by omega, fun size hsize => ?_⟩
  · have hhead := congrArg List.head? hcs
    rwa [List.head?_drop] at hhead
  · obtain ⟨less, rfl⟩ : ∃ less, size = less + 1 := ⟨size - 1, by omega⟩
    rw [← List.drop_drop, hcs, List.drop_succ_cons, Nat.add_sub_cancel]

/-- **Cuts**: the lexer succeeds with the one cut of the text. -/
theorem tokensFrom_eq_ok_iff (hcs : text.drop start = cs) (hstart : start ≤ text.length) :
    tokensFrom start cs = .ok ts ↔ IsCut text start text.length ts := by
  induction start, cs using tokensFrom_induction generalizing ts with
  | nil start =>
      obtain rfl : start = text.length := Nat.le_antisymm hstart (List.drop_eq_nil_iff.1 hcs)
      rw [tokensFrom_nil, isCut_self_iff, Except.ok.injEq, eq_comm]
  | blank start c cs hspace ih =>
      obtain ⟨hc, hlt, hdrop⟩ := drop_succ_of_drop_eq_cons hcs
      rw [tokensFrom_blank hspace, ih (hdrop 1 Nat.one_pos) hlt, ← isCut_blank_iff hc hspace]
      exact and_iff_left hlt
  | stuck start c cs hspace hnone =>
      obtain ⟨hc, hlt, -⟩ := drop_succ_of_drop_eq_cons hcs
      rw [tokensFrom_stuck hspace hnone]
      refine iff_of_false (by simp) fun hcut => ?_
      obtain ⟨kind, size, rest, -, hl, -⟩ := hcut.exists_cons hc hspace hlt
      rw [hcs, ← lexeme?_eq_some_iff, hnone] at hl
      cases hl
  | token start c cs kind size hspace hsome ih =>
      obtain ⟨hc, hlt, hdrop⟩ := drop_succ_of_drop_eq_cons hcs
      obtain ⟨hpos, hsize⟩ := size_of_lexeme? hsome
      have hend : start + size ≤ text.length := by
        rw [← hcs, List.length_drop] at hsize
        omega
      rw [tokensFrom_token hspace hsome, Except.map_eq_ok_iff]
      rw [← hcs, lexeme?_eq_some_iff] at hsome
      simp only [isCut_token_iff hc hspace hlt hsome, ih (hdrop size hpos) hend, and_comm]

/-- The lexer fails after a cut of what stands before the first place where no
lexeme begins. -/
theorem exists_of_tokensFrom_error (hcs : text.drop start = cs)
    (h : tokensFrom start cs = .error e) :
    ∃ place c ts, IsCut text start place ts ∧ IsStuck text place c ∧
      e = ⟨.unexpectedCharacter c, ⟨place, place + 1⟩⟩ := by
  induction start, cs using tokensFrom_induction with
  | nil start =>
      rw [tokensFrom_nil] at h
      cases h
  | blank start c cs hspace ih =>
      obtain ⟨hc, hlt, hdrop⟩ := drop_succ_of_drop_eq_cons hcs
      rw [tokensFrom_blank hspace] at h
      obtain ⟨place, d, ts, hcut, hstuck, rfl⟩ := ih (hdrop 1 Nat.one_pos) h
      exact ⟨place, d, ts, ((isCut_blank_iff hc hspace).2 hcut).1, hstuck, rfl⟩
  | stuck start c cs hspace hnone =>
      obtain ⟨hc, -, -⟩ := drop_succ_of_drop_eq_cons hcs
      rw [tokensFrom_stuck hspace hnone] at h
      cases h
      rw [← hcs] at hnone
      exact ⟨start, c, [], isCut_self_iff.2 rfl,
        ⟨hc, by simpa using hspace, lexeme?_eq_none_iff.1 hnone⟩, rfl⟩
  | token start c cs kind size hspace hsome ih =>
      obtain ⟨hc, hlt, hdrop⟩ := drop_succ_of_drop_eq_cons hcs
      rw [tokensFrom_token hspace hsome, Except.map_eq_error_iff] at h
      obtain ⟨place, d, ts, hcut, hstuck, rfl⟩ := ih (hdrop size (size_of_lexeme? hsome).1) h
      rw [← hcs, lexeme?_eq_some_iff] at hsome
      exact ⟨place, d, _, hcut.cons hsome, hstuck, rfl⟩

/-- **Tokens**: a line is cut into its longest lexemes, and if it is not, the
error is about the one character that the cut gets stuck at.  The end of the
line, which the parser meets after the last token, is the empty span at its
length.  No numeral that is cut out of a line is refused when its number is
read. -/
theorem tokenize_cuts (source : String) :
    (∀ ts, tokenize source = .ok ts ↔ IsCut source.toList 0 source.length ts) ∧
      (∀ e, tokenize source = .error e →
        ∃ place c ts, IsCut source.toList 0 place ts ∧ IsStuck source.toList place c ∧
          e = ⟨.unexpectedCharacter c, ⟨place, place + 1⟩⟩) ∧
      (∀ ts, tokenize source = .ok ts →
        read source = parseEquation source.length ts ∧
          readExpression source = parseExpression source.length ts ∧
          frontSpan source.length [] = ⟨source.length, source.length⟩) ∧
      ∀ start stop ts, IsCut source.toList start stop ts → ∀ t ∈ ts, ∀ x, t.kind = .number x →
        number? ((source.toList.drop t.span.start).take (t.span.stop - t.span.start)) = some x := by
  refine ⟨fun ts => ?_, fun e he => exists_of_tokensFrom_error List.drop_zero he, fun ts hts => ?_,
    fun start stop ts hcut t ht x hx => ?_⟩
  · rw [← String.length_toList]
    exact tokensFrom_eq_ok_iff List.drop_zero (Nat.zero_le _)
  · rw [read, readExpression, hts]
    exact ⟨rfl, rfl, rfl⟩
  · have hlexeme := (hcut.longest t ht).lexeme
    rw [hx] at hlexeme
    exact hlexeme.number?_eq

/-- A letter after a numeral that no digits follow is a name, and a point before
digits belongs to a numeral.  In the second line the cut gets stuck after the
first token. -/
theorem tokenize_cuts_lines :
    IsCut "2e+ .5x".toList 0 7 [⟨.number 2, ⟨0, 1⟩⟩, ⟨.identifier "e", ⟨1, 2⟩⟩, ⟨.plus, ⟨2, 3⟩⟩,
        ⟨.number 0.5, ⟨4, 6⟩⟩, ⟨.identifier "x", ⟨6, 7⟩⟩] ∧
      number? ['.', '5'] = some 0.5 ∧
      ∃ ts, IsCut "x # 2".toList 0 2 ts ∧ IsStuck "x # 2".toList 2 '#' := by
  have htokens : tokenize "2e+ .5x" = .ok [⟨.number 2, ⟨0, 1⟩⟩, ⟨.identifier "e", ⟨1, 2⟩⟩,
      ⟨.plus, ⟨2, 3⟩⟩, ⟨.number 0.5, ⟨4, 6⟩⟩, ⟨.identifier "x", ⟨6, 7⟩⟩] :=
    Except.toOption_eq_some_iff.1 (by decide +kernel)
  have hrefused : tokenize "x # 2" = .error ⟨.unexpectedCharacter '#', ⟨2, 3⟩⟩ := by decide +kernel
  obtain ⟨hcut, -, -, hnumber⟩ := tokenize_cuts "2e+ .5x"
  have hline := (hcut _).1 htokens
  obtain ⟨place, c, ts, hfront, hstuck, herror⟩ := (tokenize_cuts "x # 2").2.1 _ hrefused
  cases herror
  exact ⟨hline, hnumber _ _ _ hline ⟨.number 0.5, ⟨4, 6⟩⟩ (by simp) _ rfl, ts, hfront, hstuck⟩

end

end GlutSketch.Equation
