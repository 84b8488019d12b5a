import GlutSketch.Proofs.Equation.Lexeme
import GlutSketch.Proofs.Equation.Reading

/-!
# GlutSketch.Proofs.Equation.Places

The places of the tokens of a line.  Every token has at least one character, and
the tokens stand in the order of the text without overlap (`InOrder`).  What the
lexer does at a place is one of four things, and `tokensFrom_induction` goes
through a text by them.
-/

namespace GlutSketch.Equation

/-! ## Tokens in order -/

/-- Tokens that stand one after the other, none of them empty, from `start` on
and up to `stop`. -/
def InOrder (stop : Nat) : (start : Nat) → List Token → Prop
  | start, [] => start ≤ stop
  | start, t :: ts =>
      start ≤ t.span.start ∧ t.span.start < t.span.stop ∧ InOrder stop t.span.stop ts

section

variable {start start' stop : Nat} {ts : List Token}

/-- Tokens in order may begin later than they have to. -/
theorem InOrder.mono (h : InOrder stop start ts) (hle : start' ≤ start) :
    InOrder stop start' ts := by
  cases ts with
  | nil => exact Nat.le_trans hle h
  | cons t ts => exact ⟨Nat.le_trans hle h.1, h.2⟩

/-- Even without a token the start is not after the end. -/
theorem InOrder.start_le (h : InOrder stop start ts) : start ≤ stop := by
  induction ts generalizing start with
  | nil => exact h
  | cons t ts ih =>
      have hrest := ih h.2.2
      have hstart := h.1
      have hpos := h.2.1
      omega

/-- Every token lies within the bounds and is not empty. -/
theorem InOrder.of_mem {t : Token} (h : InOrder stop start ts) (ht : t ∈ ts) :
    start ≤ t.span.start ∧ t.span.start < t.span.stop ∧ t.span.stop ≤ stop := by
  induction ts generalizing start with
  | nil => cases ht
  | cons u ts ih =>
      rcases List.mem_cons.1 ht with rfl | ht
      · exact ⟨h.1, h.2.1, h.2.2.start_le⟩
      · have hle := (ih h.2.2 ht).1
        have hstart := h.1
        have hpos := h.2.1
        exact ⟨by omega, (ih h.2.2 ht).2⟩

/-- The tokens before a token end before it, and those after it begin after
it. -/
theorem inOrder_append_cons_iff {t : Token} {ls rs : List Token} :
    InOrder stop start (ls ++ t :: rs) ↔ InOrder t.span.start start ls ∧
      t.span.start < t.span.stop ∧ InOrder stop t.span.stop rs := by
  induction ls generalizing start with
  | nil => simp [InOrder]
  | cons u ls ih => simp [InOrder, ih, and_assoc]

/-- What stands at the front comes after all that was before it. -/
theorem InOrder.le_frontSpan (h : InOrder stop start ts) :
    start ≤ (frontSpan stop ts).start ∧ (frontSpan stop ts).start ≤ (frontSpan stop ts).stop := by
  cases ts with
  | nil => exact ⟨h, Nat.le_refl _⟩
  | cons t ts => exact ⟨h.1, Nat.le_of_lt h.2.1⟩

/-- What stands at the front is within the line, and empty only at its end. -/
theorem InOrder.frontSpan_le (h : InOrder stop start ts) :
    (frontSpan stop ts).stop ≤ stop ∧
      ((frontSpan stop ts).start < (frontSpan stop ts).stop ∨
        (frontSpan stop ts).start = stop) := by
  cases ts with
  | nil => exact ⟨Nat.le_refl _, .inr rfl⟩
  | cons t ts => exact ⟨h.2.2.start_le, .inl h.2.1⟩

end

/-! ## From place to place -/

section

variable {start size : Nat} {c : Char} {cs : List Char} {kind : TokenKind} {ts : List Token}

theorem tokensFrom_nil (start : Nat) : tokensFrom start [] = .ok [] := by
  rw [tokensFrom]

/-- White space is passed. -/
theorem tokensFrom_blank (hc : isWhiteSpace c) :
    tokensFrom start (c :: cs) = tokensFrom (start + 1) cs := by
  rw [tokensFrom, if_pos hc]

/-- A character that no lexeme begins with is reported with its place. -/
theorem tokensFrom_stuck (hc : ¬ isWhiteSpace c) (h : lexeme? (c :: cs) = none) :
    tokensFrom start (c :: cs) = .error ⟨.unexpectedCharacter c, ⟨start, start + 1⟩⟩ := by
  rw [tokensFrom, if_neg hc, h]

/-- A lexeme becomes a token at its place. -/
theorem tokensFrom_token (hc : ¬ isWhiteSpace c) (h : lexeme? (c :: cs) = some (kind, size)) :
    tokensFrom start (c :: cs) =
      (tokensFrom (start + size) (cs.drop (size - 1))).map
        (⟨kind, ⟨start, start + size⟩⟩ :: ·) := by
  rw [tokensFrom, if_neg hc, h]
  dsimp only
  cases tokensFrom (start + size) (cs.drop (size - 1)) <;> rfl

/-- Where tokens are cut and no white space stands, the first is the lexeme at
the front. -/
theorem exists_of_tokensFrom_eq_ok (hc : ¬ isWhiteSpace c)
    (h : tokensFrom start (c :: cs) = .ok ts) :
    ∃ kind size rest, lexeme? (c :: cs) = some (kind, size) ∧
      tokensFrom (start + size) (cs.drop (size - 1)) = .ok rest ∧
      ts = ⟨kind, ⟨start, start + size⟩⟩ :: rest := by
  cases hl : lexeme? (c :: cs) with
  | none =>
      rw [tokensFrom_stuck hc hl] at h
      cases h
  | some p =>
      rw [tokensFrom_token hc hl, Except.map_eq_ok_iff] at h
      obtain ⟨rest, hrest, rfl⟩ := h
      exact ⟨p.1, p.2, rest, rfl, hrest, rfl⟩

/-- What holds at the end of a text, and at a place if it holds after the white
space or the lexeme that stands there, holds at every place. -/
theorem tokensFrom_induction {motive : Nat → List Char → Prop} (nil : ∀ start, motive start [])
    (blank : ∀ start c cs, isWhiteSpace c → motive (start + 1) cs → motive start (c :: cs))
    (stuck : ∀ start c cs, ¬ isWhiteSpace c → lexeme? (c :: cs) = none → motive start (c :: cs))
    (token : ∀ start c cs kind size, ¬ isWhiteSpace c → lexeme? (c :: cs) = some (kind, size) →
      motive (start + size) (cs.drop (size - 1)) → motive start (c :: cs))
    (start : Nat) (cs : List Char) : motive start cs := by
  -- whether the tokens after a lexeme can be cut makes no difference here
  induction start, cs using tokensFrom.induct with
  | case1 start => exact nil start
  | case2 start c cs hspace ih => exact blank start c cs hspace ih
  | case3 start c cs hspace hnone => exact stuck start c cs hspace hnone
  | case4 start c cs hspace kind size hsome _ _ ih => exact token _ _ _ _ _ hspace hsome ih
  | case5 start c cs hspace kind size hsome _ _ ih => exact token _ _ _ _ _ hspace hsome ih

/-- The tokens that are cut from a text lie within it, in order. -/
theorem inOrder_tokensFrom (h : tokensFrom start cs = .ok ts) :
    InOrder (start + cs.length) start ts := by
  induction start, cs using tokensFrom_induction generalizing ts with
  | nil start =>
      rw [tokensFrom_nil] at h
      cases h
      exact Nat.le_add_right ..
  | blank start c cs hspace ih =>
      rw [tokensFrom_blank hspace] at h
      have hlength : start + 1 + cs.length = start + (c :: cs).length := by
        rw [List.length_cons]
        omega
      exact hlength ▸ (ih h).mono (Nat.le_add_right start 1)
  | stuck start c cs hspace hnone =>
      rw [tokensFrom_stuck hspace hnone] at h
      cases h
  | token start c cs kind size hspace hsome ih =>
      rw [tokensFrom_token hspace hsome, Except.map_eq_ok_iff] at h
      obtain ⟨rest, hrest, rfl⟩ := h
      obtain ⟨hpos, hle⟩ := size_of_lexeme? hsome
      have hlength : start + size + (cs.drop (size - 1)).length = start + (c :: cs).length := by
        rw [List.length_cons] at hle ⊢
        rw [List.length_drop]
        omega
      have htokens : InOrder (start + (c :: cs).length) (start + size) rest := hlength ▸ ih hrest
      exact ⟨Nat.le_refl _, Nat.lt_add_of_pos_right hpos, htokens⟩

/-- The tokens of a source lie in order within it. -/
theorem inOrder_tokenize {source : String} (h : tokenize source = .ok ts) :
    InOrder source.length 0 ts := by
  have hline := inOrder_tokensFrom h
  rwa [Nat.zero_add, String.length_toList] at hline

end

end GlutSketch.Equation
