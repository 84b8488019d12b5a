import GlutSketch.Proofs.Equation.Matching

/-!
# GlutSketch.Proofs.Equation.Progress

A cursor makes progress and stays on its line.

* `Takes` -- tokens are taken, never the end of the line.
* `Matches.takes`, `Iterates.takes` -- expressions, and iterations of a loop.
* `parseExpression_ends`, `parseEquation_ends` -- whole lines.
* `reading_progresses` -- all of it.
-/

namespace GlutSketch.Equation.Cursor

/-! ## What is taken -/

/-- From `s` to `s'` the tokens between the positions are taken, never the end,
and as many expressions are open as before. -/
structure Takes (tokens : List Token) (s s' : State) : Prop where
  depth : s'.depth = s.depth
  forwards : s.position ≤ s'.position
  onLine : s'.position ≤ tokens.length
  taken : s'.taken = s.taken ++
    ((tokens.drop s.position).take (s'.position - s.position)).map Token.mark

section

variable {tokens ts used rest : List Token} {s : State}

/-- The cursor stands where the tokens before it begin. -/
theorem Before.length_le (h : Before tokens s ts) : s.position + ts.length = tokens.length := by
  obtain ⟨done, rfl, hposition⟩ := h
  rw [hposition, List.length_append]

/-- Reading tokens moves the cursor on and does not change the depth. -/
theorem Before.takes (h : Before tokens s (used ++ rest)) : Takes tokens s (s.after used) where
  depth := rfl
  forwards := Nat.le_add_right _ _
  onLine := by
    have hlength := h.length_le
    rw [List.length_append] at hlength
    simp only [State.after]
    omega
  taken := by
    obtain ⟨done, rfl, hposition⟩ := h
    simp [State.after, hposition]

/-- A reader of at least one token goes on if it has a value. -/
theorem Matches.takes {α : Type} {r : Except Error (Parsed α ts)}
    {out : Except Fault (Except Error α × State)} (hx : Matches s ts (outcome r) out)
    (h : Before tokens s ts) :
    ∃ s', out = .ok ((outcome r).map (·.1), s') ∧ Takes tokens s s' ∧
      ∀ a, (outcome r).map (·.1) = .ok a → s.position < s'.position := by
  generalize hr : outcome r = read at hx
  cases hx with
  | @ok a used rest hts =>
      have hrest := length_of_outcome hr
      rw [hts] at h hrest
      rw [List.length_append] at hrest
      exact ⟨_, rfl, h.takes, fun _ _ => by simp only [State.after]; omega⟩
  | error hts =>
      rw [hts] at h
      refine ⟨_, rfl, h.takes, fun a ha => ?_⟩
      cases ha

/-- An iteration that does not end its loop goes on, also if it ends with an
error. -/
theorem Iterates.takes {α : Type} {depth bound : Nat} {step : α → Run (Option α)}
    {result : α → List Token → Except Error (α × List Token)}
    (hstep : Iterates tokens depth bound step result) (a : α) (h : Before tokens s ts)
    (hdepth : s.depth = depth) (hbound : ts.length ≤ bound) :
    (step a).exec s = .ok (.ok none, s) ∨
      ∃ r s', (step a).exec s = .ok (r, s') ∧ Takes tokens s s' ∧ s.position < s'.position := by
  rcases hstep a s ts h hdepth hbound with ⟨hnone, -⟩ | ⟨t, more, rfl, next, hnext, -⟩
  · exact .inl hnone
  · right
    generalize (step a).exec s = out at hnext
    generalize next.map (fun p => (some p.1, p.2)) = r at hnext
    cases hnext with
    | @ok _ used _ hts | @error _ used _ hts =>
        rw [hts, ← List.cons_append] at h
        rw [State.after_after]
        refine ⟨_, _, rfl, h.takes, ?_⟩
        simp only [State.after, List.singleton_append, List.length_cons]
        omega

end

/-! ## Whole lines -/

/-- A run ends with the result `r`, on the line and with as many expressions
open as before. -/
def Ends {α : Type} (tokens : List Token) (s : State) (r : Except Error α)
    (out : Except Fault (Except Error α × State)) : Prop :=
  ∃ s', out = .ok (r, s') ∧ s.position ≤ s'.position ∧ s'.position ≤ tokens.length ∧
    s'.depth = s.depth

section

variable {α β : Type} {tokens ts : List Token} {stop fuel : Nat} {s : State} {t : Token}

/-- A reader that matches a reader of lists ends as that one does. -/
theorem Matches.ends {r : Except Error (α × List Token)}
    {out : Except Fault (Except Error α × State)} (hx : Matches s ts r out)
    (h : Before tokens s ts) : Ends tokens s (r.map (·.1)) out := by
  cases hx with
  | ok hts | error hts =>
      rw [hts] at h
      exact ⟨_, rfl, h.takes.forwards, h.takes.onLine, rfl⟩

theorem Ends.refuse (e : Error) (h : Before tokens s ts) :
    Ends tokens s (.error e) ((Run.refuse e : Run α).exec s) :=
  ⟨s, rfl, Nat.le_refl _, by have := h.length_le; omega, rfl⟩

/-- Tokens that were taken before. -/
theorem Ends.of_after {used : List Token} {r : Except Error α}
    {out : Except Fault (Except Error α × State)} (h : Ends tokens (s.after used) r out) :
    Ends tokens s r out := by
  obtain ⟨s', hout, hle, hrest⟩ := h
  exact ⟨s', hout, Nat.le_trans (Nat.le_add_right _ _) hle, hrest⟩

/-- A token is taken, and then what follows is read. -/
theorem Ends.advance {f : Mark → Run β} {r : Except Error β} (h : Before tokens s (t :: ts))
    (hf : Ends tokens (s.after [t]) r ((f t.mark).exec (s.after [t]))) :
    Ends tokens s r ((Cursor.advance (marks stop tokens) >>= f).exec s) := by
  rw [advance_bind h]
  exact hf.of_after

theorem Ends.map {x : Run α} {k : α → β} {r : Except Error α} (hx : Ends tokens s r (x.exec s)) :
    Ends tokens s (r.map k) ((x >>= fun a => Pure.pure (k a)).exec s) := by
  obtain ⟨s', hout, hrest⟩ := hx
  refine ⟨s', ?_, hrest⟩
  rw [Run.exec_bind, hout]
  cases r <;> rfl

theorem expectEnd_matches (stop : Nat) (h : Before tokens s ts) :
    Matches s ts ((Equation.expectEnd ts).map fun _ => ((), ts))
      ((expectEnd (marks stop tokens)).exec s) := by
  rw [expectEnd, peek_bind h]
  cases ts with
  | nil => exact .pure ()
  | cons t ts => exact .refuse _

/-- Reading an expression to the end of the line. -/
theorem parseExpression_ends (h : Before tokens s ts) (hdepth : s.depth = 0)
    (hfuel : ts.length < fuel) :
    Ends tokens s (Equation.parseExpression stop ts)
      ((parseExpression (marks stop tokens) fuel).exec s) := by
  have hread := expression_implements stop fuel 0 0 s ts h hdepth hfuel
  have hmatches : Matches s ts
      ((outcome (Equation.expression stop maxNesting 0 ts)).bind fun p =>
        (Equation.expectEnd p.2).map fun _ => p)
      ((parseExpression (marks stop tokens) fuel).exec s) := by
    rw [parseExpression]
    refine hread.bind fun e used rest _ hts => ?_
    rw [hts] at h
    have hend := (expectEnd_matches stop h.after).map (k := fun _ => e)
    cases hrest : Equation.expectEnd rest <;> rw [hrest] at hend <;> exact hend
  have hresult : Equation.parseExpression stop ts =
      ((outcome (Equation.expression stop maxNesting 0 ts)).bind fun p =>
        (Equation.expectEnd p.2).map fun _ => p).map (·.1) := by
    rw [Equation.parseExpression]
    cases Equation.expression stop maxNesting 0 ts with
    | error e => rfl
    | ok p =>
        simp only [outcome_ok, Except.bind]
        cases Equation.expectEnd p.rest <;> rfl
  rw [hresult]
  exact hmatches.ends h

/-- The number of a vertical line.  At the end of the line the position
stays. -/
theorem constant_ends (negative : Bool) (first : Span) (h : Before tokens s ts) :
    Ends tokens s (verticalNumber stop negative first ts)
      ((constant (marks stop tokens) negative first).exec s) := by
  have hlength := h.length_le
  rw [constant]
  cases ts with
  | nil =>
      have hget := getElem?_marks stop h
      have hlast : ¬ s.position < (marks stop tokens).length - 1 := by
        rw [List.length_nil] at hlength
        simp [marks, ← hlength]
      have hexec : (advance (marks stop tokens)).exec s = .ok (.ok ⟨none, frontSpan stop []⟩,
          { s with taken := s.taken ++ [⟨none, frontSpan stop []⟩] }) := by
        simp only [advance, hget, if_neg hlast]
        rfl
      rw [Run.exec_bind, hexec]
      exact ⟨_, rfl, Nat.le_refl _, Nat.le_of_eq hlength, rfl⟩
  | cons t rest =>
      refine .advance h ?_
      have hafter := h.next
      obtain ⟨kind, place⟩ := t
      cases kind with
      | number value =>
          have hend := ((expectEnd_matches stop hafter).ends hafter).map
            (k := fun _ => (Equation.vertical (if negative then -value else value) : Equation Expr))
          simp only [Token.mark, verticalNumber]
          cases hrest : Equation.expectEnd rest <;> rw [hrest] at hend <;> exact hend
      | _ => exact .refuse _ hafter

theorem optionalSign_signed {kind : TokenKind} {sign : Sign} {place : Span}
    (hsign : IsSign kind sign) (h : Before tokens s (⟨kind, place⟩ :: ts)) :
    (optionalSign (marks stop tokens)).exec s =
      .ok (.ok (sign = .minus), s.after [⟨kind, place⟩]) := by
  rw [optionalSign, peek_bind h]
  cases hsign <;> exact advance_bind h

theorem optionalSign_unsigned (h : Before tokens s ts)
    (hunsigned : ∀ kind ∈ found ts, ∀ sign, ¬ IsSign kind sign) :
    (optionalSign (marks stop tokens)).exec s = .ok (.ok false, s) := by
  rw [optionalSign, peek_bind h]
  dsimp only
  split
  · next hminus => exact absurd .minus (hunsigned _ hminus _)
  · next hplus => exact absurd .plus (hunsigned _ hplus _)
  · rfl

/-- Reading the number of a vertical line. -/
theorem parseVertical_ends (h : Before tokens s ts) :
    Ends tokens s (Equation.parseVertical stop ts)
      ((parseVertical (marks stop tokens)).exec s) := by
  rw [parseVertical, peek_bind h, Run.exec_bind]
  by_cases hsign : ∃ kind ∈ found ts, ∃ sign, IsSign kind sign
  · obtain ⟨kind, hkind, sign, hsign⟩ := hsign
    obtain ⟨place, rest, rfl⟩ := exists_of_found hkind
    rw [optionalSign_signed hsign h, parseVertical_signed hsign]
    exact (constant_ends _ _ h.next).of_after
  · have hunsigned : ∀ kind ∈ found ts, ∀ sign, ¬ IsSign kind sign := by
      intro kind hkind sign h
      exact hsign ⟨kind, hkind, sign, h⟩
    rw [optionalSign_unsigned h hunsigned, parseVertical_unsigned hunsigned]
    exact constant_ends _ _ h

/-- What stands some marks behind the position, if there is so much of the
line. -/
theorem kind_marks (h : Before tokens s ts) (offset : Nat) :
    ((marks stop tokens)[s.position + offset]?).bind (·.kind) = found (ts.drop offset) := by
  have hlength := h.length_le
  by_cases hoffset : offset ≤ ts.length
  · have hskip : Before tokens { s with position := s.position + offset } (ts.drop offset) := by
      obtain ⟨done, rfl, hposition⟩ := h
      refine ⟨done ++ ts.take offset, ?_, ?_⟩
      · rw [List.append_assoc, List.take_append_drop]
      · rw [List.length_append, List.length_take, Nat.min_eq_left hoffset, ← hposition]
    rw [getElem?_marks stop hskip]
    rfl
  · have hlast : (marks stop tokens).length ≤ s.position + offset := by
      simp only [marks, List.length_append, List.length_map, List.length_singleton]
      omega
    rw [List.getElem?_eq_none hlast, List.drop_eq_nil_of_le (Nat.le_of_not_le hoffset)]
    rfl

/-- A line defines a name if its first two tokens are the name and an equals
sign. -/
theorem defines_iff {name : String} :
    Defines name ts ↔
      found (ts.drop 0) = some (.identifier name) ∧ found (ts.drop 1) = some .equals := by
  constructor
  · rintro ⟨place, equals, rest, rfl⟩
    exact ⟨rfl, rfl⟩
  · rintro ⟨hname, hequals⟩
    obtain ⟨place, more, rfl⟩ := exists_of_found hname
    obtain ⟨equals, rest, rfl⟩ := exists_of_found hequals
    exact ⟨place, equals, rest, rfl⟩

/-- Looking for a name and an equals sign takes nothing. -/
theorem defines_eq (stop : Nat) (name : String) (h : Before tokens s ts) :
    ∃ b, (defines (marks stop tokens) name).exec s = .ok (.ok b, s) ∧
      (b = true ↔ Defines name ts) := by
  refine ⟨_, rfl, ?_⟩
  simp only [kind_marks h, defines_iff, decide_eq_true_eq]

/-- Reading a whole line. -/
theorem parseEquation_ends (h : Before tokens s ts) (hdepth : s.depth = 0)
    (hfuel : ts.length < fuel) :
    Ends tokens s (Equation.parseEquation stop ts)
      ((parseEquation (marks stop tokens) fuel).exec s) := by
  obtain ⟨isVertical, hvertical, hx⟩ := defines_eq stop "x" h
  obtain ⟨isNamed, hnamed, hy⟩ := defines_eq stop "y" h
  rw [parseEquation, peek_bind h]
  dsimp only
  by_cases hempty : found ts = none
  · have hnil : ts = [] := by simpa [found] using hempty
    rw [if_pos hempty, hnil]
    exact .refuse _ h
  · have hne : ts ≠ [] := fun hnil => hempty (by rw [hnil]; rfl)
    rw [if_neg hempty, Run.exec_bind, hvertical]
    dsimp only
    by_cases hdefx : Defines "x" ts
    · rw [if_pos (hx.2 hdefx)]
      obtain ⟨place, equals, rest, rfl⟩ := hdefx
      have hafter := h.next
      exact .advance h (.advance hafter (parseVertical_ends hafter.next))
    · rw [if_neg (mt hx.1 hdefx), Run.exec_bind, hnamed]
      dsimp only
      by_cases hdefy : Defines "y" ts
      · rw [if_pos (hy.2 hdefy)]
        obtain ⟨place, equals, rest, rfl⟩ := hdefy
        have hafter := h.next
        have hrest : rest.length < fuel := by
          simp only [List.length_cons] at hfuel
          omega
        exact .advance h (.advance hafter
          (parseExpression_ends hafter.next hdepth hrest).map)
      · rw [if_neg (mt hy.1 hdefy), parseEquation_graph hne hdefx hdefy]
        exact (parseExpression_ends h hdepth hfuel).map

end

/-! ## Progress -/

/-- **Progress**: from every position on the line and every count of open
expressions, a run of the reader of expressions ends without a fault, with the
result of reading the rest of the tokens.  It takes tokens only, one at least if
it has a value, and leaves the count as it was.  An iteration of a loop either
ends it or takes a token, and whole lines are read without a fault. -/
theorem reading_progresses (stop : Nat) (tokens : List Token) :
    (∀ fuel power s, s.position ≤ tokens.length → tokens.length - s.position < fuel →
      ∃ r s', (expression (marks stop tokens) fuel power).exec s = .ok (r, s') ∧
        Takes tokens s s' ∧ (∀ e, r = .ok e → s.position < s'.position) ∧
        r = (outcome (Equation.expression stop (maxNesting - s.depth) power
          (tokens.drop s.position))).map (·.1)) ∧
    (∀ fuel power lhs s, s.position ≤ tokens.length → tokens.length - s.position ≤ fuel →
      (operatorStep (marks stop tokens) (expression (marks stop tokens) fuel) power lhs).exec s =
        .ok (.ok none, s) ∨
      ∃ r s',
        (operatorStep (marks stop tokens) (expression (marks stop tokens) fuel) power lhs).exec s =
          .ok (r, s') ∧ Takes tokens s s' ∧ s.position < s'.position) ∧
    (∀ fuel args s, s.position ≤ tokens.length → tokens.length - s.position ≤ fuel →
      (argumentStep (marks stop tokens) (expression (marks stop tokens) fuel) args).exec s =
        .ok (.ok none, s) ∨
      ∃ r s',
        (argumentStep (marks stop tokens) (expression (marks stop tokens) fuel) args).exec s =
          .ok (r, s') ∧ Takes tokens s s' ∧ s.position < s'.position) ∧
    ∀ fuel, tokens.length < fuel →
      Ends tokens .start (Equation.parseExpression stop tokens)
        ((parseExpression (marks stop tokens) fuel).exec .start) ∧
      Ends tokens .start (Equation.parseEquation stop tokens)
        ((parseEquation (marks stop tokens) fuel).exec .start) := by
  refine ⟨?_, ?_, ?_, ?_⟩
  · intro fuel power s hposition hfuel
    rw [← List.length_drop] at hfuel
    have h := before_drop hposition
    obtain ⟨s', hout, htakes, hadvanced⟩ :=
      (expression_implements stop fuel s.depth power s _ h rfl hfuel).takes h
    exact ⟨_, s', hout, htakes, hadvanced, rfl⟩
  · intro fuel power lhs s hposition hfuel
    rw [← List.length_drop] at hfuel
    exact (operatorStep_iterates (expression_implements stop fuel s.depth)).takes lhs
      (before_drop hposition) rfl hfuel
  · intro fuel args s hposition hfuel
    rw [← List.length_drop] at hfuel
    exact (argumentStep_iterates (expression_implements stop fuel s.depth)).takes args
      (before_drop hposition) rfl hfuel
  · intro fuel hfuel
    have h : Before tokens .start tokens := ⟨[], rfl, rfl⟩
    exact ⟨parseExpression_ends h rfl hfuel, parseEquation_ends h rfl hfuel⟩

end GlutSketch.Equation.Cursor
