import GlutSketch.Proofs.Equation.Cursor
import GlutSketch.Proofs.Equation.Parsing

/-!
# GlutSketch.Proofs.Equation.Matching

The readers with a cursor against the readers of lists.  From every position of
a line, with fuel for the tokens that are left, a run has the result of reading
the rest of the tokens; it takes a part of these tokens and leaves the count of
open expressions as it was, also when it refuses the line.

* `Matches` -- what a run does, given the result of reading a list of tokens.
* `whileSome_matches` -- a loop, from what one iteration does.
* `operatorStep_iterates`, `argumentStep_iterates` -- the iterations.
* `expression_implements` -- an expression.
-/

namespace GlutSketch.Equation.Cursor

/-! ## Positions -/

/-- The rest `ts` of the tokens begins at the position of the state. -/
def Before (tokens : List Token) (s : State) (ts : List Token) : Prop :=
  ∃ done, tokens = done ++ ts ∧ s.position = done.length

/-- The state after some tokens are taken. -/
def State.after (s : State) (used : List Token) : State :=
  ⟨s.position + used.length, s.depth, s.taken ++ used.map Token.mark⟩

section

variable {tokens ts used rest : List Token} {stop : Nat} {s : State} {t : Token}

@[simp] theorem State.after_nil (s : State) : s.after [] = s := by
  simp [State.after]

theorem State.after_after (s : State) (used more : List Token) :
    (s.after used).after more = s.after (used ++ more) := by
  simp [State.after, Nat.add_assoc]

/-- Reading some tokens leaves the rest of them. -/
theorem Before.after (h : Before tokens s (used ++ rest)) : Before tokens (s.after used) rest := by
  obtain ⟨done, htokens, hposition⟩ := h
  exact ⟨done ++ used, by rw [htokens, List.append_assoc],
    by rw [State.after, hposition, List.length_append]⟩

theorem Before.next (h : Before tokens s (t :: ts)) : Before tokens (s.after [t]) ts :=
  Before.after h

/-- Before every position within the line stand the tokens from there on. -/
theorem before_drop (h : s.position ≤ tokens.length) :
    Before tokens s (tokens.drop s.position) :=
  ⟨tokens.take s.position, (List.take_append_drop _ _).symm, by rw [List.length_take]; omega⟩

/-- The mark at a position is the first token of the rest, or the end. -/
theorem getElem?_marks (stop : Nat) (h : Before tokens s ts) :
    (marks stop tokens)[s.position]? = some ⟨found ts, frontSpan stop ts⟩ := by
  obtain ⟨done, rfl, hposition⟩ := h
  rw [marks, List.map_append, List.append_assoc, hposition, ← List.length_map Token.mark,
    List.getElem?_append_right (Nat.le_refl _), Nat.sub_self]
  cases ts <;> rfl

/-- The cursor sees the first of the tokens before it, or the end of the
line. -/
theorem peek_eq (h : Before tokens s ts) :
    (peek (marks stop tokens)).exec s = .ok (.ok ⟨found ts, frontSpan stop ts⟩, s) := by
  simp only [peek, getElem?_marks stop h]

/-- The cursor passes the first of the tokens before it. -/
theorem advance_eq (h : Before tokens s (t :: ts)) :
    (advance (marks stop tokens)).exec s = .ok (.ok t.mark, s.after [t]) := by
  have hget := getElem?_marks stop h
  obtain ⟨done, rfl, hposition⟩ := h
  have hnext : s.position < (marks stop (done ++ t :: ts)).length - 1 := by
    simp [marks, hposition]
  simp only [advance, hget, if_pos hnext]
  rfl

end

/-! ## Runs against readers of lists -/

/-- A run has the result `r` of reading the tokens `ts`: it takes the tokens
that are not left, and before an error some of the tokens; nothing else of the
state changes. -/
inductive Matches {α : Type} (s : State) (ts : List Token) :
    Except Error (α × List Token) → Except Fault (Except Error α × State) → Prop
  | ok {a : α} {used rest : List Token} (h : ts = used ++ rest) :
      Matches s ts (.ok (a, rest)) (.ok (.ok a, s.after used))
  | error {e : Error} {used rest : List Token} (h : ts = used ++ rest) :
      Matches s ts (.error e) (.ok (.error e, s.after used))

section

variable {α β : Type} {tokens ts used rest : List Token} {stop : Nat} {s : State} {t : Token}
  {x : Run α} {f : α → Run β} {r : Except Error (α × List Token)}
  {g : α × List Token → Except Error (β × List Token)}

theorem Matches.pure (a : α) : Matches s ts (.ok (a, ts)) ((Pure.pure a : Run α).exec s) := by
  have h : Matches s ts (.ok (a, ts)) (.ok (.ok a, s.after [])) := .ok (List.nil_append _).symm
  rwa [State.after_nil] at h

theorem Matches.refuse (e : Error) : Matches s ts (.error e) ((Run.refuse e : Run α).exec s) := by
  have h : Matches (α := α) s ts (.error e) (.ok (.error e, s.after [])) :=
    .error (List.nil_append _).symm
  rwa [State.after_nil] at h

/-- Tokens that were taken before. -/
theorem Matches.of_after {out : Except Fault (Except Error α × State)}
    (h : Matches (s.after used) rest r out) (hts : ts = used ++ rest) : Matches s ts r out := by
  cases h with
  | ok hrest =>
      rw [State.after_after]
      exact .ok (by rw [hts, hrest, List.append_assoc])
  | error hrest =>
      rw [State.after_after]
      exact .error (by rw [hts, hrest, List.append_assoc])

/-- One run after another.  The first may have begun before the tokens `ts`. -/
theorem Matches.bind {s₀ : State} (hx : Matches s ts r (x.exec s₀))
    (hf : ∀ a used rest, r = .ok (a, rest) → ts = used ++ rest →
      Matches (s.after used) rest (g (a, rest)) ((f a).exec (s.after used))) :
    Matches s ts (r.bind g) ((x >>= f).exec s₀) := by
  rw [Run.exec_bind]
  generalize x.exec s₀ = out at hx
  cases hx with
  | ok hts => exact (hf _ _ _ rfl hts).of_after hts
  | error hts => exact .error hts

/-- A value that is made from what was read. -/
theorem Matches.map {k : α → β} (hx : Matches s ts r (x.exec s)) :
    Matches s ts (r.map fun p => (k p.1, p.2)) ((x >>= fun a => Pure.pure (k a)).exec s) := by
  have h := hx.bind (f := fun a => Pure.pure (k a)) (g := fun p => .ok (k p.1, p.2))
    fun a _ rest _ _ => .pure (k a)
  have hmap : r.map (fun p => (k p.1, p.2)) = r.bind fun p => .ok (k p.1, p.2) := by
    cases r <;> rfl
  rwa [hmap]

theorem peek_bind {f : Mark → Run β} (h : Before tokens s ts) :
    (peek (marks stop tokens) >>= f).exec s = (f ⟨found ts, frontSpan stop ts⟩).exec s := by
  rw [Run.exec_bind, peek_eq h]

theorem advance_bind {f : Mark → Run β} (h : Before tokens s (t :: ts)) :
    (advance (marks stop tokens) >>= f).exec s = (f t.mark).exec (s.after [t]) := by
  rw [Run.exec_bind, advance_eq h]

/-- A token is taken, and then what follows is read. -/
theorem Matches.advance {f : Mark → Run β} {r : Except Error (β × List Token)}
    (h : Before tokens s (t :: ts))
    (hf : Matches (s.after [t]) ts r ((f t.mark).exec (s.after [t]))) :
    Matches s (t :: ts) r ((Cursor.advance (marks stop tokens) >>= f).exec s) := by
  rw [advance_bind h]
  exact hf.of_after rfl

/-- Asking for a token at the cursor is asking for it at the front of the
list. -/
theorem expect_matches {wanted : TokenKind} (h : Before tokens s ts) :
    Matches s ts (outcome (Equation.expect stop wanted ts))
      ((expect (marks stop tokens) wanted).exec s) := by
  rw [expect, peek_bind h]
  cases ts with
  | nil => exact .refuse _
  | cons t ts =>
      by_cases hkind : t.kind = wanted
      · have hfound : found (t :: ts) = some wanted := congrArg some hkind
        simp only [Equation.expect, if_pos hkind, outcome_ok]
        rw [if_pos hfound]
        exact .advance h (.pure _)
      · have hfound : ¬ found (t :: ts) = some wanted :=
          fun hfound => hkind (Option.some.inj hfound)
        simp only [Equation.expect, if_neg hkind, outcome_error]
        rw [if_neg hfound]
        exact .refuse _

/-- A token that stands there is taken. -/
theorem Matches.expect {wanted : TokenKind} {place : Span} {f : Span → Run β}
    {r : Except Error (β × List Token)} (h : Before tokens s (⟨wanted, place⟩ :: ts))
    (hf : Matches (s.after [⟨wanted, place⟩]) ts r ((f place).exec (s.after [⟨wanted, place⟩]))) :
    Matches s (⟨wanted, place⟩ :: ts) r
      ((Cursor.expect (marks stop tokens) wanted >>= f).exec s) := by
  have hexec : (Cursor.expect (marks stop tokens) wanted).exec s =
      .ok (.ok place, s.after [⟨wanted, place⟩]) := by
    have hfound : found (⟨wanted, place⟩ :: ts) = some wanted := rfl
    rw [Cursor.expect, peek_bind h]
    dsimp only
    rw [if_pos hfound, advance_bind h]
    rfl
  rw [Run.exec_bind, hexec]
  exact hf.of_after rfl

/-- What is read and closed by a token that is wanted. -/
theorem Matches.closed {γ : Type} {wanted : TokenKind} {f : α × Span → γ} (h : Before tokens s ts)
    (hx : Matches s ts r (x.exec s)) :
    Matches s ts ((r.bind fun p =>
        (outcome (Equation.expect stop wanted p.2)).map fun q => ((p.1, q.1), q.2)).map
          fun p => (f p.1, p.2))
      ((x >>= fun a => Cursor.expect (marks stop tokens) wanted >>= fun close =>
        Pure.pure (f (a, close))).exec s) := by
  have hmap : ((r.bind fun p =>
        (outcome (Equation.expect stop wanted p.2)).map fun q => ((p.1, q.1), q.2)).map
          fun p => (f p.1, p.2)) =
      r.bind fun p => (outcome (Equation.expect stop wanted p.2)).map fun q =>
        (f (p.1, q.1), q.2) := by
    cases r with
    | error e => rfl
    | ok p =>
        simp only [Except.bind]
        cases outcome (Equation.expect stop wanted p.2) <;> rfl
  rw [hmap]
  refine hx.bind fun a used rest _ hts => ?_
  rw [hts] at h
  exact (expect_matches h.after).map (k := fun close => f (a, close))

end

/-! ## Iterations -/

/-- With `depth` expressions open and fewer than `bound` tokens left, a run does
what the reader of lists does. -/
def Implements (tokens : List Token) (depth bound : Nat) (run : Nat → Run Expr) (read : Reader) :
    Prop :=
  ∀ power s ts, Before tokens s ts → s.depth = depth → ts.length < bound →
    Matches s ts (outcome (read power ts)) ((run power).exec s)

section

variable {tokens ts : List Token} {stop depth bound power : Nat} {s : State} {run : Nat → Run Expr}
  {read : Reader} {lhs : Expr} {args : List Expr} {kind : TokenKind} {place : Span}

/-- Without a comma the arguments are complete. -/
theorem argumentStep_none (h : Before tokens s ts) (hcomma : found ts ≠ some .comma) :
    (argumentStep (marks stop tokens) run args).exec s = .ok (.ok none, s) := by
  rw [argumentStep, peek_bind h]
  dsimp only
  rw [if_neg hcomma]
  rfl

/-- After a comma an argument is read. -/
theorem argumentStep_comma (stop : Nat) (args : List Expr)
    (hread : Implements tokens depth bound run read) (h : Before tokens s (⟨.comma, place⟩ :: ts))
    (hdepth : s.depth = depth)
    (hbound : ts.length < bound) :
    Matches (s.after [⟨.comma, place⟩]) ts
      ((outcome (read 0 ts)).map fun p => (some (args ++ [p.1]), p.2))
      ((argumentStep (marks stop tokens) run args).exec s) := by
  have hfound : found (⟨.comma, place⟩ :: ts) = some .comma := rfl
  rw [argumentStep, peek_bind h]
  dsimp only
  rw [if_pos hfound, advance_bind h]
  exact .map (k := fun e => some (args ++ [e]))
    (hread _ _ _ h.next hdepth hbound)

/-- Without an operator that binds strongly enough the expression is
complete. -/
theorem operatorStep_none (h : Before tokens s ts) (hsettled : Settled power ts) :
    (operatorStep (marks stop tokens) run power lhs).exec s = .ok (.ok none, s) := by
  rw [operatorStep, peek_bind h]
  dsimp only
  split
  · rfl
  · next op hop =>
      rw [if_pos (hsettled op hop)]
      rfl

/-- After an operator its right operand is read. -/
theorem operatorStep_operator {op : BinaryOp} (stop : Nat) (lhs : Expr)
    (hread : Implements tokens depth bound run read)
    (h : Before tokens s (⟨kind, place⟩ :: ts)) (hdepth : s.depth = depth)
    (hbound : ts.length < bound) (hop : kind.binaryOp? = some op) (hpower : power ≤ op.leftPower) :
    Matches (s.after [⟨kind, place⟩]) ts
      ((outcome (read op.rightPower ts)).map fun p => (some (operationTree op lhs p.1), p.2))
      ((operatorStep (marks stop tokens) run power lhs).exec s) := by
  have hfound : (found (⟨kind, place⟩ :: ts)).bind TokenKind.binaryOp? = some op := hop
  rw [operatorStep, peek_bind h]
  simp only [hfound]
  rw [if_neg (Nat.not_lt.2 hpower), advance_bind h]
  exact .map (k := fun rhs => some (operationTree op lhs rhs))
    (hread _ _ _ h.next hdepth hbound)

end

/-! ## Loops -/

/-- An iteration either ends the loop, without taking a token, or takes a token
at least and leaves the loop with the same result as before. -/
def Iterates {α : Type} (tokens : List Token) (depth bound : Nat) (step : α → Run (Option α))
    (result : α → List Token → Except Error (α × List Token)) : Prop :=
  ∀ a s ts, Before tokens s ts → s.depth = depth → ts.length ≤ bound →
    ((step a).exec s = .ok (.ok none, s) ∧ result a ts = .ok (a, ts)) ∨
    ∃ t more, ts = t :: more ∧ ∃ next : Except Error (α × List Token),
      Matches (s.after [t]) more (next.map fun p => (some p.1, p.2)) ((step a).exec s) ∧
      result a ts = next.bind fun p => result p.1 p.2

/-- A loop ends with fuel for one iteration more than there are tokens. -/
theorem whileSome_matches {α : Type} {tokens : List Token} {depth bound : Nat}
    {step : α → Run (Option α)} {result : α → List Token → Except Error (α × List Token)}
    (hstep : Iterates tokens depth bound step result) (fuel : Nat) (a : α) {s : State}
    {ts : List Token} (h : Before tokens s ts) (hdepth : s.depth = depth)
    (hbound : ts.length ≤ bound) (hfuel : ts.length < fuel) :
    Matches s ts (result a ts) ((Run.whileSome step fuel a).exec s) := by
  induction fuel generalizing a s ts with
  | zero => omega
  | succ fuel ih =>
      rw [Run.whileSome]
      rcases hstep a s ts h hdepth hbound with
        ⟨hnone, hresult⟩ | ⟨t, more, rfl, next, hnext, hresult⟩
      · rw [Run.exec_bind, hnone, hresult]
        exact .pure a
      · have hlast : next.bind (fun p => result p.1 p.2) =
            (next.map fun p => (some p.1, p.2)).bind fun p => result (p.1.getD a) p.2 := by
          cases next <;> rfl
        have hmore := h.next
        rw [hresult, hlast]
        refine .of_after (hnext.bind fun b used rest hb hts => ?_) (List.singleton_append).symm
        obtain ⟨⟨c, rest'⟩, hc, heq⟩ := Except.map_eq_ok_iff.1 hb
        cases heq
        rw [hts] at hmore
        simp only [hts, List.length_cons, List.length_append] at hbound hfuel
        have hrest : rest'.length ≤ bound ∧ rest'.length < fuel := by omega
        exact ih c hmore.after hdepth hrest.1 hrest.2

section

variable {tokens ts : List Token} {stop depth bound power : Nat} {s : State} {run : Nat → Run Expr}
  {read : Reader} {kind : TokenKind} {place : Span}

/-- The result of reading further arguments after those in `args`. -/
def moreArguments (read : Reader) (args : List Expr) (ts : List Token) :
    Except Error (List Expr × List Token) :=
  match ts with
  | ⟨.comma, _⟩ :: more => (outcome (arguments read more)).map fun q => (args ++ q.1, q.2)
  | rest => .ok (args, rest)

theorem moreArguments_of_ne {args : List Expr} (hcomma : found ts ≠ some .comma) :
    moreArguments read args ts = .ok (args, ts) := by
  unfold moreArguments
  split
  · exact absurd rfl hcomma
  · rfl

/-- The arguments are one argument and as many more as there are commas. -/
theorem outcome_arguments_eq :
    outcome (arguments read ts) =
      (outcome (read 0 ts)).bind fun p => moreArguments read [p.1] p.2 := by
  rw [outcome_arguments]
  rfl

/-- After a comma another argument is read. -/
theorem moreArguments_comma {args : List Expr} {place : Span} :
    moreArguments read args (⟨.comma, place⟩ :: ts) =
      (outcome (read 0 ts)).bind fun p => moreArguments read (args ++ [p.1]) p.2 := by
  rw [moreArguments, outcome_arguments_eq]
  cases outcome (read 0 ts) with
  | error e => rfl
  | ok p =>
      simp only [Except.bind]
      unfold moreArguments
      split
      · cases outcome (arguments read _) <;> simp [Except.map]
      · rfl

/-- The loop over the commas collects what the list of arguments collects. -/
theorem argumentStep_iterates (hread : Implements tokens depth bound run read) :
    Iterates tokens depth bound (argumentStep (marks stop tokens) run) (moreArguments read) := by
  intro args s ts h hdepth hbound
  by_cases hcomma : found ts = some .comma
  · obtain ⟨place, more, rfl⟩ := exists_of_found hcomma
    rw [List.length_cons] at hbound
    refine .inr ⟨_, more, rfl, (outcome (read 0 more)).map fun p => (args ++ [p.1], p.2), ?_, ?_⟩
    · have hstep := argumentStep_comma stop args hread h hdepth (by omega)
      cases hread : outcome (read 0 more) <;> rw [hread] at hstep <;> exact hstep
    · rw [moreArguments_comma]
      cases outcome (read 0 more) <;> rfl
  · exact .inl ⟨argumentStep_none h hcomma, moreArguments_of_ne hcomma⟩

/-- The loop over the operators builds what `operations` builds. -/
theorem operatorStep_iterates (hread : Implements tokens depth bound run read) :
    Iterates tokens depth bound (operatorStep (marks stop tokens) run power)
      fun lhs ts => extent (operations read power lhs ts) := by
  intro lhs s ts h hdepth hbound
  by_cases hsettled : Settled power ts
  · exact .inl ⟨operatorStep_none h hsettled, operations_of_settled hsettled⟩
  · obtain ⟨kind, place, more, op, rfl, hop, hpower⟩ := exists_of_not_settled hsettled
    rw [List.length_cons] at hbound
    refine .inr ⟨_, more, rfl,
      (outcome (read op.rightPower more)).map fun p => (operationTree op lhs p.1, p.2), ?_, ?_⟩
    · have hstep := operatorStep_operator stop lhs hread h hdepth (by omega) hop hpower
      cases hread : outcome (read op.rightPower more) <;> rw [hread] at hstep <;> exact hstep
    · simp only [extent_operations hop hpower]
      cases outcome (read op.rightPower more) <;> rfl

/-! ## Operands -/

/-- The arguments before a closing parenthesis, which may be none. -/
def argumentList (read : Reader) (ts : List Token) : Except Error (List Expr × List Token) :=
  if found ts = some .rightParen then .ok ([], ts) else outcome (arguments read ts)

/-- The arguments of a call are a list, possibly empty, and the parenthesis that
closes it. -/
theorem outcome_callArguments_eq :
    outcome (Equation.callArguments stop read ts) = (argumentList read ts).bind fun p =>
      (outcome (Equation.expect stop .rightParen p.2)).map fun q => ((p.1, q.1), q.2) := by
  unfold argumentList
  split
  · next hparen =>
      obtain ⟨place, more, rfl⟩ := exists_of_found hparen
      simp [Equation.callArguments, Equation.expect, Except.bind, Except.map]
  · next hparen => exact outcome_callArguments hparen

/-- The arguments of a call at the cursor. -/
theorem callArguments_matches (hread : Implements tokens depth bound run read)
    (h : Before tokens s ts) (hdepth : s.depth = depth) (hbound : ts.length < bound) :
    Matches s ts (argumentList read ts)
      ((callArguments (marks stop tokens) run bound).exec s) := by
  rw [callArguments, peek_bind h, argumentList]
  dsimp only
  split
  · exact .pure _
  · rw [outcome_arguments_eq]
    refine (hread 0 s ts h hdepth hbound).bind fun first used rest hfirst hts => ?_
    have hrest := length_of_outcome hfirst
    rw [hts] at h
    exact whileSome_matches (argumentStep_iterates hread) bound [first] h.after hdepth
      (by omega) (by omega)

/-- A number at the cursor. -/
theorem numeral_matches {value : Float} (h : Before tokens s (⟨.number value, place⟩ :: ts)) :
    Matches s (⟨.number value, place⟩ :: ts)
      (outcome (Equation.operand stop read (⟨.number value, place⟩ :: ts)))
      ((numeral (marks stop tokens)).exec s) := by
  rw [operand_number, numeral]
  exact .advance h (.pure _)

/-- A name that is no call. -/
theorem nameOrCall_matches_name {name : String} (hparen : found ts ≠ some .leftParen)
    (h : Before tokens s (⟨.identifier name, place⟩ :: ts)) :
    Matches s (⟨.identifier name, place⟩ :: ts)
      (outcome (Equation.operand stop read (⟨.identifier name, place⟩ :: ts)))
      ((nameOrCall (marks stop tokens) run bound).exec s) := by
  rw [operand_identifier name hparen, nameOrCall]
  refine .advance h ?_
  simp only [Token.mark]
  rw [peek_bind h.next]
  dsimp only
  rw [if_neg hparen]
  exact .pure _

/-- A name with a parenthesis after it at the cursor. -/
theorem nameOrCall_matches_call {name : String} {opening : Span}
    (hread : Implements tokens depth bound run read)
    (h : Before tokens s (⟨.identifier name, place⟩ :: ⟨.leftParen, opening⟩ :: ts))
    (hdepth : s.depth = depth) (hbound : ts.length < bound) :
    Matches s (⟨.identifier name, place⟩ :: ⟨.leftParen, opening⟩ :: ts)
      (outcome (Equation.operand stop read
        (⟨.identifier name, place⟩ :: ⟨.leftParen, opening⟩ :: ts)))
      ((nameOrCall (marks stop tokens) run bound).exec s) := by
  have hfound : found (⟨.leftParen, opening⟩ :: ts) = some .leftParen := rfl
  have hinside := h.next.next
  rw [outcome_operand_call, outcome_callArguments_eq, nameOrCall]
  refine .advance h ?_
  simp only [Token.mark]
  rw [peek_bind h.next]
  dsimp only
  rw [if_pos hfound]
  exact .expect h.next
    (.closed (f := fun p => Expr.call name place p.1 (place.merge p.2)) hinside
      (callArguments_matches hread hinside hdepth hbound))

/-- An expression in parentheses at the cursor. -/
theorem grouped_matches (hread : Implements tokens depth bound run read)
    (h : Before tokens s (⟨.leftParen, place⟩ :: ts)) (hdepth : s.depth = depth)
    (hbound : ts.length < bound) :
    Matches s (⟨.leftParen, place⟩ :: ts)
      (outcome (Equation.operand stop read (⟨.leftParen, place⟩ :: ts)))
      ((grouped (marks stop tokens) run).exec s) := by
  rw [outcome_operand_grouped, outcome_enclosed, grouped]
  exact .expect h
    (.closed (f := fun p => p.1) h.next (hread 0 _ _ h.next hdepth hbound))

/-- An expression between bars at the cursor. -/
theorem absolute_matches (hread : Implements tokens depth bound run read)
    (h : Before tokens s (⟨.bar, place⟩ :: ts)) (hdepth : s.depth = depth)
    (hbound : ts.length < bound) :
    Matches s (⟨.bar, place⟩ :: ts)
      (outcome (Equation.operand stop read (⟨.bar, place⟩ :: ts)))
      ((absolute (marks stop tokens) run).exec s) := by
  rw [outcome_operand_absolute, outcome_enclosed, absolute]
  exact .expect h
    (.closed (f := fun p => Expr.call "abs" place [p.1] (place.merge p.2)) h.next
      (hread 0 _ _ h.next hdepth hbound))

/-- A signed operand at the cursor. -/
theorem signed_matches {sign : Sign} (stop : Nat) (hsign : IsSign kind sign)
    (hread : Implements tokens depth bound run read) (h : Before tokens s (⟨kind, place⟩ :: ts))
    (hdepth : s.depth = depth) (hbound : ts.length < bound) :
    Matches s (⟨kind, place⟩ :: ts)
      (outcome (Equation.operand stop read (⟨kind, place⟩ :: ts)))
      ((signed (marks stop tokens) run sign).exec s) := by
  rw [outcome_operand_signed hsign, outcome_signedOperand, signed]
  exact .advance h ((hread signPower _ _ h.next hdepth hbound).map
    (k := fun e => Expr.signed sign e (place.merge e.span)))

/-- **Operands at the cursor**: an operand is read as from the list, whatever it
begins with. -/
theorem operand_matches (hread : Implements tokens depth bound run read)
    (h : Before tokens s ts) (hdepth : s.depth = depth) (hbound : ts.length ≤ bound) :
    Matches s ts (outcome (Equation.operand stop read ts))
      ((operand (marks stop tokens) run bound).exec s) := by
  rw [operand, peek_bind h]
  cases opening ts with
  | number value place more => exact numeral_matches h
  | name name place hparen => exact nameOrCall_matches_name hparen h
  | call name place opening inside =>
      have hinside : inside.length + 2 ≤ bound := hbound
      exact nameOrCall_matches_call hread h hdepth (by omega)
  | grouped place inside => exact grouped_matches hread h hdepth hbound
  | absolute place inside => exact absolute_matches hread h hdepth hbound
  | signed hsign place more =>
      have hoperand := signed_matches stop hsign hread h hdepth hbound
      cases hsign with
      | minus => exact hoperand
      | plus => exact hoperand
  | none hnone =>
      rw [operand_of_noOperand hnone]
      cases ts with
      | nil => exact .refuse _
      | cons t more =>
          obtain ⟨kind, place⟩ := t
          cases kind <;> first | exact .refuse _ | exact hnone.elim

end

/-! ## Expressions -/

section

variable {tokens ts : List Token} {stop : Nat} {s : State}

/-- Counting an expression as open does not show once it is read. -/
theorem counted_matches {x : Run Expr} {r : Except Error (Expr × List Token)}
    (hx : Matches { s with depth := s.depth + 1 } ts r (x.exec { s with depth := s.depth + 1 })) :
    Matches s ts r ((counted x).exec s) := by
  simp only [counted]
  generalize x.exec { s with depth := s.depth + 1 } = out at hx
  cases hx with
  | ok hts => exact .ok hts
  | error hts => exact .error hts

/-- **Cursor and list**: with fuel for one call more than there are tokens left,
an expression is read to its end. -/
theorem expression_implements (stop fuel depth : Nat) :
    Implements tokens depth fuel (expression (marks stop tokens) fuel)
      (Equation.expression stop (maxNesting - depth)) := by
  induction fuel generalizing depth with
  | zero => exact fun _ _ _ _ _ hfuel => absurd hfuel (Nat.not_lt_zero _)
  | succ fuel ih =>
      rintro power s ts h rfl hfuel
      have hopen : (openDepth).exec s = .ok (.ok s.depth, s) := rfl
      rw [expression, Run.exec_bind, hopen]
      dsimp only
      by_cases hdeep : maxNesting ≤ s.depth
      · rw [if_pos hdeep, peek_bind h, Nat.sub_eq_zero_of_le hdeep]
        exact .refuse _
      · have hlevels : maxNesting - s.depth = maxNesting - (s.depth + 1) + 1 := by omega
        have hread := ih (s.depth + 1)
        have h' : Before tokens { s with depth := s.depth + 1 } ts := h
        rw [if_neg hdeep, hlevels, outcome_expression]
        apply counted_matches
        rw [operation]
        refine (operand_matches hread h' rfl (Nat.le_of_lt_succ hfuel)).bind
          fun first used rest hfirst hts => ?_
        have hrest := length_of_outcome hfirst
        rw [hts] at h'
        exact whileSome_matches (operatorStep_iterates hread) fuel first h'.after rfl (by omega)
          (by omega)

end

end GlutSketch.Equation.Cursor
