import GlutSketch.Proofs.Equation.Lookahead
import GlutSketch.Proofs.Equation.Places

/-!
# GlutSketch.Proofs.Equation.Refusal

Where a line is refused.  Unless it nests too deeply, the error is about the
first token that no line of the grammar goes on with: the tokens before it are
the beginning of a line that is accepted, and with it they no longer are.

* `Refused` -- a reader fails at the first token that cannot continue what it
  reads;
* `expression_refused` -- an expression: what is still open when the error is
  met can be closed on the levels that are left;
* `refused_at_first_bad_token` -- whole lines.
-/

namespace GlutSketch.Equation

/-! ## What an error is about -/

/-- What an error says is found at its place: a token, or the end of the line.
Errors that are not about a token say nothing of the kind. -/
def Cause.found? : Cause → Option (Option TokenKind)
  | emptyLine => some none
  | notConstant found | missingExpression found | missingToken _ found => some found
  | unexpectedToken found => some (some found)
  | unexpectedCharacter _ | nestedTooDeeply | functionWithoutArgument _ | unknownIdentifier _ |
    unknownFunction _ | wrongArity .. => none

/-- The error is about the front of `rest`, and has its place. -/
inductive Error.IsAt (stop : Nat) : List Token → Error → Prop
  | missingExpression (rest : List Token) : IsAt stop rest (missingExpressionError stop rest)
  | missingToken (wanted : TokenKind) (rest : List Token) :
      IsAt stop rest (missingTokenError stop wanted rest)
  | unexpectedToken (t : Token) (more : List Token) :
      IsAt stop (t :: more) ⟨.unexpectedToken t.kind, t.span⟩
  | emptyLine : IsAt stop [] ⟨.emptyLine, ⟨stop, stop⟩⟩

/-- Reading `ts` fails with the error `err` at the first token that nothing
accepted goes on with: what is before it can be completed, and reading fails in
the same way whatever follows it. -/
def Refused {β : Type} (stop : Nat) (f : List Token → Except Error β) (Accepted : List Token → Prop)
    (ts : List Token) (err : Error) : Prop :=
  ∃ done rest, ts = done ++ rest ∧ err.IsAt stop rest ∧ (∃ more, Accepted (done ++ more)) ∧
    ∀ rest', SameFront rest rest' → f (done ++ rest') = .error err

section

variable {β γ : Type} {stop : Nat} {f : List Token → Except Error β}
  {g : List Token → Except Error γ} {P Q : List Token → Prop} {ts : List Token} {err : Error}

/-- A refusal inside a larger phrase that has begun with `front` is a refusal of
the larger one. -/
theorem Refused.lift (h : Refused stop f P ts err) (front : List Token)
    (hg : ∀ ts', SameFront ts ts' → f ts' = .error err → g (front ++ ts') = .error err)
    (hQ : ∀ ts', P ts' → ∃ more, Q (front ++ ts' ++ more)) :
    Refused stop g Q (front ++ ts) err := by
  obtain ⟨done, rest, rfl, hat, ⟨more, hmore⟩, hfail⟩ := h
  obtain ⟨more', hmore'⟩ := hQ _ hmore
  refine ⟨front ++ done, rest, by simp, hat, ⟨more ++ more', by simpa using hmore'⟩, ?_⟩
  intro rest' hfront
  rw [List.append_assoc]
  exact hg _ (hfront.append done) (hfail rest' hfront)

end

/-! ## Expressions -/

/-- The tokens are an expression in a context of the given power, nested at most
`levels` deep. -/
def IsPhrase (power levels : Nat) (ts : List Token) : Prop :=
  ∃ e n, Phrase power ts e n ∧ n ≤ levels

/-- A reader of expressions refuses at the first token that cannot continue
one. -/
def Refuses (stop levels : Nat) (read : Reader) : Prop :=
  ∀ power ts err, power ≤ 16 → outcome (read power ts) = .error err →
    err.cause ≠ .nestedTooDeeply →
      Refused stop (fun ts => outcome (read power ts)) (IsPhrase power levels) ts err

section

variable {stop levels power m : Nat} {read : Reader} {ts done : List Token} {err : Error}
  {lhs : Expr}

/-- What is refused between brackets is refused at its first bad token. -/
theorem enclosed_refused (hsound : Sound levels read)
    (hahead : ∀ p, LooksOneAhead fun ts => outcome (read p ts)) (hread : Refuses stop levels read)
    (wanted : TokenKind) (h : outcome (enclosed stop read wanted ts) = .error err)
    (hdeep : err.cause ≠ .nestedTooDeeply) :
    Refused stop (fun ts => outcome (enclosed stop read wanted ts))
      (fun ts => ∃ body close, ts = body ++ [⟨wanted, close⟩] ∧ IsPhrase 0 levels body) ts err := by
  rcases enclosed_eq_error_iff.1 h with hbody | ⟨body, rest, hbody, hclose, rfl⟩
  · refine (hread 0 ts err (Nat.zero_le _) hbody hdeep).lift [] ?_ ?_
    · intro ts' _ hts'
      exact enclosed_eq_error_iff.2 (.inl hts')
    · intro ts' hts'
      exact ⟨[⟨wanted, ⟨stop, stop⟩⟩], _, _, rfl, hts'⟩
  · obtain ⟨used, n, rfl, hphrase, hn, -⟩ := hsound _ _ _ _ (Nat.zero_le _) hbody
    refine ⟨used, rest, rfl, .missingToken wanted rest,
      ⟨[⟨wanted, ⟨stop, stop⟩⟩], _, _, rfl, body, n, hphrase, hn⟩, ?_⟩
    intro rest' hfront
    have hbody' := (hahead 0).transfer hbody hfront
    refine enclosed_eq_error_iff.2 (.inr ⟨body, rest', hbody', hfront.found_eq ▸ hclose, ?_⟩)
    exact (hfront.missingTokenError_eq stop wanted).symm

/-- What is refused among arguments is refused at its first bad token. -/
theorem arguments_refused (hsound : Sound levels read)
    (hahead : ∀ p, LooksOneAhead fun ts => outcome (read p ts)) (hread : Refuses stop levels read)
    (h : outcome (arguments read ts) = .error err) (hdeep : err.cause ≠ .nestedTooDeeply) :
    Refused stop (fun ts => outcome (arguments read ts))
      (fun ts => ∃ es n, IsArguments ts es n ∧ n ≤ levels) ts err := by
  induction hlen : ts.length using Nat.strongRecOn generalizing ts with
  | _ length ih =>
      subst hlen
      rcases arguments_eq_error_iff.1 h with hfirst | ⟨first, place, more, hfirst, hothers⟩
      · refine (hread 0 ts err (Nat.zero_le _) hfirst hdeep).lift [] ?_ ?_
        · intro ts' _ hts'
          exact arguments_eq_error_iff.2 (.inl hts')
        · rintro ts' ⟨e, n, hsum, hn⟩
          exact ⟨[], [e], n, by simpa using .last hsum, hn⟩
      · obtain ⟨used, n, rfl, hsum, hn, -⟩ := hsound _ _ _ _ (Nat.zero_le _) hfirst
        have hmore := ih more.length (by simp only [List.length_append, List.length_cons]; omega)
          hothers rfl
        rw [← List.singleton_append, ← List.append_assoc]
        refine hmore.lift (used ++ [⟨.comma, place⟩]) ?_ ?_
        · intro ts' _ hts'
          have hfront : SameFront (⟨.comma, place⟩ :: more) (⟨.comma, place⟩ :: ts') := rfl
          have hfirst' := (hahead 0).transfer hfirst hfront
          rw [List.append_assoc]
          exact arguments_eq_error_iff.2 (.inr ⟨first, place, ts', hfirst', hts'⟩)
        · rintro ts' ⟨es, n', hargs, hn'⟩
          refine ⟨[], first :: es, max n n', ?_, Nat.max_le.2 ⟨hn, hn'⟩⟩
          simpa using IsArguments.more place hsum hargs

/-- What is refused in a call is refused at its first bad token. -/
theorem callArguments_refused (hsound : Sound levels read)
    (hahead : ∀ p, LooksOneAhead fun ts => outcome (read p ts)) (hread : Refuses stop levels read)
    (h : outcome (callArguments stop read ts) = .error err)
    (hdeep : err.cause ≠ .nestedTooDeeply) :
    Refused stop (fun ts => outcome (callArguments stop read ts))
      (fun ts => ∃ args close es n, ts = args ++ [⟨.rightParen, close⟩] ∧ IsArguments args es n ∧
        n ≤ levels) ts err := by
  obtain ⟨hparen, hargs | ⟨args, rest, hargs, hclose, rfl⟩⟩ := callArguments_eq_error_iff.1 h
  · refine (arguments_refused hsound hahead hread hargs hdeep).lift [] ?_ ?_
    · intro ts' hfront hts'
      exact callArguments_eq_error_iff.2 ⟨hfront.found_eq ▸ hparen, .inl hts'⟩
    · rintro ts' ⟨es, n, hts', hn⟩
      exact ⟨[⟨.rightParen, ⟨stop, stop⟩⟩], _, _, es, n, rfl, hts', hn⟩
  · obtain ⟨used, n, rfl, hused, hn⟩ := arguments_sound hsound hargs
    refine ⟨used, rest, rfl, .missingToken .rightParen rest,
      ⟨[⟨.rightParen, ⟨stop, stop⟩⟩], _, _, args, n, rfl, hused, hn⟩, ?_⟩
    intro rest' hfront
    have hargs' := (looksOneAhead_arguments hahead).transfer hargs hfront
    refine callArguments_eq_error_iff.2 ⟨(hfront.append used).found_eq ▸ hparen,
      .inr ⟨args, rest', hargs', hfront.found_eq ▸ hclose, ?_⟩⟩
    exact (hfront.missingTokenError_eq stop .rightParen).symm

/-- An operand that is refused is, completed, an operand of a sign. -/
theorem operand_refused (hsound : Sound levels read)
    (hahead : ∀ p, LooksOneAhead fun ts => outcome (read p ts)) (hread : Refuses stop levels read)
    (h : outcome (operand stop read ts) = .error err) (hdeep : err.cause ≠ .nestedTooDeeply) :
    Refused stop (fun ts => outcome (operand stop read ts))
      (fun ts => ∃ e n, IsUnary ts e n ∧ n ≤ levels + 1) ts err := by
  cases opening ts with
  | number value place more =>
      rw [operand_number] at h
      cases h
  | name name place hparen =>
      rw [operand_identifier name hparen] at h
      cases h
  | call name place opening inside =>
      have hargs := (operand_call_eq_error_iff name).1 h
      refine (callArguments_refused hsound hahead hread hargs hdeep).lift
        [⟨.identifier name, place⟩, ⟨.leftParen, opening⟩] ?_ ?_
      · intro ts' _ hts'
        exact (operand_call_eq_error_iff name).2 hts'
      · rintro ts' ⟨args, close, es, n, rfl, hargs, hn⟩
        have hcall := (IsAtom.call name place opening close hargs).toUnary
        exact ⟨[], _, _, by simpa using hcall, by omega⟩
  | grouped place inside =>
      have hinside := operand_grouped_eq_error_iff.1 h
      refine (enclosed_refused hsound hahead hread .rightParen hinside hdeep).lift
        [⟨.leftParen, place⟩] ?_ ?_
      · intro ts' _ hts'
        exact operand_grouped_eq_error_iff.2 hts'
      · rintro ts' ⟨body, close, rfl, e, n, hsum, hn⟩
        have hgroup := (IsAtom.grouped place close hsum).toUnary
        exact ⟨[], _, _, by simpa using hgroup, by omega⟩
  | absolute place inside =>
      have hinside := operand_absolute_eq_error_iff.1 h
      refine (enclosed_refused hsound hahead hread .bar hinside hdeep).lift [⟨.bar, place⟩] ?_ ?_
      · intro ts' _ hts'
        exact operand_absolute_eq_error_iff.2 hts'
      · rintro ts' ⟨body, close, rfl, e, n, hsum, hn⟩
        have hbars := (IsAtom.absolute place close hsum).toUnary
        exact ⟨[], _, _, by simpa using hbars, by omega⟩
  | @signed kind sign hsign place more =>
      have hmore := (operand_signed_eq_error_iff hsign).1 h
      refine (hread signPower more err (by decide) hmore hdeep).lift [⟨kind, place⟩] ?_ ?_
      · intro ts' _ hts'
        exact (operand_signed_eq_error_iff hsign).2 hts'
      · rintro ts' ⟨e, n, hunary, hn⟩
        have hsigned := IsUnary.signed place hsign hunary
        exact ⟨[], _, _, by simpa using hsigned, by omega⟩
  | none hnone =>
      rw [operand_of_noOperand hnone] at h
      cases h
      refine ⟨[], ts, rfl, .missingExpression ts, ?_, ?_⟩
      · exact ⟨[⟨.number 0, ⟨stop, stop⟩⟩], _, 1, (IsAtom.number 0 _).toUnary, by omega⟩
      · intro ts' hfront
        rw [← hfront.missingExpressionError_eq stop]
        exact operand_of_noOperand (hfront.noOperand hnone)

/-- The operators after a left operand, of which the tokens are `done`. -/
theorem operations_refused (hsound : Sound levels read)
    (hahead : ∀ p, LooksOneAhead fun ts => outcome (read p ts)) (hread : Refuses stop levels read)
    (hlhs : IsLeftOperand power ts done lhs m) (hm : m ≤ levels + 1)
    (h : extent (operations read power lhs ts) = .error err)
    (hdeep : err.cause ≠ .nestedTooDeeply) :
    Refused stop (fun ts => extent (operations read power lhs ts))
      (fun ts => IsPhrase power (levels + 1) (done ++ ts)) ts err := by
  -- the tokens get fewer with each operator, while `done` grows by what they
  -- lose
  induction hlen : ts.length using Nat.strongRecOn generalizing ts done lhs m with
  | _ length ih =>
      subst hlen
      by_cases hsettled : Settled power ts
      · rw [operations_of_settled hsettled] at h
        cases h
      · obtain ⟨kind, place, more, op, rfl, hop, hle⟩ := exists_of_not_settled hsettled
        rcases (operations_eq_error_iff hop hle).1 h with hright | ⟨rhs, after, hright, hrest⟩
        · refine (hread _ more err op.rightPower_le hright hdeep).lift [⟨kind, place⟩] ?_ ?_
          · intro ts' _ hts'
            exact (operations_eq_error_iff hop hle).2 (.inl hts')
          · rintro ts' ⟨e, n, hphrase, hn⟩
            have hwhole := (hlhs.operation hop hle hphrase settled_nil).phrase
            refine ⟨[], _, _, by simpa using hwhole, ?_⟩
            simp only [operationNesting]
            omega
        · obtain ⟨used, n, rfl, hphrase, hn, hafter⟩ := hsound _ _ _ _ op.rightPower_le hright
          have hnext := hlhs.operation hop hle hphrase hafter
          have hrefused := ih after.length
            (by simp only [List.length_cons, List.length_append]; omega) hnext
            (by simp only [operationNesting]; omega) hrest rfl
          refine hrefused.lift (⟨kind, place⟩ :: used) ?_ ?_
          · intro ts' hfront hts'
            have hright' := (hahead _).transfer hright hfront
            exact (operations_eq_error_iff hop hle).2 (.inr ⟨rhs, ts', hright', hts'⟩)
          · intro ts' hts'
            exact ⟨[], by simpa using hts'⟩

/-- An expression is refused at the first token that cannot continue it. -/
theorem expression_refused (stop levels : Nat) : Refuses stop levels (expression stop levels) := by
  induction levels with
  | zero =>
      intro power ts err _ h hdeep
      simp only [expression, outcome_error, Except.error.injEq] at h
      exact absurd (h ▸ rfl) hdeep
  | succ levels ih =>
      intro power ts err _ h hdeep
      have hsound := expression_sound stop levels
      have hahead := looksOneAhead_expression stop levels
      rcases expression_eq_error_iff.1 h with hfirst | ⟨first, after, hfirst, hrest⟩
      · refine (operand_refused hsound hahead ih hfirst hdeep).lift [] ?_ ?_
        · intro ts' _ hts'
          exact expression_eq_error_iff.2 (.inl hts')
        · rintro ts' ⟨e, n, hunary, hn⟩
          have hleft : IsLeftOperand power [] ts' e n := .unary hunary settled_nil
          have hphrase := hleft.phrase
          exact ⟨[], e, n, by simpa using hphrase, hn⟩
      · obtain ⟨done, m, rfl, hoperand, hm⟩ := operand_sound hsound hfirst
        refine (operations_refused hsound hahead ih hoperand hm hrest hdeep).lift done ?_ ?_
        · intro ts' hfront hts'
          have hfirst' := (looksOneAhead_operand hahead).transfer hfirst hfront
          exact expression_eq_error_iff.2 (.inr ⟨first, ts', hfirst', hts'⟩)
        · intro ts' hts'
          exact ⟨[], by simpa using hts'⟩

end

/-! ## Lines -/

/-- The place of an error about the front of `rest`, with `done` before it.
Only where the number of a vertical line is missing does it begin earlier: at
the sign of the number, if there is one. -/
def errorSpan (stop : Nat) (cause : Cause) (done rest : List Token) : Span :=
  match cause, done with
  | .notConstant _, [_, _, sign] => ⟨sign.span.start, (frontSpan stop rest).stop⟩
  | _, _ => frontSpan stop rest

/-- The line `done ++ rest` is refused with `err` at the front of `rest`. -/
structure IsRefusedAt (stop : Nat) (err : Error) (done rest : List Token) : Prop where
  /-- The message names the token at the front of `rest`, or the end of the
  line. -/
  found : err.cause.found? = some (found rest)
  span : err.span = errorSpan stop err.cause done rest
  /-- The tokens before it are the beginning of a line that is accepted. -/
  completable : ∃ more q, ∀ stop, parseEquation stop (done ++ more) = .ok q
  /-- No line is accepted that goes on with the same token, or that ends there
  as well. -/
  incompletable : ∀ rest', SameFront rest rest' →
    ∀ stop q, parseEquation stop (done ++ rest') ≠ .ok q

section

variable {stop : Nat} {ts rest rest' done : List Token} {err : Error}

/-- An error at a token names what is found there. -/
theorem Error.IsAt.found_eq (h : err.IsAt stop rest) : err.cause.found? = some (found rest) := by
  cases h <;> rfl

/-- The place of an error at a token is given by its cause. -/
theorem Error.IsAt.span_eq (h : err.IsAt stop rest) (done : List Token) :
    err.span = errorSpan stop err.cause done rest := by
  cases h <;> rfl

/-- A line that is refused wherever it goes on like this one is not accepted
there. -/
theorem isRefusedAt_of_fails (hfound : err.cause.found? = some (found rest))
    (hspan : err.span = errorSpan stop err.cause done rest)
    (haccepted : ∃ more q, IsEquation (done ++ more) q)
    (hfails : ∀ rest', SameFront rest rest' → parseEquation stop (done ++ rest') = .error err) :
    IsRefusedAt stop err done rest := by
  refine ⟨hfound, hspan, ?_, ?_⟩
  · obtain ⟨more, q, hq⟩ := haccepted
    exact ⟨more, q, fun _ => parseEquation_eq_ok_iff.2 hq⟩
  · intro rest' hfront stop' q hok
    have hsame : parseEquation stop (done ++ rest') = .ok q :=
      parseEquation_eq_ok_iff.2 (parseEquation_eq_ok_iff.1 hok)
    rw [hfails rest' hfront] at hsame
    cases hsame

/-- What is refused is refused at a token. -/
theorem Refused.isRefusedAt
    (h : Refused stop (parseEquation stop) (fun ts => ∃ q, IsEquation ts q) ts err) :
    ∃ done rest, ts = done ++ rest ∧ IsRefusedAt stop err done rest := by
  obtain ⟨done, rest, rfl, hat, haccepted, hfails⟩ := h
  exact ⟨done, rest, rfl, isRefusedAt_of_fails hat.found_eq (hat.span_eq done) haccepted hfails⟩

/-! ### Graphs of functions -/

/-- An expression is refused inside, or for a token after its end. -/
theorem parseExpression_eq_error_iff :
    parseExpression stop ts = .error err ↔
      outcome (expression stop maxNesting 0 ts) = .error err ∨
        ∃ e t rest, outcome (expression stop maxNesting 0 ts) = .ok (e, t :: rest) ∧
          err = ⟨.unexpectedToken t.kind, t.span⟩ := by
  unfold parseExpression
  cases expression stop maxNesting 0 ts with
  | error e => simp
  | ok p =>
      obtain ⟨e, rest, shorter⟩ := p
      cases rest <;> simp [expectEnd, Except.map, and_assoc, eq_comm (b := err)]

/-- An expression is refused at its first bad token, unless it is nested too
deeply. -/
theorem parseExpression_refused (h : parseExpression stop ts = .error err)
    (hdeep : err.cause ≠ .nestedTooDeeply) :
    Refused stop (parseExpression stop) (fun ts => ∃ e, IsExpression ts e) ts err := by
  rcases parseExpression_eq_error_iff.1 h with hfails | ⟨e, t, rest, hread, rfl⟩
  · refine (expression_refused stop maxNesting 0 ts err (Nat.zero_le _) hfails hdeep).lift [] ?_ ?_
    · intro ts' _ hts'
      exact parseExpression_eq_error_iff.2 (.inl hts')
    · rintro ts' ⟨e, n, hsum, hn⟩
      exact ⟨[], e, n, (List.append_nil ts').symm ▸ hsum, hn⟩
  · obtain ⟨used, n, rfl, hsum, hn, -⟩ :=
      expression_sound stop maxNesting _ _ _ _ (Nat.zero_le _) hread
    refine ⟨used, t :: rest, rfl, .unexpectedToken t rest,
      ⟨[], e, n, (List.append_nil used).symm ▸ hsum, hn⟩, ?_⟩
    intro rest' hfront
    obtain ⟨more, rfl⟩ : ∃ more, rest' = t :: more := List.head?_eq_some_iff.1 hfront
    have hread' := (looksOneAhead_expression stop maxNesting 0).transfer hread hfront
    exact parseExpression_eq_error_iff.2 (.inr ⟨e, t, more, hread', rfl⟩)

/-- Whether a line begins with a name and an equals sign is seen in its first
two tokens. -/
theorem Defines.of_sameFront {name : String} (h : Defines name (done ++ rest'))
    (hfront : SameFront rest rest') (hdone : done ≠ []) : Defines name (done ++ rest) := by
  obtain ⟨place, equals, more, hline⟩ := h
  match done, hdone with
  | [t], _ =>
      obtain ⟨rfl, rfl⟩ := List.cons.inj hline
      obtain ⟨more', rfl⟩ : ∃ more', rest = ⟨.equals, equals⟩ :: more' :=
        List.head?_eq_some_iff.1 hfront.symm
      exact ⟨place, equals, more', rfl⟩
  | t :: u :: done, _ =>
      obtain ⟨rfl, htail⟩ := List.cons.inj hline
      obtain ⟨rfl, -⟩ := List.cons.inj htail
      exact ⟨place, equals, done ++ rest, rfl⟩

/-- A name is an expression, so that nothing is refused at a name that begins
it. -/
theorem parseExpression_name (name : String) (place : Span) :
    parseExpression stop [⟨.identifier name, place⟩] = .ok (.identifier name place) :=
  parseExpression_eq_ok_iff.2 ⟨1, (IsAtom.identifier name place).toUnary.toSum, by decide⟩

theorem graph_refused (hne : ts ≠ []) (hx : ¬ Defines "x" ts) (hy : ¬ Defines "y" ts)
    (h : parseExpression stop ts = .error err) (hdeep : err.cause ≠ .nestedTooDeeply) :
    Refused stop (parseEquation stop) (fun ts => ∃ q, IsEquation ts q) ts err := by
  obtain ⟨done, rest, rfl, hat, ⟨more, e, he⟩, hfails⟩ := parseExpression_refused h hdeep
  have hgraph : ∃ q, IsEquation (done ++ more) q :=
    ⟨_, .graph (fun hdefines => not_isExpression_of_defines hdefines he) he⟩
  refine ⟨done, rest, rfl, hat, ⟨more, hgraph⟩, fun rest' hfront => ?_⟩
  have hdefines : ∀ name, ¬ Defines name (done ++ rest) → ¬ Defines name (done ++ rest') := by
    intro name hrest hrest'
    by_cases hdone : done = []
    · subst hdone
      obtain ⟨place, equals, after, rfl⟩ := hrest'
      have hname := hfails [⟨.identifier name, place⟩] hfront
      rw [List.nil_append, parseExpression_name] at hname
      cases hname
    · exact hrest (hrest'.of_sameFront hfront hdone)
  have hne' : done ++ rest' ≠ [] := by
    intro hnil
    obtain ⟨rfl, rfl⟩ := List.append_eq_nil_iff.1 hnil
    exact hne (List.head?_eq_none_iff.1 hfront.symm)
  rw [parseEquation_graph hne' (hdefines _ hx) (hdefines _ hy), hfails rest' hfront]
  rfl

/-! ### Vertical lines -/

/-- The number of a vertical line, where `front` is what stands before it. -/
theorem verticalNumber_refused {negative : Bool} {first : Span} (front : List Token)
    (h : verticalNumber stop negative first ts = .error err)
    (hspan : first.merge (frontSpan stop ts) = errorSpan stop (.notConstant (found ts)) front ts)
    (hnumber : ∀ value place, ∃ q, IsEquation (front ++ [⟨.number value, place⟩]) q)
    (hfront : ∀ ts', SameFront ts ts' →
      parseEquation stop (front ++ ts') = verticalNumber stop negative first ts') :
    ∃ done rest, front ++ ts = done ++ rest ∧ IsRefusedAt stop err done rest := by
  by_cases hvalue : ∃ value, found ts = some (.number value)
  · obtain ⟨value, hvalue⟩ := hvalue
    obtain ⟨place, rest, rfl⟩ := exists_of_found hvalue
    cases rest with
    | nil => cases h
    | cons t more =>
        cases h
        refine ⟨front ++ [⟨.number value, place⟩], t :: more, by simp,
          isRefusedAt_of_fails rfl rfl ⟨[], by simpa using hnumber value place⟩ ?_⟩
        intro rest' hrest
        obtain ⟨more', rfl⟩ : ∃ more', rest' = t :: more' := List.head?_eq_some_iff.1 hrest
        rw [List.append_assoc]
        exact hfront _ rfl
  · have hnone : ∀ value, found ts ≠ some (.number value) := fun value h => hvalue ⟨value, h⟩
    rw [verticalNumber_of_not_number hnone] at h
    cases h
    refine ⟨front, ts, rfl, isRefusedAt_of_fails rfl hspan
      ⟨[⟨.number 0, ⟨stop, stop⟩⟩], hnumber _ _⟩ ?_⟩
    intro rest' hrest
    rw [hfront rest' hrest, verticalNumber_of_not_number (hrest.found_eq ▸ hnone), hrest.found_eq,
      hrest.frontSpan_eq]

/-- A vertical line, of which `place` and `equals` are the places of `x` and the
equals sign. -/
theorem parseVertical_refused {start : Nat} {place equals : Span} (horder : InOrder stop start ts)
    (h : parseVertical stop ts = .error err) :
    ∃ done rest, ⟨.identifier "x", place⟩ :: ⟨.equals, equals⟩ :: ts = done ++ rest ∧
      IsRefusedAt stop err done rest := by
  by_cases hsign : ∃ kind ∈ found ts, ∃ sign, IsSign kind sign
  · obtain ⟨kind, hkind, sign, hsign⟩ := hsign
    obtain ⟨first, number, rfl⟩ := exists_of_found hkind
    rw [parseVertical_signed hsign] at h
    obtain ⟨-, hfirst, hnumber⟩ := horder
    have hplace := hnumber.le_frontSpan
    refine verticalNumber_refused
      [⟨.identifier "x", place⟩, ⟨.equals, equals⟩, ⟨kind, first⟩] h ?_ ?_ ?_
    · -- the sign is before what stands in the place of the number
      dsimp only at hfirst hplace
      simp only [Span.merge, errorSpan, Span.mk.injEq]
      omega
    · intro value place'
      cases hsign
      · exact ⟨_, .vertical place equals (.plus value first place')⟩
      · exact ⟨_, .vertical place equals (.minus value first place')⟩
    · intro ts' _
      exact parseVertical_signed hsign first
  · have hunsigned : ∀ kind ∈ found ts, ∀ sign, ¬ IsSign kind sign :=
      fun kind hkind sign h => hsign ⟨kind, hkind, sign, h⟩
    rw [parseVertical_unsigned hunsigned] at h
    refine verticalNumber_refused [⟨.identifier "x", place⟩, ⟨.equals, equals⟩] h ?_ ?_ ?_
    · simp [Span.merge, errorSpan]
    · intro value place'
      exact ⟨_, .vertical place equals (.unsigned value place')⟩
    · intro ts' hfront
      rw [← hfront.frontSpan_eq stop]
      exact parseVertical_unsigned (hfront.found_eq ▸ hunsigned)

/-! ### The whole line -/

/-- **Refusal**: unless it nests too deeply, a line of tokens that is refused is
refused at the first token that no accepted line goes on with, and the error
names this token and has its place. -/
theorem refused_at_first_bad_token {source : String} (htokens : tokenize source = .ok ts)
    (h : parseEquation source.length ts = .error err) (hdeep : err.cause ≠ .nestedTooDeeply) :
    ∃ done rest, ts = done ++ rest ∧ IsRefusedAt source.length err done rest := by
  have horder := inOrder_tokenize htokens
  by_cases hx : Defines "x" ts
  · obtain ⟨place, equals, rest, rfl⟩ := hx
    exact parseVertical_refused horder.2.2.2.2 h
  by_cases hy : Defines "y" ts
  · obtain ⟨place, equals, rest, rfl⟩ := hy
    have hbody := Except.map_eq_error_iff.1 h
    refine Refused.isRefusedAt ((parseExpression_refused hbody hdeep).lift
      [⟨.identifier "y", place⟩, ⟨.equals, equals⟩] ?_ ?_)
    · intro ts' _ hts'
      exact Except.map_eq_error_iff.2 hts'
    · rintro ts' ⟨e, he⟩
      exact ⟨[], _, by simpa using .namedGraph place equals he⟩
  cases ts with
  | nil =>
      cases h
      have hnumber : IsExpression [⟨.number 0, ⟨0, 0⟩⟩] _ :=
        ⟨1, (IsAtom.number 0 _).toUnary.toSum, by decide⟩
      refine ⟨[], [], rfl,
        isRefusedAt_of_fails rfl rfl ⟨[⟨.number 0, ⟨0, 0⟩⟩], _, .graph ?_ hnumber⟩ ?_⟩
      · exact fun hdefines => not_isExpression_of_defines hdefines hnumber
      · intro rest' hfront
        rw [List.head?_eq_none_iff.1 hfront]
        rfl
  | cons t more =>
      have hne : t :: more ≠ [] := List.cons_ne_nil t more
      rw [parseEquation_graph hne hx hy] at h
      exact (graph_refused hne hx hy (Except.map_eq_error_iff.1 h) hdeep).isRefusedAt

/-- The number of a vertical line is missing after its sign: the error is about
the name, and its place begins at the sign. -/
theorem refused_signed_name :
    ∃ ts err, tokenize "x = -y" = .ok ts ∧ parseEquation 6 ts = .error err ∧
      err = ⟨.notConstant (some (.identifier "y")), ⟨4, 6⟩⟩ ∧
      ∃ done rest, ts = done ++ rest ∧ IsRefusedAt 6 err done rest := by
  let signed : List Token := [⟨.identifier "x", ⟨0, 1⟩⟩, ⟨.equals, ⟨2, 3⟩⟩, ⟨.minus, ⟨4, 5⟩⟩,
    ⟨.identifier "y", ⟨5, 6⟩⟩]
  have htokens : tokenize "x = -y" = .ok signed :=
    Except.toOption_eq_some_iff.1 (by decide +kernel)
  exact ⟨_, _, htokens, rfl, rfl, refused_at_first_bad_token htokens rfl (by decide)⟩

end

end GlutSketch.Equation
