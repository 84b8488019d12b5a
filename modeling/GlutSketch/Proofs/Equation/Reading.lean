import GlutSketch.Equation.Parser
import GlutSketch.Proofs.Equation.Grammar
import GlutSketch.Proofs.Result

/-!
# GlutSketch.Proofs.Equation.Reading

What each step of reading an expression does, and when it succeeds.  `outcome`
and `extent` forget the proofs that the tokens get fewer, so that results over
different token lists can be compared; below, one equation for each function
gives its outcome from those of its parts, and one lemma says when the outcome
is a given value and rest.
-/

namespace GlutSketch.Equation

/-! ## Results without proofs -/

/-- What was read and what is left. -/
def outcome {α : Type} {ts : List Token} (r : Except Error (Parsed α ts)) :
    Except Error (α × List Token) :=
  r.map fun p => (p.value, p.rest)

/-- An extended expression and what is left. -/
def extent {ts : List Token}
    (r : Except Error (Expr × { rest : List Token // rest.length ≤ ts.length })) :
    Except Error (Expr × List Token) :=
  r.map fun p => (p.1, p.2.val)

section

variable {α : Type} {ts rest : List Token} {a : α} {e : Expr}

@[simp] theorem outcome_ok (p : Parsed α ts) : outcome (.ok p) = .ok (p.value, p.rest) := rfl

@[simp] theorem outcome_error (e : Error) :
    outcome (.error e : Except Error (Parsed α ts)) = .error e :=
  rfl

@[simp] theorem extent_ok (p : Expr × { rest : List Token // rest.length ≤ ts.length }) :
    extent (.ok p) = .ok (p.1, p.2.val) := rfl

/-- Forgetting that a result is shorter does not change the result. -/
theorem outcome_eq_ok_iff {r : Except Error (Parsed α ts)} :
    outcome r = .ok (a, rest) ↔ ∃ h, r = .ok ⟨a, rest, h⟩ := by
  cases r with
  | error e => simp
  | ok p =>
      obtain ⟨value, tail, shorter⟩ := p
      simp only [outcome_ok, Except.ok.injEq, Prod.mk.injEq, Parsed.mk.injEq, exists_and_left,
        exists_prop]
      constructor
      · rintro ⟨rfl, rfl⟩
        exact ⟨rfl, shorter, rfl⟩
      · rintro ⟨rfl, -, rfl⟩
        exact ⟨rfl, rfl⟩

/-- What stands at the front is the first token. -/
theorem exists_of_found {kind : TokenKind} (h : found ts = some kind) :
    ∃ place more, ts = ⟨kind, place⟩ :: more := by
  cases ts with
  | nil => simp [found] at h
  | cons t more =>
      obtain ⟨k, place⟩ := t
      simp only [found, List.head?_cons, Option.map_some, Option.some.injEq] at h
      exact ⟨place, more, by rw [h]⟩

end

/-! ## Parts of an operand -/

section

variable {stop power : Nat} {read : Reader} {ts rest : List Token} {e lhs whole : Expr}
  {args : List Expr} {span place close : Span} {wanted kind : TokenKind} {sign : Sign}

/-- A token is read if it is the one that is wanted. -/
theorem expect_eq_ok_iff :
    outcome (expect stop wanted ts) = .ok (span, rest) ↔ ts = ⟨wanted, span⟩ :: rest := by
  cases ts with
  | nil => simp [expect]
  | cons t more =>
      obtain ⟨kind, place⟩ := t
      by_cases h : kind = wanted
      · simp [expect, h]
      · simp [expect, h]

theorem outcome_signedOperand :
    outcome (signedOperand read sign place ts) = (outcome (read signPower ts)).map fun p =>
      (.signed sign p.1 (place.merge p.1.span), p.2) := by
  unfold signedOperand
  cases read signPower ts <;> rfl

/-- A sign and its operand make a signed expression. -/
theorem signedOperand_eq_ok_iff :
    outcome (signedOperand read sign place ts) = .ok (e, rest) ↔
      ∃ operand, outcome (read signPower ts) = .ok (operand, rest) ∧
        e = .signed sign operand (place.merge operand.span) := by
  rw [outcome_signedOperand, Except.map_eq_ok_iff]
  constructor
  · rintro ⟨⟨operand, tail⟩, hread, h⟩
    cases h
    exact ⟨operand, hread, rfl⟩
  · rintro ⟨operand, hread, rfl⟩
    exact ⟨(operand, rest), hread, rfl⟩

theorem outcome_enclosed :
    outcome (enclosed stop read wanted ts) = (outcome (read 0 ts)).bind fun p =>
      (outcome (expect stop wanted p.2)).map fun q => ((p.1, q.1), q.2) := by
  unfold enclosed
  cases read 0 ts with
  | error err => rfl
  | ok p =>
      obtain ⟨body, rest, shorter⟩ := p
      simp only [outcome_ok, Except.bind]
      cases expect stop wanted rest <;> rfl

/-- What is closed by a token that is wanted. -/
theorem closed_eq_ok_iff {α : Type} {a : α} {r : Except Error (α × List Token)} :
    (r.bind fun p => (outcome (expect stop wanted p.2)).map fun q => ((p.1, q.1), q.2)) =
        .ok ((a, close), rest) ↔ r = .ok (a, ⟨wanted, close⟩ :: rest) := by
  rw [Except.bind_eq_ok_iff]
  constructor
  · rintro ⟨⟨value, tail⟩, hvalue, h⟩
    obtain ⟨⟨place, after⟩, hclose, heq⟩ := Except.map_eq_ok_iff.1 h
    cases heq
    obtain rfl := expect_eq_ok_iff.1 hclose
    exact hvalue
  · rintro rfl
    exact ⟨_, rfl, Except.map_eq_ok_iff.2 ⟨(close, rest), expect_eq_ok_iff.2 rfl, rfl⟩⟩

/-- A part between brackets is an expression and the bracket that closes it. -/
theorem enclosed_eq_ok_iff :
    outcome (enclosed stop read wanted ts) = .ok ((e, close), rest) ↔
      outcome (read 0 ts) = .ok (e, ⟨wanted, close⟩ :: rest) := by
  rw [outcome_enclosed, closed_eq_ok_iff]

/-- Arguments are an expression, and more arguments after a comma. -/
theorem outcome_arguments :
    outcome (arguments read ts) = (outcome (read 0 ts)).bind fun p =>
      match p.2 with
      | ⟨.comma, _⟩ :: more => (outcome (arguments read more)).map fun q => (p.1 :: q.1, q.2)
      | rest => .ok ([p.1], rest) := by
  rw [arguments]
  cases read 0 ts with
  | error err => rfl
  | ok p =>
      obtain ⟨first, rest, shorter⟩ := p
      simp only [outcome_ok, Except.bind]
      split
      · next place more shorter =>
        cases hmore : arguments read more <;> simp [hmore, Except.map]
      · next hcomma =>
        split
        · exact (hcomma _ _ shorter rfl HEq.rfl).elim
        · rfl

/-- One more argument after a comma, or the last one. -/
theorem arguments_eq_ok_iff :
    outcome (arguments read ts) = .ok (args, rest) ↔
      (∃ first, args = [first] ∧ outcome (read 0 ts) = .ok (first, rest) ∧
        found rest ≠ some .comma) ∨
      ∃ first others place more, args = first :: others ∧
        outcome (read 0 ts) = .ok (first, ⟨.comma, place⟩ :: more) ∧
        outcome (arguments read more) = .ok (others, rest) := by
  rw [outcome_arguments, Except.bind_eq_ok_iff]
  constructor
  · rintro ⟨⟨first, tail⟩, hfirst, h⟩
    dsimp only at h
    split at h
    · next place more =>
      obtain ⟨⟨others, after⟩, hmore, heq⟩ := Except.map_eq_ok_iff.1 h
      cases heq
      exact .inr ⟨first, others, place, more, rfl, hfirst, hmore⟩
    · next hcomma =>
      cases h
      refine .inl ⟨first, rfl, hfirst, fun hfound => ?_⟩
      obtain ⟨place, more, rfl⟩ := exists_of_found hfound
      exact hcomma _ _ rfl
  · rintro (⟨first, rfl, hfirst, hcomma⟩ | ⟨first, others, place, more, rfl, hfirst, hmore⟩)
    · refine ⟨_, hfirst, ?_⟩
      dsimp only
      split
      · exact absurd rfl hcomma
      · rfl
    · exact ⟨_, hfirst, Except.map_eq_ok_iff.2 ⟨_, hmore, rfl⟩⟩

/-- The arguments of a call that is not empty. -/
theorem outcome_callArguments (h : found ts ≠ some .rightParen) :
    outcome (callArguments stop read ts) = (outcome (arguments read ts)).bind fun p =>
      (outcome (expect stop .rightParen p.2)).map fun q => ((p.1, q.1), q.2) := by
  unfold callArguments
  split
  · exact absurd rfl h
  · cases arguments read ts with
    | error err => rfl
    | ok p =>
        obtain ⟨args, rest, shorter⟩ := p
        simp only [outcome_ok, Except.bind]
        cases expect stop .rightParen rest <;> rfl

/-- A call with arguments, up to and with the closing parenthesis. -/
theorem callArguments_eq_ok_iff :
    outcome (callArguments stop read ts) = .ok ((args, close), rest) ↔
      (args = [] ∧ ts = ⟨.rightParen, close⟩ :: rest) ∨
      (found ts ≠ some .rightParen ∧
        outcome (arguments read ts) = .ok (args, ⟨.rightParen, close⟩ :: rest)) := by
  by_cases hparen : found ts = some .rightParen
  · obtain ⟨place, more, rfl⟩ := exists_of_found hparen
    simp only [callArguments, outcome_ok, Except.ok.injEq, Prod.mk.injEq, hparen, ne_eq,
      not_true_eq_false, false_and, or_false, List.cons.injEq, Token.mk.injEq, true_and, and_assoc,
      eq_comm (a := ([] : List Expr))]
  · rw [outcome_callArguments hparen, closed_eq_ok_iff]
    constructor
    · exact fun h => .inr ⟨hparen, h⟩
    · rintro (⟨-, rfl⟩ | ⟨-, h⟩)
      · exact absurd rfl hparen
      · exact h

/-! ## Operands -/

theorem operand_number (value : Float) :
    outcome (operand stop read (⟨.number value, span⟩ :: rest)) = .ok (.number value span, rest) :=
  rfl

/-- A name that no parenthesis follows is an operand of its own. -/
theorem operand_identifier (name : String) (h : found rest ≠ some .leftParen) :
    outcome (operand stop read (⟨.identifier name, span⟩ :: rest)) =
      .ok (.identifier name span, rest) := by
  cases rest with
  | nil => rfl
  | cons t more =>
      obtain ⟨kind, place⟩ := t
      have hkind : kind ≠ .leftParen := by simpa [found] using h
      cases kind <;> first | rfl | exact absurd rfl hkind

theorem outcome_operand_call (name : String) :
    outcome (operand stop read (⟨.identifier name, span⟩ :: ⟨.leftParen, place⟩ :: ts)) =
      (outcome (callArguments stop read ts)).map fun p =>
        (.call name span p.1.1 (span.merge p.1.2), p.2) := by
  simp only [operand]
  cases callArguments stop read ts <;> rfl

/-- A name before a parenthesis is a call. -/
theorem operand_call_eq_ok_iff (name : String) :
    outcome (operand stop read (⟨.identifier name, span⟩ :: ⟨.leftParen, place⟩ :: ts)) =
        .ok (e, rest) ↔
      ∃ args close, outcome (callArguments stop read ts) = .ok ((args, close), rest) ∧
        e = .call name span args (span.merge close) := by
  rw [outcome_operand_call, Except.map_eq_ok_iff]
  constructor
  · rintro ⟨⟨⟨args, close⟩, tail⟩, hargs, h⟩
    cases h
    exact ⟨args, close, hargs, rfl⟩
  · rintro ⟨args, close, hargs, rfl⟩
    exact ⟨_, hargs, rfl⟩

theorem outcome_operand_grouped :
    outcome (operand stop read (⟨.leftParen, place⟩ :: ts)) =
      (outcome (enclosed stop read .rightParen ts)).map fun p => (p.1.1, p.2) := by
  simp only [operand]
  cases enclosed stop read .rightParen ts <;> rfl

/-- An expression in parentheses is itself. -/
theorem operand_grouped_eq_ok_iff :
    outcome (operand stop read (⟨.leftParen, place⟩ :: ts)) = .ok (e, rest) ↔
      ∃ close, outcome (read 0 ts) = .ok (e, ⟨.rightParen, close⟩ :: rest) := by
  simp only [outcome_operand_grouped, Except.map_eq_ok_iff, ← @enclosed_eq_ok_iff stop]
  constructor
  · rintro ⟨⟨⟨body, close⟩, tail⟩, hbody, h⟩
    cases h
    exact ⟨close, hbody⟩
  · rintro ⟨close, hbody⟩
    exact ⟨_, hbody, rfl⟩

theorem outcome_operand_absolute :
    outcome (operand stop read (⟨.bar, place⟩ :: ts)) =
      (outcome (enclosed stop read .bar ts)).map fun p =>
        (.call "abs" place [p.1.1] (place.merge p.1.2), p.2) := by
  simp only [operand]
  cases enclosed stop read .bar ts <;> rfl

/-- An expression between bars is a call of `abs`. -/
theorem operand_absolute_eq_ok_iff :
    outcome (operand stop read (⟨.bar, place⟩ :: ts)) = .ok (e, rest) ↔
      ∃ body close, outcome (read 0 ts) = .ok (body, ⟨.bar, close⟩ :: rest) ∧
        e = .call "abs" place [body] (place.merge close) := by
  simp only [outcome_operand_absolute, Except.map_eq_ok_iff, ← @enclosed_eq_ok_iff stop]
  constructor
  · rintro ⟨⟨⟨body, close⟩, tail⟩, hbody, h⟩
    cases h
    exact ⟨body, close, hbody, rfl⟩
  · rintro ⟨body, close, hbody, rfl⟩
    exact ⟨_, hbody, rfl⟩

theorem outcome_operand_signed (hsign : IsSign kind sign) :
    outcome (operand stop read (⟨kind, place⟩ :: ts)) =
      outcome (signedOperand read sign place ts) := by
  cases hsign <;> simp only [operand] <;> cases signedOperand read _ place ts <;> rfl

/-- A sign before an operand is one of its own. -/
theorem operand_signed_eq_ok_iff (hsign : IsSign kind sign) :
    outcome (operand stop read (⟨kind, place⟩ :: ts)) = .ok (e, rest) ↔
      ∃ operand, outcome (read signPower ts) = .ok (operand, rest) ∧
        e = .signed sign operand (place.merge operand.span) := by
  rw [outcome_operand_signed hsign, signedOperand_eq_ok_iff]

/-! ## Operations -/

/-- The operator at the front of the tokens. -/
def frontOp? (ts : List Token) : Option BinaryOp := (found ts).bind TokenKind.binaryOp?

/-- No operator at the front holds its left operand as strongly as `power`. -/
def Settled (power : Nat) (ts : List Token) : Prop := ∀ op ∈ frontOp? ts, op.leftPower < power

/-- No operation is read where none binds strongly enough. -/
theorem operations_of_settled (h : Settled power ts) :
    extent (operations read power lhs ts) = .ok (lhs, ts) := by
  cases ts with
  | nil => simp [operations]
  | cons t more =>
      rw [operations]
      split
      · rfl
      · next op hop =>
        have hlt : op.leftPower < power := h op (by simp [frontOp?, found, hop])
        rw [if_pos hlt, extent_ok]

theorem extent_operations {op : BinaryOp} (hop : kind.binaryOp? = some op)
    (hpower : power ≤ op.leftPower) :
    extent (operations read power lhs (⟨kind, place⟩ :: ts)) =
      (outcome (read op.rightPower ts)).bind fun p =>
        extent (operations read power (operationTree op lhs p.1) p.2) := by
  rw [operations]
  simp only [hop, Nat.not_lt.2 hpower, if_false, operationTree]
  cases read op.rightPower ts with
  | error err => rfl
  | ok p =>
      obtain ⟨rhs, after, shorter⟩ := p
      simp only [outcome_ok, Except.bind]
      cases operations read power (.binary op lhs rhs (lhs.span.merge rhs.span)) after <;> rfl

/-- An operator takes its right operand, and the operation becomes the next left
operand. -/
theorem operations_eq_ok_iff {op : BinaryOp} (hop : kind.binaryOp? = some op)
    (hpower : power ≤ op.leftPower) :
    extent (operations read power lhs (⟨kind, place⟩ :: ts)) = .ok (whole, rest) ↔
      ∃ rhs after, outcome (read op.rightPower ts) = .ok (rhs, after) ∧
        extent (operations read power (operationTree op lhs rhs) after) = .ok (whole, rest) := by
  rw [extent_operations hop hpower, Except.bind_eq_ok_iff, Prod.exists]

theorem outcome_expression {levels : Nat} :
    outcome (expression stop (levels + 1) power ts) =
      (outcome (operand stop (expression stop levels) ts)).bind fun p =>
        extent (operations (expression stop levels) power p.1 p.2) := by
  rw [expression]
  cases operand stop (expression stop levels) ts with
  | error err => rfl
  | ok p =>
      obtain ⟨first, after, shorter⟩ := p
      simp only [outcome_ok, Except.bind]
      cases operations (expression stop levels) power first after <;> rfl

/-- An expression is an operand and the operations after it. -/
theorem expression_eq_ok_iff {levels : Nat} :
    outcome (expression stop (levels + 1) power ts) = .ok (whole, rest) ↔
      ∃ first after, outcome (operand stop (expression stop levels) ts) = .ok (first, after) ∧
        extent (operations (expression stop levels) power first after) = .ok (whole, rest) := by
  rw [outcome_expression, Except.bind_eq_ok_iff, Prod.exists]

end

end GlutSketch.Equation
