import GlutSketch.Proofs.Equation.Reading

/-!
# GlutSketch.Proofs.Equation.Failing

When each step of reading an expression fails, and with which error: the
counterpart of the lemmas on success.  A step fails because a step inside it
fails, or because a token that it needs is not at the front of the rest; in the
latter case the error names what stands there instead.
-/

namespace GlutSketch.Equation

/-- The error of a token that is not there. -/
def missingTokenError (stop : Nat) (wanted : TokenKind) (rest : List Token) : Error :=
  ⟨.missingToken wanted (found rest), frontSpan stop rest⟩

/-- The error of an expression that does not begin. -/
def missingExpressionError (stop : Nat) (rest : List Token) : Error :=
  ⟨.missingExpression (found rest), frontSpan stop rest⟩

section

variable {stop power levels : Nat} {read : Reader} {ts : List Token} {lhs : Expr} {err : Error}
  {place : Span} {wanted kind : TokenKind} {sign : Sign}

/-! ## Parts of an operand -/

/-- A token that has to be there is reported as missing if another one is
found. -/
theorem expect_eq_error_iff :
    outcome (expect stop wanted ts) = .error err ↔
      found ts ≠ some wanted ∧ err = missingTokenError stop wanted ts := by
  cases ts with
  | nil => simp [expect, found, frontSpan, missingTokenError, eq_comm]
  | cons t more =>
      by_cases h : t.kind = wanted
      · simp [expect, found, h]
      · simp [expect, found, frontSpan, missingTokenError, h, eq_comm (a := err)]

theorem signedOperand_eq_error_iff :
    outcome (signedOperand read sign place ts) = .error err ↔
      outcome (read signPower ts) = .error err := by
  rw [outcome_signedOperand, Except.map_eq_error_iff]

/-- What should be closed by a token that is wanted. -/
theorem closed_eq_error_iff {α : Type} {r : Except Error (α × List Token)} :
    (r.bind fun p => (outcome (expect stop wanted p.2)).map fun q => ((p.1, q.1), q.2)) =
        .error err ↔
      r = .error err ∨ ∃ a rest, r = .ok (a, rest) ∧ found rest ≠ some wanted ∧
        err = missingTokenError stop wanted rest := by
  simp only [Except.bind_eq_error_iff, Except.map_eq_error_iff, expect_eq_error_iff, Prod.exists]

/-- A part between brackets fails in its body, or where it should be closed. -/
theorem enclosed_eq_error_iff :
    outcome (enclosed stop read wanted ts) = .error err ↔
      outcome (read 0 ts) = .error err ∨
        ∃ body rest, outcome (read 0 ts) = .ok (body, rest) ∧ found rest ≠ some wanted ∧
          err = missingTokenError stop wanted rest := by
  rw [outcome_enclosed, closed_eq_error_iff]

/-- Arguments fail in the first of them, or after a comma. -/
theorem arguments_eq_error_iff :
    outcome (arguments read ts) = .error err ↔
      outcome (read 0 ts) = .error err ∨
        ∃ first place more, outcome (read 0 ts) = .ok (first, ⟨.comma, place⟩ :: more) ∧
          outcome (arguments read more) = .error err := by
  rw [outcome_arguments, Except.bind_eq_error_iff]
  refine or_congr_right ⟨?_, ?_⟩
  · rintro ⟨⟨first, tail⟩, hfirst, h⟩
    dsimp only at h
    split at h
    · next place more => exact ⟨first, place, more, hfirst, Except.map_eq_error_iff.1 h⟩
    · cases h
  · rintro ⟨first, place, more, hfirst, h⟩
    exact ⟨_, hfirst, Except.map_eq_error_iff.2 h⟩

/-- A call without arguments is fine; any other fails in its arguments or where
it should be closed. -/
theorem callArguments_eq_error_iff :
    outcome (callArguments stop read ts) = .error err ↔
      found ts ≠ some .rightParen ∧
        (outcome (arguments read ts) = .error err ∨
          ∃ args rest, outcome (arguments read ts) = .ok (args, rest) ∧
            found rest ≠ some .rightParen ∧ err = missingTokenError stop .rightParen rest) := by
  by_cases hparen : found ts = some .rightParen
  · obtain ⟨place, more, rfl⟩ := exists_of_found hparen
    simp [callArguments, hparen]
  · rw [outcome_callArguments hparen, closed_eq_error_iff]
    exact (and_iff_right hparen).symm

/-! ## Operands -/

theorem operand_call_eq_error_iff (name : String) {span : Span} :
    outcome (operand stop read (⟨.identifier name, span⟩ :: ⟨.leftParen, place⟩ :: ts)) =
        .error err ↔
      outcome (callArguments stop read ts) = .error err := by
  rw [outcome_operand_call, Except.map_eq_error_iff]

theorem operand_grouped_eq_error_iff :
    outcome (operand stop read (⟨.leftParen, place⟩ :: ts)) = .error err ↔
      outcome (enclosed stop read .rightParen ts) = .error err := by
  rw [outcome_operand_grouped, Except.map_eq_error_iff]

theorem operand_absolute_eq_error_iff :
    outcome (operand stop read (⟨.bar, place⟩ :: ts)) = .error err ↔
      outcome (enclosed stop read .bar ts) = .error err := by
  rw [outcome_operand_absolute, Except.map_eq_error_iff]

theorem operand_signed_eq_error_iff (hsign : IsSign kind sign) :
    outcome (operand stop read (⟨kind, place⟩ :: ts)) = .error err ↔
      outcome (read signPower ts) = .error err := by
  rw [outcome_operand_signed hsign, signedOperand_eq_error_iff]

/-- What stands at the front begins no operand. -/
def NoOperand (ts : List Token) : Prop :=
  match found ts with
  | some (.number _) | some (.identifier _) | some .leftParen | some .bar | some .plus |
    some .minus => False
  | _ => True

/-- Where no operand can begin, an expression is missing. -/
theorem operand_of_noOperand (h : NoOperand ts) :
    outcome (operand stop read ts) = .error (missingExpressionError stop ts) := by
  cases ts with
  | nil => rfl
  | cons t more =>
      obtain ⟨kind, place⟩ := t
      cases kind <;> first | rfl | exact h.elim

/-- The ways in which tokens can begin, as far as an operand goes. -/
inductive Opening : List Token → Prop
  | number (value : Float) (place : Span) (more : List Token) :
      Opening (⟨.number value, place⟩ :: more)
  | name (name : String) (place : Span) {more : List Token} (h : found more ≠ some .leftParen) :
      Opening (⟨.identifier name, place⟩ :: more)
  | call (name : String) (place opening : Span) (inside : List Token) :
      Opening (⟨.identifier name, place⟩ :: ⟨.leftParen, opening⟩ :: inside)
  | grouped (place : Span) (inside : List Token) : Opening (⟨.leftParen, place⟩ :: inside)
  | absolute (place : Span) (inside : List Token) : Opening (⟨.bar, place⟩ :: inside)
  | signed {kind : TokenKind} {sign : Sign} (hsign : IsSign kind sign) (place : Span)
      (more : List Token) : Opening (⟨kind, place⟩ :: more)
  | none {ts : List Token} (h : NoOperand ts) : Opening ts

/-- What an operand can begin with.  Every list of tokens is of one of these
forms. -/
theorem opening : (ts : List Token) → Opening ts
  | [] => .none trivial
  | ⟨.number value, place⟩ :: more => .number value place more
  | ⟨.identifier name, place⟩ :: more => by
      by_cases h : found more = some .leftParen
      · obtain ⟨opening, inside, rfl⟩ := exists_of_found h
        exact .call name place opening inside
      · exact .name name place h
  | ⟨.leftParen, place⟩ :: inside => .grouped place inside
  | ⟨.bar, place⟩ :: inside => .absolute place inside
  | ⟨.plus, place⟩ :: more => .signed .plus place more
  | ⟨.minus, place⟩ :: more => .signed .minus place more
  | ⟨.star, _⟩ :: _ | ⟨.slash, _⟩ :: _ | ⟨.caret, _⟩ :: _ | ⟨.equals, _⟩ :: _
  | ⟨.rightParen, _⟩ :: _ | ⟨.comma, _⟩ :: _ => .none trivial

/-! ## Operations -/

/-- An operation fails in its right operand, or in what follows it. -/
theorem operations_eq_error_iff {op : BinaryOp} (hop : kind.binaryOp? = some op)
    (hpower : power ≤ op.leftPower) :
    extent (operations read power lhs (⟨kind, place⟩ :: ts)) = .error err ↔
      outcome (read op.rightPower ts) = .error err ∨
        ∃ rhs after, outcome (read op.rightPower ts) = .ok (rhs, after) ∧
          extent (operations read power (operationTree op lhs rhs) after) = .error err := by
  rw [extent_operations hop hpower, Except.bind_eq_error_iff, Prod.exists]

/-- An expression fails in its first operand, or in the operations after it. -/
theorem expression_eq_error_iff :
    outcome (expression stop (levels + 1) power ts) = .error err ↔
      outcome (operand stop (expression stop levels) ts) = .error err ∨
        ∃ first after, outcome (operand stop (expression stop levels) ts) = .ok (first, after) ∧
          extent (operations (expression stop levels) power first after) = .error err := by
  rw [outcome_expression, Except.bind_eq_error_iff, Prod.exists]

end

end GlutSketch.Equation
