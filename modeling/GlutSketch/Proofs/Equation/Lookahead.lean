import GlutSketch.Proofs.Equation.Failing
import GlutSketch.Proofs.Equation.Parsing

/-!
# GlutSketch.Proofs.Equation.Lookahead

How far the reader looks.  What is read depends on the tokens that are read and
on the first token that is left, if there is one, but on no token after it
(`LooksOneAhead`).
-/

namespace GlutSketch.Equation

/-! ## Rests that begin alike -/

/-- Two rests begin with the same token, or both are empty. -/
def SameFront (ts ts' : List Token) : Prop := ts'.head? = ts.head?

section

variable {ts ts' rest rest' : List Token} {power : Nat}

theorem SameFront.found_eq (h : SameFront ts ts') : found ts' = found ts := by
  rw [found, h, found]

theorem SameFront.frontSpan_eq (h : SameFront ts ts') (stop : Nat) :
    frontSpan stop ts' = frontSpan stop ts := by
  cases ts <;> cases ts' <;> simp_all [SameFront, frontSpan]

/-- Whether the operations are done depends on the next token only. -/
theorem SameFront.settled (h : SameFront ts ts') (hsettled : Settled power ts) :
    Settled power ts' := by
  rwa [Settled, frontOp?, h.found_eq]

theorem SameFront.noOperand (h : SameFront ts ts') (hnone : NoOperand ts) : NoOperand ts' := by
  rwa [NoOperand, h.found_eq]

/-- What is reported about a missing token depends on the next token only. -/
theorem SameFront.missingTokenError_eq (h : SameFront ts ts') (stop : Nat) (wanted : TokenKind) :
    missingTokenError stop wanted ts' = missingTokenError stop wanted ts := by
  rw [missingTokenError, h.found_eq, h.frontSpan_eq, missingTokenError]

theorem SameFront.missingExpressionError_eq (h : SameFront ts ts') (stop : Nat) :
    missingExpressionError stop ts' = missingExpressionError stop ts := by
  rw [missingExpressionError, h.found_eq, h.frontSpan_eq, missingExpressionError]

/-- What stands before both rests does not matter. -/
theorem SameFront.append (h : SameFront rest rest') (used : List Token) :
    SameFront (used ++ rest) (used ++ rest') := by
  unfold SameFront at h ⊢
  rw [List.head?_append, h, List.head?_append]

end

/-! ## Readers that look one token ahead -/

/-- What is read of some tokens is also read where the tokens after the first
that is left are others. -/
def LooksOneAhead {α : Type} (f : List Token → Except Error (α × List Token)) : Prop :=
  ∀ ts a rest, f ts = .ok (a, rest) →
    ∃ used, ts = used ++ rest ∧ ∀ rest', SameFront rest rest' → f (used ++ rest') = .ok (a, rest')

/-- What is read before some tokens is read in the same way before any others
with the same front. -/
theorem LooksOneAhead.transfer {α : Type} {f : List Token → Except Error (α × List Token)}
    (h : LooksOneAhead f) {used rest rest' : List Token} {a : α}
    (hread : f (used ++ rest) = .ok (a, rest)) (hfront : SameFront rest rest') :
    f (used ++ rest') = .ok (a, rest') := by
  obtain ⟨used', heq, hlocal⟩ := h _ _ _ hread
  obtain rfl := List.append_cancel_right heq
  exact hlocal rest' hfront

section

variable {read : Reader} {stop : Nat}

/-- The operations after an operand stop at a token that they only look at. -/
theorem looksOneAhead_operations (hread : ∀ p, LooksOneAhead fun ts => outcome (read p ts))
    (power : Nat) (lhs : Expr) : LooksOneAhead fun ts => extent (operations read power lhs ts) := by
  simp only [LooksOneAhead]
  intro ts whole rest h
  induction hlen : ts.length using Nat.strongRecOn generalizing ts lhs with
  | _ length ih =>
      subst hlen
      by_cases hsettled : Settled power ts
      · rw [operations_of_settled hsettled] at h
        simp only [Except.ok.injEq, Prod.mk.injEq] at h
        obtain ⟨rfl, rfl⟩ := h
        exact ⟨[], rfl, fun rest' hfront => operations_of_settled (hfront.settled hsettled)⟩
      · obtain ⟨kind, place, more, op, rfl, hop, hle⟩ := exists_of_not_settled hsettled
        obtain ⟨rhs, after, hrhs, hrest⟩ := (operations_eq_ok_iff hop hle).1 h
        obtain ⟨used, rfl, hright⟩ := hread _ _ _ _ hrhs
        obtain ⟨used', rfl, hmore⟩ :=
          ih after.length (by simp only [List.length_cons, List.length_append]; omega) _ _ hrest rfl
        refine ⟨⟨kind, place⟩ :: (used ++ used'), by simp, fun rest' hfront => ?_⟩
        have hright' := hright (used' ++ rest') (hfront.append used')
        rw [List.cons_append, List.append_assoc]
        exact (operations_eq_ok_iff hop hle).2 ⟨_, _, hright', hmore rest' hfront⟩

theorem looksOneAhead_arguments (hread : ∀ p, LooksOneAhead fun ts => outcome (read p ts)) :
    LooksOneAhead fun ts => outcome (arguments read ts) := by
  simp only [LooksOneAhead]
  intro ts args rest h
  induction hlen : ts.length using Nat.strongRecOn generalizing ts args with
  | _ length ih =>
      subst hlen
      rcases arguments_eq_ok_iff.1 h with
        ⟨first, rfl, hfirst, hcomma⟩ | ⟨first, others, place, more, rfl, hfirst, hothers⟩
      · obtain ⟨used, rfl, hlocal⟩ := hread _ _ _ _ hfirst
        refine ⟨used, rfl, fun rest' hfront => arguments_eq_ok_iff.2 (.inl ⟨first, rfl, ?_⟩)⟩
        exact ⟨hlocal rest' hfront, hfront.found_eq ▸ hcomma⟩
      · obtain ⟨used, rfl, hlocal⟩ := hread _ _ _ _ hfirst
        obtain ⟨used', rfl, hmore⟩ :=
          ih more.length (by simp only [List.length_cons, List.length_append]; omega) _ _ hothers
            rfl
        refine ⟨used ++ ⟨.comma, place⟩ :: used', by simp, fun rest' hfront => ?_⟩
        have hfirst' := hlocal (⟨.comma, place⟩ :: (used' ++ rest')) rfl
        rw [List.append_assoc, List.cons_append]
        exact arguments_eq_ok_iff.2 (.inr ⟨_, _, _, _, rfl, hfirst', hmore rest' hfront⟩)

theorem looksOneAhead_callArguments (hread : ∀ p, LooksOneAhead fun ts => outcome (read p ts)) :
    LooksOneAhead fun ts => outcome (callArguments stop read ts) := by
  simp only [LooksOneAhead]
  rintro ts ⟨args, close⟩ rest h
  rcases callArguments_eq_ok_iff.1 h with ⟨rfl, rfl⟩ | ⟨hparen, hargs⟩
  · exact ⟨[⟨.rightParen, close⟩], rfl, fun rest' _ => callArguments_eq_ok_iff.2 (.inl ⟨rfl, rfl⟩)⟩
  · obtain ⟨used, rfl, hlocal⟩ := looksOneAhead_arguments hread _ _ _ hargs
    refine ⟨used ++ [⟨.rightParen, close⟩], by simp, fun rest' hfront => ?_⟩
    rw [List.append_assoc]
    have hfront' : SameFront (⟨.rightParen, close⟩ :: rest) (⟨.rightParen, close⟩ :: rest') := rfl
    exact callArguments_eq_ok_iff.2
      (.inr ⟨(hfront'.append used).found_eq ▸ hparen, hlocal _ hfront'⟩)

/-- Whether a name is a call is the one thing that an operand looks ahead
for. -/
theorem looksOneAhead_operand (hread : ∀ p, LooksOneAhead fun ts => outcome (read p ts)) :
    LooksOneAhead fun ts => outcome (operand stop read ts) := by
  simp only [LooksOneAhead]
  intro ts e rest h
  cases opening ts with
  | number value place more =>
      rw [operand_number] at h
      simp only [Except.ok.injEq, Prod.mk.injEq] at h
      obtain ⟨rfl, rfl⟩ := h
      exact ⟨[⟨.number value, place⟩], rfl, fun rest' _ => operand_number value⟩
  | name name place hparen =>
      rw [operand_identifier name hparen] at h
      simp only [Except.ok.injEq, Prod.mk.injEq] at h
      obtain ⟨rfl, rfl⟩ := h
      exact ⟨[⟨.identifier name, place⟩], rfl, fun rest' hfront =>
        operand_identifier name (hfront.found_eq ▸ hparen)⟩
  | call name place opening inside =>
      obtain ⟨args, close, hargs, rfl⟩ := (operand_call_eq_ok_iff name).1 h
      obtain ⟨used, rfl, hlocal⟩ := looksOneAhead_callArguments hread _ _ _ hargs
      exact ⟨⟨.identifier name, place⟩ :: ⟨.leftParen, opening⟩ :: used, rfl, fun rest' hfront =>
        (operand_call_eq_ok_iff name).2 ⟨args, close, hlocal rest' hfront, rfl⟩⟩
  | grouped place inside =>
      obtain ⟨close, hbody⟩ := operand_grouped_eq_ok_iff.1 h
      obtain ⟨used, rfl, hlocal⟩ := hread _ _ _ _ hbody
      refine ⟨⟨.leftParen, place⟩ :: (used ++ [⟨.rightParen, close⟩]), by simp, fun rest' _ => ?_⟩
      rw [List.cons_append, List.append_assoc]
      exact operand_grouped_eq_ok_iff.2 ⟨close, hlocal (⟨.rightParen, close⟩ :: rest') rfl⟩
  | absolute place inside =>
      obtain ⟨body, close, hbody, rfl⟩ := operand_absolute_eq_ok_iff.1 h
      obtain ⟨used, rfl, hlocal⟩ := hread _ _ _ _ hbody
      refine ⟨⟨.bar, place⟩ :: (used ++ [⟨.bar, close⟩]), by simp, fun rest' _ => ?_⟩
      rw [List.cons_append, List.append_assoc]
      exact operand_absolute_eq_ok_iff.2 ⟨body, close, hlocal (⟨.bar, close⟩ :: rest') rfl, rfl⟩
  | @signed kind sign hsign place more =>
      obtain ⟨inner, hinner, rfl⟩ := (operand_signed_eq_ok_iff hsign).1 h
      obtain ⟨used, rfl, hlocal⟩ := hread _ _ _ _ hinner
      exact ⟨⟨kind, place⟩ :: used, rfl, fun rest' hfront =>
        (operand_signed_eq_ok_iff hsign).2 ⟨inner, hlocal rest' hfront, rfl⟩⟩
  | none hnone =>
      rw [operand_of_noOperand hnone] at h
      cases h

/-- An expression is read without a look at more than one token after it. -/
theorem looksOneAhead_expression (stop levels : Nat) :
    ∀ power, LooksOneAhead fun ts => outcome (expression stop levels power ts) := by
  induction levels with
  | zero =>
      intro power ts e rest h
      simp [expression] at h
  | succ levels ih =>
      intro power ts e rest h
      obtain ⟨first, after, hfirst, hrest⟩ := expression_eq_ok_iff.1 h
      obtain ⟨used, rfl, hlocal⟩ := looksOneAhead_operand ih _ _ _ hfirst
      obtain ⟨used', rfl, hmore⟩ := looksOneAhead_operations ih power first _ _ _ hrest
      refine ⟨used ++ used', by simp, fun rest' hfront => ?_⟩
      have hfirst' := hlocal (used' ++ rest') (hfront.append used')
      rw [List.append_assoc]
      exact expression_eq_ok_iff.2 ⟨first, _, hfirst', hmore rest' hfront⟩

end

end GlutSketch.Equation
