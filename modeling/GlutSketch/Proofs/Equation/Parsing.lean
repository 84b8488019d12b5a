import GlutSketch.Proofs.Equation.Reading

/-!
# GlutSketch.Proofs.Equation.Parsing

Reading by binding powers accepts exactly the grammar.  An expression read with
the power `p` is a sum if `p ≤ 9`, a product if `p ≤ 11`, and a signed operand
otherwise (`Phrase`), and it ends where no operator holds it at least as
strongly as `p`.

* `expression_sound`: whatever is read has a derivation that nests no deeper
  than the levels allow;
* `Reads`, and `IsSum.reads` with its companions: whatever has such a derivation
  is read, and the operators after it are then taken as if its tree had been
  read alone;
* `parse_iff_grammar`: both directions for whole lines.
-/

namespace GlutSketch.Equation

/-! ## Ends of expressions -/

section

variable {power p q : Nat} {ts rest : List Token} {kind : TokenKind} {place : Span}

theorem settled_nil : Settled power [] := by
  simp [Settled, frontOp?, found]

/-- The operations are done before a token that is no operator, or one that
binds less strongly. -/
theorem settled_cons_iff :
    Settled power (⟨kind, place⟩ :: rest) ↔ ∀ op ∈ kind.binaryOp?, op.leftPower < power := by
  simp [Settled, frontOp?, found]

theorem Settled.mono (h : Settled p ts) (hpq : p ≤ q) : Settled q ts :=
  fun op hop => Nat.lt_of_lt_of_le (h op hop) hpq

/-- Only `^` binds more strongly than a sign, and it does so by far. -/
theorem Settled.below_power (h : Settled power ts) (hpower : power ≤ 16) : Settled 12 ts := by
  intro op hop
  have hlt := h op hop
  cases op with
  | pow =>
      simp only [BinaryOp.leftPower] at hlt
      omega
  | add | sub | mul | div => decide

/-- Otherwise an operator comes next that binds strongly enough. -/
theorem exists_of_not_settled (h : ¬ Settled power ts) :
    ∃ kind place more op, ts = ⟨kind, place⟩ :: more ∧ kind.binaryOp? = some op ∧
      power ≤ op.leftPower := by
  cases ts with
  | nil => exact absurd settled_nil h
  | cons t more =>
      obtain ⟨kind, place⟩ := t
      simp only [settled_cons_iff, Option.mem_def, Classical.not_forall, Nat.not_lt] at h
      obtain ⟨op, hop, hle⟩ := h
      exact ⟨kind, place, more, op, rfl, hop, hle⟩

/-- The tokens can follow an expression that is read in a context of the given
power.  A parenthesis would make a name before it a call. -/
def Follows (power : Nat) (ts : List Token) : Prop := found ts ≠ some .leftParen ∧ Settled power ts

theorem Follows.mono (h : Follows p ts) (hpq : p ≤ q) : Follows q ts := ⟨h.1, h.2.mono hpq⟩

theorem follows_nil : Follows power [] := ⟨by simp [found], settled_nil⟩

/-- An operator that binds less strongly can follow. -/
theorem follows_of_binaryOp? {op : BinaryOp} (hop : kind.binaryOp? = some op)
    (hpower : op.leftPower < power) : Follows power (⟨kind, place⟩ :: rest) := by
  constructor
  · cases kind <;> simp_all [found, TokenKind.binaryOp?]
  · rw [settled_cons_iff]
    intro op' hop'
    rw [hop, Option.mem_some_iff] at hop'
    rwa [← hop']

theorem follows_of_not_binaryOp? (hop : kind.binaryOp? = none) (hparen : kind ≠ .leftParen) :
    Follows power (⟨kind, place⟩ :: rest) := by
  constructor
  · simpa [found] using hparen
  · simp [settled_cons_iff, hop]

end

/-- No right operand is read in a tighter context than that of a sign. -/
theorem BinaryOp.rightPower_le (op : BinaryOp) : op.rightPower ≤ 16 := by
  cases op <;> decide

theorem IsTermOperator.binaryOp? {kind : TokenKind} {op : BinaryOp} (h : IsTermOperator kind op) :
    kind.binaryOp? = some op := by
  cases h <;> rfl

theorem IsFactorOperator.binaryOp? {kind : TokenKind} {op : BinaryOp}
    (h : IsFactorOperator kind op) : kind.binaryOp? = some op := by
  cases h <;> rfl

/-! ## What is read has a derivation -/

/-- The expressions that are read in a context of a given power. -/
def Phrase (power : Nat) : List Token → Expr → Nat → Prop :=
  if power ≤ 9 then IsSum else if power ≤ 11 then IsProduct else IsUnary

/-- A reader of expressions is sound if what it reads has a derivation that
nests at most `levels` deep, up to a place where the expression ends. -/
def Sound (levels : Nat) (read : Reader) : Prop :=
  ∀ power ts e rest, power ≤ 16 → outcome (read power ts) = .ok (e, rest) →
    ∃ used n, ts = used ++ rest ∧ Phrase power used e n ∧ n ≤ levels ∧ Settled power rest

/-- The tokens `done`, read as `e`, are a left operand for every operator at the
front of `rest` that holds it as strongly as `power`. -/
inductive IsLeftOperand (power : Nat) (rest : List Token) : List Token → Expr → Nat → Prop
  | atom {done e n} (h : IsAtom done e n) : IsLeftOperand power rest done e n
  | unary {done e n} (h : IsUnary done e n) (hrest : Settled 12 rest) :
      IsLeftOperand power rest done e n
  | product {done e n} (hpower : power ≤ 11) (h : IsProduct done e n) (hrest : Settled 12 rest) :
      IsLeftOperand power rest done e n
  | sum {done e n} (hpower : power ≤ 9) (h : IsSum done e n) (hrest : Settled 10 rest) :
      IsLeftOperand power rest done e n

section

variable {power levels stop m n : Nat} {read : Reader} {ts rest used done after : List Token}
  {kind : TokenKind} {place : Span} {lhs rhs e whole : Expr} {op : BinaryOp}

/-- A left operand is a phrase of its context. -/
theorem IsLeftOperand.phrase (h : IsLeftOperand power rest done e n) : Phrase power done e n := by
  unfold Phrase
  cases h with
  | atom h =>
      split
      · exact h.toUnary.toSum
      · split
        · exact h.toProduct
        · exact h.toUnary
  | unary h =>
      split
      · exact h.toSum
      · split
        · exact .unary h
        · exact h
  | product hpower h =>
      split
      · exact .product h
      · exact h
  | sum hpower h =>
      rw [if_pos hpower]
      exact h

/-- Only a sum stands to the left of `+` or `-`, only a product to the left of
`*` or `/`, and only an atom to the left of `^`. -/
theorem IsLeftOperand.term (h : IsLeftOperand power rest done e n) (hpower : power ≤ 9) :
    IsSum done e n := by
  simpa [Phrase, hpower] using h.phrase

theorem IsLeftOperand.factor (h : IsLeftOperand power (⟨kind, place⟩ :: ts) done e n)
    (hop : IsFactorOperator kind op) : IsProduct done e n := by
  cases h with
  | atom h => exact h.toProduct
  | unary h => exact .unary h
  | product _ h => exact h
  | sum _ _ hrest =>
      have hlt := settled_cons_iff.1 hrest op hop.binaryOp?
      cases hop <;> simp [BinaryOp.leftPower] at hlt

/-- Only an atom stands to the left of a power. -/
theorem IsLeftOperand.base (h : IsLeftOperand power (⟨.caret, place⟩ :: ts) done e n) :
    IsAtom done e n := by
  have himpossible : ∀ p ≤ 12, ¬ Settled p (⟨.caret, place⟩ :: ts) := by
    intro p hp hrest
    have hlt := settled_cons_iff.1 hrest .pow rfl
    simp only [BinaryOp.leftPower] at hlt
    omega
  cases h with
  | atom h => exact h
  | unary _ hrest => exact absurd hrest (himpossible 12 (by omega))
  | product _ _ hrest => exact absurd hrest (himpossible 12 (by omega))
  | sum _ _ hrest => exact absurd hrest (himpossible 10 (by omega))

/-- An operation is a left operand again. -/
theorem IsLeftOperand.operation
    (hl : IsLeftOperand power (⟨kind, place⟩ :: ts) done lhs m) (hop : kind.binaryOp? = some op)
    (hpower : power ≤ op.leftPower) (hr : Phrase op.rightPower used rhs n)
    (hafter : Settled op.rightPower after) :
    IsLeftOperand power after (done ++ ⟨kind, place⟩ :: used) (operationTree op lhs rhs)
      (operationNesting m n) := by
  have term (hterm : IsTermOperator kind op) (hpower : power ≤ 9) (hr : IsProduct used rhs n)
      (hafter : Settled 10 after) : IsLeftOperand power after (done ++ ⟨kind, place⟩ :: used)
        (operationTree op lhs rhs) (operationNesting m n) :=
    .sum hpower (.operation place hterm (hl.term hpower) hr) hafter
  have factor (hfactor : IsFactorOperator kind op) (hpower : power ≤ 11) (hr : IsUnary used rhs n)
      (hafter : Settled 12 after) : IsLeftOperand power after (done ++ ⟨kind, place⟩ :: used)
        (operationTree op lhs rhs) (operationNesting m n) :=
    .product hpower (.operation place hfactor (hl.factor hfactor) hr) hafter
  cases kind <;> simp only [TokenKind.binaryOp?, Option.some.injEq, reduceCtorEq] at hop <;>
    subst hop
  case plus => exact term .add hpower hr hafter
  case minus => exact term .sub hpower hr hafter
  case star => exact factor .mul hpower hr hafter
  case slash => exact factor .div hpower hr hafter
  case caret =>
    have hr : IsUnary used rhs n := hr
    exact .unary (.power (.raised place hl.base hr)) (hafter.below_power (by decide))

theorem length_of_outcome {α : Type} {a : α} {r : Except Error (Parsed α ts)}
    (h : outcome r = .ok (a, rest)) : rest.length < ts.length := by
  obtain ⟨shorter, -⟩ := outcome_eq_ok_iff.1 h
  exact shorter

/-- The operators after a left operand extend it as far as the power allows. -/
theorem operations_sound (hread : Sound levels read)
    (hlhs : IsLeftOperand power ts done lhs m) (hm : m ≤ levels + 1)
    (h : extent (operations read power lhs ts) = .ok (whole, rest)) :
    ∃ used n, ts = used ++ rest ∧ Phrase power (done ++ used) whole n ∧ n ≤ levels + 1 ∧
      Settled power rest := by
  -- the tokens get fewer with each operator, while `done` grows by what they
  -- lose
  induction hlen : ts.length using Nat.strongRecOn generalizing ts done lhs m with
  | _ length ih =>
      subst hlen
      by_cases hsettled : Settled power ts
      · rw [operations_of_settled hsettled] at h
        simp only [Except.ok.injEq, Prod.mk.injEq] at h
        obtain ⟨rfl, rfl⟩ := h
        exact ⟨[], m, rfl, by simpa using hlhs.phrase, hm, hsettled⟩
      · obtain ⟨kind, place, more, op, rfl, hop, hle⟩ := exists_of_not_settled hsettled
        obtain ⟨rhs, after, hrhs, hrest⟩ := (operations_eq_ok_iff hop hle).1 h
        obtain ⟨used, n, rfl, hphrase, hn, hafter⟩ := hread _ _ _ _ op.rightPower_le hrhs
        have hnext := hlhs.operation hop hle hphrase hafter
        obtain ⟨used', n', rfl, hwhole, hn', hend⟩ :=
          ih after.length (by simp only [List.length_cons, List.length_append]; omega) hnext
            (by simp only [operationNesting]; omega) hrest rfl
        exact ⟨⟨kind, place⟩ :: (used ++ used'), n', by simp, by simpa using hwhole, hn', hend⟩

/-- Arguments that are read are arguments of the grammar. -/
theorem arguments_sound (hread : Sound levels read) {args : List Expr}
    (h : outcome (arguments read ts) = .ok (args, rest)) :
    ∃ used n, ts = used ++ rest ∧ IsArguments used args n ∧ n ≤ levels := by
  induction hlen : ts.length using Nat.strongRecOn generalizing ts args with
  | _ length ih =>
      subst hlen
      rcases arguments_eq_ok_iff.1 h with
        ⟨first, rfl, hfirst, -⟩ | ⟨first, others, place, more, rfl, hfirst, hothers⟩
      · obtain ⟨used, n, rfl, hsum, hn, -⟩ := hread _ _ _ _ (by decide) hfirst
        exact ⟨used, n, rfl, .last hsum, hn⟩
      · obtain ⟨used, n, rfl, hsum, hn, -⟩ := hread _ _ _ _ (by decide) hfirst
        obtain ⟨used', n', rfl, hargs, hn'⟩ := ih more.length (by simp; omega) hothers rfl
        exact ⟨used ++ ⟨.comma, place⟩ :: used', max n n', by simp, .more place hsum hargs,
          Nat.max_le.2 ⟨hn, hn'⟩⟩

/-- An operand that is read is a left operand of the grammar. -/
theorem operand_sound (hread : Sound levels read)
    (h : outcome (operand stop read ts) = .ok (e, rest)) :
    ∃ used n, ts = used ++ rest ∧ IsLeftOperand power rest used e n ∧ n ≤ levels + 1 := by
  have signed {kind sign place more} (hsign : IsSign kind sign)
      (h : outcome (operand stop read (⟨kind, place⟩ :: more)) = .ok (e, rest)) :
      ∃ used n, ⟨kind, place⟩ :: more = used ++ rest ∧ IsLeftOperand power rest used e n ∧
        n ≤ levels + 1 := by
    obtain ⟨inner, hinner, rfl⟩ := (operand_signed_eq_ok_iff hsign).1 h
    obtain ⟨used, n, rfl, hunary, hn, hrest⟩ := hread _ _ _ _ (by decide) hinner
    exact ⟨⟨kind, place⟩ :: used, 1 + n, rfl,
      .unary (.signed place hsign hunary) (hrest.below_power (by decide)), by omega⟩
  match ts, h with
  | [], h => simp [operand] at h
  | ⟨.number value, place⟩ :: more, h =>
      rw [operand_number] at h
      simp only [Except.ok.injEq, Prod.mk.injEq] at h
      obtain ⟨rfl, rfl⟩ := h
      exact ⟨[_], 1, rfl, .atom (.number value place), by omega⟩
  | ⟨.identifier name, place⟩ :: more, h =>
      by_cases hparen : found more = some .leftParen
      · obtain ⟨opening, inside, rfl⟩ := exists_of_found hparen
        obtain ⟨args, close, hargs, rfl⟩ := (operand_call_eq_ok_iff name).1 h
        rcases callArguments_eq_ok_iff.1 hargs with ⟨rfl, rfl⟩ | ⟨-, hargs⟩
        · exact ⟨[_, _, _], 1, rfl, .atom (.emptyCall name place opening close), by omega⟩
        · obtain ⟨used, n, rfl, hargs, hn⟩ := arguments_sound hread hargs
          exact ⟨_, 1 + n, by simp, .atom (.call name place opening close hargs), by omega⟩
      · rw [operand_identifier name hparen] at h
        simp only [Except.ok.injEq, Prod.mk.injEq] at h
        obtain ⟨rfl, rfl⟩ := h
        exact ⟨[_], 1, rfl, .atom (.identifier name place), by omega⟩
  | ⟨.leftParen, place⟩ :: more, h =>
      obtain ⟨close, hbody⟩ := operand_grouped_eq_ok_iff.1 h
      obtain ⟨used, n, rfl, hsum, hn, -⟩ := hread _ _ _ _ (by decide) hbody
      exact ⟨_, 1 + n, by simp, .atom (.grouped place close hsum), by omega⟩
  | ⟨.bar, place⟩ :: more, h =>
      obtain ⟨body, close, hbody, rfl⟩ := operand_absolute_eq_ok_iff.1 h
      obtain ⟨used, n, rfl, hsum, hn, -⟩ := hread _ _ _ _ (by decide) hbody
      exact ⟨_, 1 + n, by simp, .atom (.absolute place close hsum), by omega⟩
  | ⟨.plus, place⟩ :: more, h => exact signed .plus h
  | ⟨.minus, place⟩ :: more, h => exact signed .minus h
  | ⟨.star, _⟩ :: _, h | ⟨.slash, _⟩ :: _, h | ⟨.caret, _⟩ :: _, h | ⟨.equals, _⟩ :: _, h
  | ⟨.rightParen, _⟩ :: _, h | ⟨.comma, _⟩ :: _, h => simp [operand] at h

/-- **Soundness**: whatever is read as an expression has a derivation. -/
theorem expression_sound (stop levels : Nat) : Sound levels (expression stop levels) := by
  induction levels with
  | zero =>
      intro power ts e rest _ h
      simp [expression] at h
  | succ levels ih =>
      intro power ts e rest _ h
      obtain ⟨first, after, hfirst, hrest⟩ := expression_eq_ok_iff.1 h
      obtain ⟨done, m, rfl, hoperand, hm⟩ := operand_sound ih hfirst
      obtain ⟨used, n, rfl, hphrase, hn, hend⟩ := operations_sound ih hoperand hm hrest
      exact ⟨done ++ used, n, by simp, hphrase, hn, hend⟩

end

/-! ## What has a derivation is read -/

/-- Reading the tokens `ts`, in a context of power at most `loosest` and before
tokens that can follow in a context of power `follow`, comes down to reading the
operators after the tree `e`. -/
def Reads (stop loosest follow : Nat) (ts : List Token) (e : Expr) (n : Nat) : Prop :=
  ∀ levels power rest whole last, n ≤ levels + 1 → power ≤ loosest → Follows follow rest →
    extent (operations (expression stop levels) power e rest) = .ok (whole, last) →
    outcome (expression stop (levels + 1) power (ts ++ rest)) = .ok (whole, last)

section

variable {stop a b c d n m : Nat} {ts ls rs rest : List Token} {l r e : Expr}

/-- Before an operator that its context does not admit, exactly the tree is
read. -/
theorem Reads.whole {levels power : Nat} (h : Reads stop a b ts e n) (hpos : 0 < n)
    (hn : n ≤ levels) (hpower : power ≤ a) (hfollows : Follows b rest)
    (hsettled : Settled power rest) :
    outcome (expression stop levels power (ts ++ rest)) = .ok (e, rest) := by
  obtain ⟨below, rfl⟩ : ∃ below, levels = below + 1 := ⟨levels - 1, by omega⟩
  exact h _ _ _ _ _ hn hpower hfollows (operations_of_settled hsettled)

/-- An operand is read as such, and the operators after it extend it. -/
theorem Reads.of_operand
    (h : ∀ levels rest, n ≤ levels + 1 → Follows b rest →
      outcome (operand stop (expression stop levels) (ts ++ rest)) = .ok (e, rest)) :
    Reads stop a b ts e n := by
  intro levels power rest whole last hn _ hfollows hrest
  exact expression_eq_ok_iff.2 ⟨e, rest, h levels rest hn hfollows, hrest⟩

/-- An operation is read if its operands are: the operator admits the left
operand before it and is admitted by the context (`ha`, `hb`), and the right
operand ends with the operation (`hc`, `hd`). -/
theorem Reads.operation {kind : TokenKind} {op : BinaryOp} {a' d' : Nat} {place : Span}
    (hop : kind.binaryOp? = some op) (hl : Reads stop a b ls l m) (hr : Reads stop c d rs r n)
    (hpos : 0 < n) (ha : a' ≤ min a op.leftPower) (hb : op.leftPower < b)
    (hc : op.rightPower ≤ c) (hd : d' ≤ min d op.rightPower) :
    Reads stop a' d' (ls ++ ⟨kind, place⟩ :: rs) (operationTree op l r) (operationNesting m n) := by
  intro levels power rest whole last hn hpower hfollows hrest
  simp only [operationNesting] at hn
  have hright : outcome (expression stop levels op.rightPower (rs ++ rest)) = .ok (r, rest) :=
    hr.whole hpos (by omega) hc (hfollows.mono (by omega)) (hfollows.2.mono (by omega))
  rw [List.append_assoc]
  refine hl levels power _ whole last (by omega) (by omega) (follows_of_binaryOp? hop hb) ?_
  exact (operations_eq_ok_iff hop (by omega)).2 ⟨r, rest, hright, hrest⟩

/-- No argument begins with a closing parenthesis. -/
theorem found_ne_rightParen {levels : Nat} {args : List Expr}
    (h : outcome (arguments (expression stop levels) ts) = .ok (args, rest)) :
    found ts ≠ some .rightParen := by
  intro hfound
  obtain ⟨place, more, rfl⟩ := exists_of_found hfound
  have hread : ∀ first after,
      outcome (expression stop levels 0 (⟨.rightParen, place⟩ :: more)) ≠ .ok (first, after) := by
    intro first after hfirst
    cases levels with
    | zero => simp [expression] at hfirst
    | succ levels =>
        obtain ⟨_, _, hoperand, -⟩ := expression_eq_ok_iff.1 hfirst
        simp [operand] at hoperand
  rcases arguments_eq_ok_iff.1 h with ⟨_, -, hfirst, -⟩ | ⟨_, _, _, _, -, hfirst, -⟩
  · exact hread _ _ hfirst
  · exact hread _ _ hfirst

/-- A sum before a token that is neither an operator nor a parenthesis is read
as an expression. -/
theorem Reads.before {levels : Nat} {kind : TokenKind} {place : Span} (h : Reads stop a b ts e n)
    (hpos : 0 < n) (hn : n ≤ levels) (hop : kind.binaryOp? = none) (hparen : kind ≠ .leftParen) :
    outcome (expression stop levels 0 (ts ++ ⟨kind, place⟩ :: rest)) =
      .ok (e, ⟨kind, place⟩ :: rest) :=
  h.whole hpos hn (Nat.zero_le _) (follows_of_not_binaryOp? hop hparen)
    (follows_of_not_binaryOp? hop hparen).2

end

mutual

/-- **Completeness**: every derivation is followed by the reader. -/
theorem IsSum.reads {ts : List Token} {e : Expr} {n : Nat} (stop : Nat) :
    IsSum ts e n → Reads stop 9 10 ts e n
  | .product h => fun levels power rest whole last hn hpower hfollows hrest =>
      h.reads stop levels power rest whole last hn (by omega) (hfollows.mono (by decide)) hrest
  | .operation _ hop hl hr => by
      refine (hl.reads stop).operation hop.binaryOp? (hr.reads stop) hr.nesting_pos ?_ ?_ ?_ ?_ <;>
        cases hop <;> decide

/-- Products are read in the contexts in which an operator of products binds. -/
theorem IsProduct.reads {ts : List Token} {e : Expr} {n : Nat} (stop : Nat) :
    IsProduct ts e n → Reads stop 11 12 ts e n
  | .unary h => fun levels power rest whole last hn hpower hfollows hrest =>
      h.reads stop levels power rest whole last hn (by omega) hfollows hrest
  | .operation _ hop hl hr => by
      refine (hl.reads stop).operation hop.binaryOp? (hr.reads stop) hr.nesting_pos ?_ ?_ ?_ ?_ <;>
        cases hop <;> decide

/-- Signed operands are read in every context, before what follows any
operand. -/
theorem IsUnary.reads {ts : List Token} {e : Expr} {n : Nat} (stop : Nat) :
    IsUnary ts e n → Reads stop 16 12 ts e n
  | .power h => h.reads stop
  | .signed place hsign h => .of_operand fun levels rest hn hfollows => by
      refine (operand_signed_eq_ok_iff hsign).2 ⟨_, ?_, rfl⟩
      exact (h.reads stop).whole h.nesting_pos (by omega) (by decide) hfollows
        (hfollows.2.mono (by decide))

/-- Powers are read in every context, before what follows any operand. -/
theorem IsPower.reads {ts : List Token} {e : Expr} {n : Nat} (stop : Nat) :
    IsPower ts e n → Reads stop 16 12 ts e n
  | .atom h => fun levels power rest whole last hn hpower hfollows hrest =>
      h.reads stop levels power rest whole last hn hpower (hfollows.mono (by decide)) hrest
  | .raised _ hl hr => by
      refine (hl.reads stop).operation rfl (hr.reads stop) hr.nesting_pos ?_ ?_ ?_ ?_ <;> decide

/-- Atoms are read in every context, also before a caret. -/
theorem IsAtom.reads {ts : List Token} {e : Expr} {n : Nat} (stop : Nat) :
    IsAtom ts e n → Reads stop 16 17 ts e n
  | .number .. => .of_operand fun levels rest hn hfollows => operand_number _
  | .identifier .. => .of_operand fun levels rest hn hfollows => operand_identifier _ hfollows.1
  | .emptyCall .. => .of_operand fun levels rest hn hfollows => rfl
  | .call name place opening closing h => .of_operand fun levels rest hn hfollows => by
      have hargs := h.reads stop levels closing rest (by omega)
      rw [List.cons_append, List.cons_append, List.append_assoc]
      refine (operand_call_eq_ok_iff name).2 ⟨_, closing, ?_, rfl⟩
      exact callArguments_eq_ok_iff.2 (.inr ⟨found_ne_rightParen hargs, hargs⟩)
  | .grouped opening closing h => .of_operand fun levels rest hn hfollows => by
      rw [List.cons_append, List.append_assoc]
      refine operand_grouped_eq_ok_iff.2 ⟨closing, ?_⟩
      exact (h.reads stop).before h.nesting_pos (by omega) rfl (by decide)
  | .absolute opening closing h => .of_operand fun levels rest hn hfollows => by
      rw [List.cons_append, List.append_assoc]
      refine operand_absolute_eq_ok_iff.2 ⟨_, closing, ?_, rfl⟩
      exact (h.reads stop).before h.nesting_pos (by omega) rfl (by decide)

/-- Arguments are read up to the parenthesis that closes them. -/
theorem IsArguments.reads {ts : List Token} {es : List Expr} {n : Nat} (stop : Nat) :
    IsArguments ts es n → ∀ levels close rest, n ≤ levels →
      outcome (arguments (expression stop levels) (ts ++ ⟨.rightParen, close⟩ :: rest)) =
        .ok (es, ⟨.rightParen, close⟩ :: rest)
  | .last h => fun levels close rest hn => by
      refine arguments_eq_ok_iff.2 (.inl ⟨_, rfl, ?_, by simp [found]⟩)
      exact (h.reads stop).before h.nesting_pos hn rfl (by decide)
  | .more place hl hr => fun levels close rest hn => by
      have hfirst (more : List Token) :
          outcome (expression stop levels 0 (_ ++ ⟨.comma, place⟩ :: more)) =
            .ok (_, ⟨.comma, place⟩ :: more) :=
        (hl.reads stop).before hl.nesting_pos (Nat.le_trans (Nat.le_max_left ..) hn) rfl (by decide)
      have hothers := hr.reads stop levels close rest (Nat.le_trans (Nat.le_max_right ..) hn)
      rw [List.append_assoc, List.cons_append]
      exact arguments_eq_ok_iff.2 (.inr ⟨_, _, place, _, rfl, hfirst _, hothers⟩)

end

/-! ## Whole lines -/

section

variable {stop : Nat} {ts : List Token}

/-- An expression is accepted if it is read to the end of the line. -/
theorem parseExpression_eq_ok_iff_outcome {e : Expr} :
    parseExpression stop ts = .ok e ↔
      outcome (expression stop maxNesting 0 ts) = .ok (e, []) := by
  unfold parseExpression
  cases expression stop maxNesting 0 ts with
  | error err => simp
  | ok p =>
      obtain ⟨value, rest, shorter⟩ := p
      cases rest <;> simp [expectEnd, Except.map]

/-- **Expressions**: the parser accepts the expressions of the grammar and
builds their trees. -/
theorem parseExpression_eq_ok_iff {e : Expr} :
    parseExpression stop ts = .ok e ↔ IsExpression ts e := by
  rw [parseExpression_eq_ok_iff_outcome]
  constructor
  · intro h
    obtain ⟨used, n, hts, hsum, hn, -⟩ := expression_sound stop maxNesting _ _ _ _ (by decide) h
    rw [List.append_nil] at hts
    exact ⟨n, hts ▸ hsum, hn⟩
  · rintro ⟨n, hsum, hn⟩
    have h := (hsum.reads stop).whole hsum.nesting_pos hn (Nat.zero_le 9) follows_nil settled_nil
    rwa [List.append_nil] at h

/-- **Uniqueness**: a line has at most one tree, however deep it nests. -/
theorem IsSum.unique {e e' : Expr} {n n' : Nat} (h : IsSum ts e n) (h' : IsSum ts e' n') :
    e = e' := by
  have read {e n levels} (h : IsSum ts e n) (hn : n ≤ levels) :
      outcome (expression 0 levels 0 (ts ++ [])) = .ok (e, []) :=
    (h.reads 0).whole h.nesting_pos hn (Nat.zero_le 9) follows_nil settled_nil
  have heq := (read h (Nat.le_max_left n n')).symm.trans (read h' (Nat.le_max_right n n'))
  simpa using heq

theorem expectEnd_map_eq_ok_iff {α : Type} {a q : α} :
    (expectEnd ts).map (fun _ => a) = .ok q ↔ ts = [] ∧ q = a := by
  cases ts <;> simp [expectEnd, Except.map, eq_comm]

/-- A vertical line has one number and nothing after it. -/
theorem verticalNumber_eq_ok_iff {negative : Bool} {first : Span} {q : Equation Expr} :
    verticalNumber stop negative first ts = .ok q ↔
      ∃ value place, ts = [⟨.number value, place⟩] ∧
        q = .vertical (if negative then -value else value) := by
  unfold verticalNumber
  split
  · next value place rest =>
    rw [expectEnd_map_eq_ok_iff]
    constructor
    · rintro ⟨rfl, rfl⟩
      exact ⟨value, place, rfl, rfl⟩
    · rintro ⟨_, _, h, rfl⟩
      simp only [List.cons.injEq, Token.mk.injEq, TokenKind.number.injEq] at h
      obtain ⟨⟨rfl, -⟩, rfl⟩ := h
      exact ⟨rfl, rfl⟩
  · next hnumber =>
    simp only [reduceCtorEq, false_iff]
    rintro ⟨value, place, rfl, -⟩
    exact hnumber _ _ _ rfl

/-- Anything but a number is reported with the sign before it. -/
theorem verticalNumber_of_not_number {negative : Bool} {first : Span}
    (h : ∀ value, found ts ≠ some (.number value)) :
    verticalNumber stop negative first ts =
      .error ⟨.notConstant (found ts), first.merge (frontSpan stop ts)⟩ := by
  unfold verticalNumber
  split
  · next value place rest => exact absurd rfl (h value)
  · rfl

/-- A sign is taken before the number of a vertical line. -/
theorem parseVertical_signed {kind : TokenKind} {sign : Sign} (hsign : IsSign kind sign)
    (place : Span) :
    parseVertical stop (⟨kind, place⟩ :: ts) = verticalNumber stop (sign = .minus) place ts := by
  cases hsign <;> rfl

/-- Without a sign the number has to come at once. -/
theorem parseVertical_unsigned (h : ∀ kind ∈ found ts, ∀ sign, ¬ IsSign kind sign) :
    parseVertical stop ts = verticalNumber stop false (frontSpan stop ts) ts := by
  unfold parseVertical
  split
  · exact absurd .minus (h _ rfl _)
  · exact absurd .plus (h _ rfl _)
  · rfl

/-- A vertical line is given by a number, perhaps with a sign. -/
theorem parseVertical_eq_ok_iff {q : Equation Expr} :
    parseVertical stop ts = .ok q ↔ ∃ x, IsSignedNumber ts x ∧ q = .vertical x := by
  constructor
  · intro h
    unfold parseVertical at h
    split at h <;> obtain ⟨value, place, rfl, rfl⟩ := verticalNumber_eq_ok_iff.1 h
    · exact ⟨_, .minus value _ place, rfl⟩
    · exact ⟨_, .plus value _ place, rfl⟩
    · exact ⟨_, .unsigned value place, rfl⟩
  · rintro ⟨x, hx, rfl⟩
    cases hx <;> simp only [parseVertical, verticalNumber_eq_ok_iff] <;> exact ⟨_, _, rfl, rfl⟩

/-- An expression has at least one token. -/
theorem not_isExpression_nil {e : Expr} : ¬ IsExpression [] e := by
  intro he
  have hread : outcome (expression 0 maxNesting 0 []) = .ok (e, []) :=
    parseExpression_eq_ok_iff_outcome.1 (parseExpression_eq_ok_iff.2 he)
  exact Nat.lt_irrefl _ (length_of_outcome hread)

/-- An equals sign is no operator, so that a line that begins like an equation
is no expression. -/
theorem IsSum.not_defines {name : String} {e : Expr} {n : Nat} (h : IsSum ts e n) :
    ¬ Defines name ts := by
  rintro ⟨place, equals, rest, rfl⟩
  obtain ⟨levels, rfl⟩ := Nat.exists_eq_succ_of_ne_zero (Nat.ne_of_gt h.nesting_pos)
  have hread : outcome (expression 0 (levels + 1) 0 (_ ++ [])) = .ok (e, []) :=
    (h.reads 0).whole h.nesting_pos (Nat.le_refl _) (Nat.zero_le 9) follows_nil settled_nil
  rw [List.append_nil] at hread
  obtain ⟨first, after, hfirst, hrest⟩ := expression_eq_ok_iff.1 hread
  rw [operand_identifier name (by simp [found])] at hfirst
  simp only [Except.ok.injEq, Prod.mk.injEq] at hfirst
  obtain ⟨rfl, rfl⟩ := hfirst
  rw [operations_of_settled (by simp [settled_cons_iff, TokenKind.binaryOp?])] at hrest
  simp at hrest

/-- No expression begins with a name and an equals sign. -/
theorem not_isExpression_of_defines {name : String} {e : Expr} (h : Defines name ts) :
    ¬ IsExpression ts e := by
  rintro ⟨n, hsum, -⟩
  exact hsum.not_defines h

/-- A line that begins neither like `x =` nor like `y =` is the graph of its
expression. -/
theorem parseEquation_graph (hne : ts ≠ []) (hx : ¬ Defines "x" ts) (hy : ¬ Defines "y" ts) :
    parseEquation stop ts = (parseExpression stop ts).map .function := by
  unfold parseEquation
  split
  · exact absurd rfl hne
  · exact absurd ⟨_, _, _, rfl⟩ hx
  · exact absurd ⟨_, _, _, rfl⟩ hy
  · rfl

/-- **Lines**: the parser accepts the lines of the grammar and gives their one
reading. -/
theorem parseEquation_eq_ok_iff {q : Equation Expr} :
    parseEquation stop ts = .ok q ↔ IsEquation ts q := by
  have body {ts : List Token} : (parseExpression stop ts).map .function = .ok q ↔
      ∃ e, IsExpression ts e ∧ q = .function e := by
    have hiff (e : Expr) : parseExpression stop ts = .ok e ↔ IsExpression ts e :=
      parseExpression_eq_ok_iff
    simp only [← hiff]
    cases parseExpression stop ts <;> simp [Except.map, eq_comm]
  constructor
  · intro h
    unfold parseEquation at h
    split at h
    · simp at h
    · obtain ⟨x, hx, rfl⟩ := parseVertical_eq_ok_iff.1 h
      exact .vertical _ _ hx
    · obtain ⟨e, he, rfl⟩ := body.1 h
      exact .namedGraph _ _ he
    · next hx _ =>
      obtain ⟨e, he, rfl⟩ := body.1 h
      refine .graph ?_ he
      rintro ⟨place, equals, rest, rfl⟩
      exact hx _ _ _ rfl
  · rintro (⟨place, equals, hx⟩ | ⟨hx, he⟩ | ⟨place, equals, he⟩)
    · exact parseVertical_eq_ok_iff.2 ⟨_, hx, rfl⟩
    · unfold parseEquation
      split
      · exact (not_isExpression_nil he).elim
      · exact (not_isExpression_of_defines ⟨_, _, _, rfl⟩ he).elim
      · exact (not_isExpression_of_defines ⟨_, _, _, rfl⟩ he).elim
      · exact body.2 ⟨_, he, rfl⟩
    · exact body.2 ⟨_, he, rfl⟩

/-- **Parser and grammar**: reading accepts exactly the lines of the grammar,
with the tree that the grammar gives them, and the grammar gives a line one tree
only. -/
theorem parse_iff_grammar (stop : Nat) (ts : List Token) :
    (∀ e, parseExpression stop ts = .ok e ↔ IsExpression ts e) ∧
      (∀ q, parseEquation stop ts = .ok q ↔ IsEquation ts q) ∧
      Subsingleton { e : Expr // ∃ n, IsSum ts e n } := by
  refine ⟨fun _ => parseExpression_eq_ok_iff, fun _ => parseEquation_eq_ok_iff, ⟨?_⟩⟩
  rintro ⟨e, n, h⟩ ⟨e', n', h'⟩
  exact Subtype.ext (h.unique h')

end

end GlutSketch.Equation
