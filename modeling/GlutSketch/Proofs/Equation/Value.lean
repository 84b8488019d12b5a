import GlutSketch.Proofs.Equation.Relocation

/-!
# GlutSketch.Proofs.Equation.Value

What an equation means, read off its tokens.  `SumValue I x ks a` says that the
tokens of the kinds `ks` are a sum of value `a` at `x`, and likewise for the
other levels of the grammar; the operations are those of the interpretation `I`,
whatever they are.  The terms of a sum and the factors of a product are folded
from left to right, and there is no tree in between.

* `IsSum.value`, `SumValue.exists_isSum` -- the value of a tree is that of the
  tokens it was read from, and no other;
* `evalWith_iff_lineValue` -- the formula of a line has the value of its tokens.
-/

namespace GlutSketch.Equation

/-! ## Values -/

/-- A value and the operations that follow it, from left to right. -/
def Interpretation.fold {α : Type} (I : Interpretation α) (first : α)
    (more : List (BinaryOp × α)) : α :=
  more.foldl (fun value next => I.binary next.1 value next.2) first

mutual

/-- Products with `+` or `-` between them. -/
inductive SumValue {α : Type} (I : Interpretation α) (x : α) : List TokenKind → α → Prop
  | fold {first more : List TokenKind} {a : α} {terms : List (BinaryOp × α)}
      (hfirst : ProductValue I x first a) (hmore : TermValues I x more terms) :
      SumValue I x (first ++ more) (I.fold a terms)

/-- The terms after the first, each with the operator before it. -/
inductive TermValues {α : Type} (I : Interpretation α) (x : α) :
    List TokenKind → List (BinaryOp × α) → Prop
  | nil : TermValues I x [] []
  | cons {kind : TokenKind} {op : BinaryOp} {ks more : List TokenKind} {a : α}
      {terms : List (BinaryOp × α)} (hop : IsTermOperator kind op) (h : ProductValue I x ks a)
      (hmore : TermValues I x more terms) : TermValues I x (kind :: (ks ++ more)) ((op, a) :: terms)

/-- Signed operands with `*` or `/` between them. -/
inductive ProductValue {α : Type} (I : Interpretation α) (x : α) : List TokenKind → α → Prop
  | fold {first more : List TokenKind} {a : α} {factors : List (BinaryOp × α)}
      (hfirst : UnaryValue I x first a) (hmore : FactorValues I x more factors) :
      ProductValue I x (first ++ more) (I.fold a factors)

/-- The factors after the first, each with the operator before it. -/
inductive FactorValues {α : Type} (I : Interpretation α) (x : α) :
    List TokenKind → List (BinaryOp × α) → Prop
  | nil : FactorValues I x [] []
  | cons {kind : TokenKind} {op : BinaryOp} {ks more : List TokenKind} {a : α}
      {factors : List (BinaryOp × α)} (hop : IsFactorOperator kind op) (h : UnaryValue I x ks a)
      (hmore : FactorValues I x more factors) :
      FactorValues I x (kind :: (ks ++ more)) ((op, a) :: factors)

/-- A power, perhaps after signs. -/
inductive UnaryValue {α : Type} (I : Interpretation α) (x : α) : List TokenKind → α → Prop
  | power {ks : List TokenKind} {a : α} (h : PowerValue I x ks a) : UnaryValue I x ks a
  | plus {ks : List TokenKind} {a : α} (h : UnaryValue I x ks a) : UnaryValue I x (.plus :: ks) a
  | minus {ks : List TokenKind} {a : α} (h : UnaryValue I x ks a) :
      UnaryValue I x (.minus :: ks) (I.negate a)

/-- An atom, perhaps raised to an exponent, which may have signs and an exponent
of its own. -/
inductive PowerValue {α : Type} (I : Interpretation α) (x : α) : List TokenKind → α → Prop
  | atom {ks : List TokenKind} {a : α} (h : AtomValue I x ks a) : PowerValue I x ks a
  | raised {base exponent : List TokenKind} {a b : α} (hbase : AtomValue I x base a)
      (hexponent : UnaryValue I x exponent b) :
      PowerValue I x (base ++ .caret :: exponent) (I.binary .pow a b)

/-- A number, a name, the value of a function, or a sum between parentheses or
bars. -/
inductive AtomValue {α : Type} (I : Interpretation α) (x : α) : List TokenKind → α → Prop
  | number (value : Float) : AtomValue I x [.number value] (I.number value)
  | argument : AtomValue I x [.identifier "x"] x
  | constant {name : String} {value : Float} (hname : IsConstantName name value) :
      AtomValue I x [.identifier name] (I.number value)
  | application {name : String} {f : Builtin} {ks : List TokenKind} {a : α}
      (hname : IsFunctionName name f) (h : SumValue I x ks a) :
      AtomValue I x (.identifier name :: .leftParen :: (ks ++ [.rightParen])) (I.apply f a)
  | grouped {ks : List TokenKind} {a : α} (h : SumValue I x ks a) :
      AtomValue I x (.leftParen :: (ks ++ [.rightParen])) a
  | absolute {ks : List TokenKind} {a : α} (h : SumValue I x ks a) :
      AtomValue I x (.bar :: (ks ++ [.bar])) (I.apply .abs a)

end

/-- The value of a line: of a sum, perhaps after `y =`. -/
inductive LineValue {α : Type} (I : Interpretation α) (x : α) : List TokenKind → α → Prop
  | graph {ks : List TokenKind} {a : α} (h : SumValue I x ks a) : LineValue I x ks a
  | namedGraph {ks : List TokenKind} {a : α} (h : SumValue I x ks a) :
      LineValue I x (.identifier "y" :: .equals :: ks) a

/-! ## Values of trees -/

/-- All names of the expression mean something, and its value is `a`. -/
def Expr.HasValue {α : Type} (I : Interpretation α) (x : α) (e : Expr) (a : α) : Prop :=
  ∃ f, e.resolve = .ok f ∧ f.evalWith I x = a

section

variable {α : Type} {I : Interpretation α} {x a : α} {e l r : Expr} {name : String}
  {place span : Span}

theorem hasValue_number {value : Float} :
    (Expr.number value place).HasValue I x a ↔ a = I.number value := by
  simp [Expr.HasValue, Expr.resolve, Formula.evalWith, eq_comm]

/-- A name is the variable or a constant, and has its value. -/
theorem hasValue_identifier :
    (Expr.identifier name place).HasValue I x a ↔
      (name = "x" ∧ a = x) ∨ ∃ value, IsConstantName name value ∧ a = I.number value := by
  simp only [Expr.HasValue, resolve_identifier_eq_ok_iff]
  constructor
  · rintro ⟨_, ⟨hx, rfl⟩ | ⟨value, hname, rfl⟩, rfl⟩
    · exact .inl ⟨hx, rfl⟩
    · exact .inr ⟨value, hname, rfl⟩
  · rintro (⟨hx, rfl⟩ | ⟨value, hname, rfl⟩)
    · exact ⟨_, .inl ⟨hx, rfl⟩, rfl⟩
    · exact ⟨_, .inr ⟨value, hname, rfl⟩, rfl⟩

/-- An operation has the value that its operands give. -/
theorem hasValue_operationTree {op : BinaryOp} :
    (operationTree op l r).HasValue I x a ↔
      ∃ b c, l.HasValue I x b ∧ r.HasValue I x c ∧ a = I.binary op b c := by
  simp only [Expr.HasValue, operationTree, resolve_binary_eq_ok_iff]
  constructor
  · rintro ⟨_, ⟨f, g, hl, hr, rfl⟩, rfl⟩
    exact ⟨_, _, ⟨f, hl, rfl⟩, ⟨g, hr, rfl⟩, rfl⟩
  · rintro ⟨_, _, ⟨f, hl, rfl⟩, ⟨g, hr, rfl⟩, rfl⟩
    exact ⟨_, ⟨f, g, hl, hr, rfl⟩, rfl⟩

theorem Expr.HasValue.operation {b : α} (op : BinaryOp) (hl : l.HasValue I x a)
    (hr : r.HasValue I x b) : (operationTree op l r).HasValue I x (I.binary op a b) :=
  hasValue_operationTree.2 ⟨a, b, hl, hr, rfl⟩

theorem hasValue_plus : (Expr.signed .plus e place).HasValue I x a ↔ e.HasValue I x a := by
  simp only [Expr.HasValue, resolve_signed]
  cases e.resolve <;> simp [Except.map]

/-- A minus negates what it is a sign of. -/
theorem hasValue_minus :
    (Expr.signed .minus e place).HasValue I x a ↔ ∃ b, e.HasValue I x b ∧ a = I.negate b := by
  simp only [Expr.HasValue, resolve_signed]
  cases e.resolve <;> simp [Except.map, Formula.evalWith, eq_comm]

/-- A call has a value if its name is that of a function and it has one
argument, which has a value. -/
theorem hasValue_call {args : List Expr} :
    (Expr.call name place args span).HasValue I x a ↔
      ∃ f arg b, IsFunctionName name f ∧ args = [arg] ∧ arg.HasValue I x b ∧ a = I.apply f b := by
  simp only [Expr.HasValue, resolve_call_eq_ok_iff]
  constructor
  · rintro ⟨_, ⟨f, arg, g, hname, hargs, hg, rfl⟩, rfl⟩
    exact ⟨f, arg, _, hname, hargs, ⟨g, hg, rfl⟩, rfl⟩
  · rintro ⟨f, arg, _, hname, hargs, ⟨g, hg, rfl⟩, rfl⟩
    exact ⟨_, ⟨f, arg, g, hname, hargs, hg, rfl⟩, rfl⟩

/-! ## The value of a tree is that of its tokens -/

/-- A fold goes on where it ended. -/
theorem Interpretation.fold_append (first : α) (more : List (BinaryOp × α)) (op : BinaryOp)
    (b : α) :
    I.fold first (more ++ [(op, b)]) = I.binary op (I.fold first more) b := by
  simp [Interpretation.fold]

theorem kinds_append_cons (ls rs : List Token) (t : Token) :
    kinds (ls ++ t :: rs) = kinds ls ++ t.kind :: kinds rs := by
  simp [kinds]

variable {ks rs : List TokenKind} {kind : TokenKind} {op : BinaryOp} {b : α}

/-- A term at the end of a sum. -/
theorem TermValues.snoc {ks : List TokenKind} {terms : List (BinaryOp × α)}
    (hop : IsTermOperator kind op) (hlast : ProductValue I x rs b) :
    TermValues I x ks terms → TermValues I x (ks ++ kind :: rs) (terms ++ [(op, b)])
  | .nil => by simpa using TermValues.cons hop hlast .nil
  | .cons hop' h hmore => by
      rw [List.cons_append, List.append_assoc]
      exact .cons hop' h (hmore.snoc hop hlast)

/-- A factor at the end of a product. -/
theorem FactorValues.snoc {ks : List TokenKind} {factors : List (BinaryOp × α)}
    (hop : IsFactorOperator kind op) (hlast : UnaryValue I x rs b) :
    FactorValues I x ks factors → FactorValues I x (ks ++ kind :: rs) (factors ++ [(op, b)])
  | .nil => by simpa using FactorValues.cons hop hlast .nil
  | .cons hop' h hmore => by
      rw [List.cons_append, List.append_assoc]
      exact .cons hop' h (hmore.snoc hop hlast)

theorem UnaryValue.toProduct (h : UnaryValue I x ks a) : ProductValue I x ks a := by
  simpa [Interpretation.fold] using ProductValue.fold h .nil

theorem ProductValue.toSum (h : ProductValue I x ks a) : SumValue I x ks a := by
  simpa [Interpretation.fold] using SumValue.fold h .nil

/-- One more term at the end of a sum. -/
theorem SumValue.operation (hl : SumValue I x ks a) (hop : IsTermOperator kind op)
    (hr : ProductValue I x rs b) : SumValue I x (ks ++ kind :: rs) (I.binary op a b) := by
  cases hl with
  | fold hfirst hmore =>
      rw [List.append_assoc, ← Interpretation.fold_append]
      exact .fold hfirst (hmore.snoc hop hr)

/-- One more factor at the end of a product. -/
theorem ProductValue.operation (hl : ProductValue I x ks a) (hop : IsFactorOperator kind op)
    (hr : UnaryValue I x rs b) : ProductValue I x (ks ++ kind :: rs) (I.binary op a b) := by
  cases hl with
  | fold hfirst hmore =>
      rw [List.append_assoc, ← Interpretation.fold_append]
      exact .fold hfirst (hmore.snoc hop hr)

end

section

variable {α : Type} {I : Interpretation α} {x : α}

mutual

/-- The value of a tree is the value of the tokens it was read from. -/
theorem IsSum.value {ts : List Token} {e : Expr} {n : Nat} {a : α} :
    IsSum ts e n → e.HasValue I x a → SumValue I x (kinds ts) a
  | .product h => fun ha => (h.value ha).toSum
  | .operation _ hop hl hr => fun ha => by
      obtain ⟨b, c, hb, hc, rfl⟩ := hasValue_operationTree.1 ha
      rw [kinds_append_cons]
      exact (hl.value hb).operation hop (hr.value hc)

/-- The value of a product is the fold of its factors. -/
theorem IsProduct.value {ts : List Token} {e : Expr} {n : Nat} {a : α} :
    IsProduct ts e n → e.HasValue I x a → ProductValue I x (kinds ts) a
  | .unary h => fun ha => (h.value ha).toProduct
  | .operation _ hop hl hr => fun ha => by
      obtain ⟨b, c, hb, hc, rfl⟩ := hasValue_operationTree.1 ha
      rw [kinds_append_cons]
      exact (hl.value hb).operation hop (hr.value hc)

/-- The value of a signed operand is that of its power, with its signs
applied. -/
theorem IsUnary.value {ts : List Token} {e : Expr} {n : Nat} {a : α} :
    IsUnary ts e n → e.HasValue I x a → UnaryValue I x (kinds ts) a
  | .power h => fun ha => .power (h.value ha)
  | .signed _ .plus h => fun ha => .plus (h.value (hasValue_plus.1 ha))
  | .signed _ .minus h => fun ha => by
      obtain ⟨b, hb, rfl⟩ := hasValue_minus.1 ha
      exact .minus (h.value hb)

/-- The value of a power is that of its base and its exponent. -/
theorem IsPower.value {ts : List Token} {e : Expr} {n : Nat} {a : α} :
    IsPower ts e n → e.HasValue I x a → PowerValue I x (kinds ts) a
  | .atom h => fun ha => .atom (h.value ha)
  | .raised _ hl hr => fun ha => by
      obtain ⟨b, c, hb, hc, rfl⟩ := hasValue_operationTree.1 ha
      rw [kinds_append_cons]
      exact .raised (hl.value hb) (hr.value hc)

/-- The value of an atom is that of its number, its name, its call or what is
between its brackets. -/
theorem IsAtom.value {ts : List Token} {e : Expr} {n : Nat} {a : α} :
    IsAtom ts e n → e.HasValue I x a → AtomValue I x (kinds ts) a
  | .number value _ => fun ha => by
      obtain rfl := hasValue_number.1 ha
      exact .number value
  | .identifier name _ => fun ha => by
      obtain ⟨rfl, rfl⟩ | ⟨value, hname, rfl⟩ := hasValue_identifier.1 ha
      · exact .argument
      · exact .constant hname
  | .emptyCall name _ _ _ => fun ha => by
      obtain ⟨_, _, _, -, hargs, -⟩ := hasValue_call.1 ha
      cases hargs
  | .call name _ _ _ (.last h) => fun ha => by
      obtain ⟨f, arg, b, hname, hargs, hb, rfl⟩ := hasValue_call.1 ha
      cases hargs
      rw [kinds, List.map_cons, List.map_cons, List.map_append]
      exact .application hname (h.value hb)
  | .call name _ _ _ (.more _ _ hr) => fun ha => by
      obtain ⟨_, _, _, -, hargs, -⟩ := hasValue_call.1 ha
      cases hargs
      cases hr
  | .grouped _ _ h => fun ha => by
      rw [kinds, List.map_cons, List.map_append]
      exact .grouped (h.value ha)
  | .absolute _ _ h => fun ha => by
      obtain ⟨f, arg, b, hname, hargs, hb, rfl⟩ := hasValue_call.1 ha
      cases hargs
      obtain rfl := hname.unique .abs
      rw [kinds, List.map_cons, List.map_append]
      exact .absolute (h.value hb)

end

/-! ## Tokens that have a value have a tree of this value -/

variable {ts : List Token} {ks ks' : List TokenKind} {kind : TokenKind}

/-- Tokens are split as their kinds are. -/
theorem exists_of_kinds_eq_append (h : kinds ts = ks ++ ks') :
    ∃ front back, ts = front ++ back ∧ kinds front = ks ∧ kinds back = ks' :=
  List.map_eq_append_iff.1 h

/-- A token between others. -/
theorem exists_of_kinds_eq_append_cons (h : kinds ts = ks ++ kind :: ks') :
    ∃ front place back,
      ts = front ++ ⟨kind, place⟩ :: back ∧ kinds front = ks ∧ kinds back = ks' := by
  obtain ⟨front, tail, rfl, hfront, htail⟩ := exists_of_kinds_eq_append h
  obtain ⟨place, back, rfl, hback⟩ := exists_of_kinds_eq_cons htail
  exact ⟨front, place, back, rfl, hfront, hback⟩

/-- Tokens between two others. -/
theorem exists_of_kinds_eq_enclosed {close : TokenKind} (h : kinds ts = kind :: (ks ++ [close])) :
    ∃ opening inner closing, ts = ⟨kind, opening⟩ :: (inner ++ [⟨close, closing⟩]) ∧
      kinds inner = ks := by
  obtain ⟨opening, tail, rfl, htail⟩ := exists_of_kinds_eq_cons h
  obtain ⟨inner, closing, rest, rfl, hinner, hrest⟩ := exists_of_kinds_eq_append_cons htail
  obtain rfl := List.map_eq_nil_iff.1 hrest
  exact ⟨opening, inner, closing, rfl, hinner⟩

mutual

/-- Tokens that are a sum of some value have a tree, and the tree has this
value. -/
theorem SumValue.exists_isSum {ks : List TokenKind} {a : α} : SumValue I x ks a →
    ∀ ts, kinds ts = ks → ∃ e n, IsSum ts e n ∧ e.HasValue I x a
  | .fold hfirst hmore => fun ts hts => by
      obtain ⟨front, back, rfl, hfront, hback⟩ := exists_of_kinds_eq_append hts
      obtain ⟨e, n, he, ha⟩ := hfirst.exists_isProduct front hfront
      exact hmore.exists_isSum (.product he) ha back hback

/-- The tree grows to the left with each term. -/
theorem TermValues.exists_isSum {ks : List TokenKind} {terms : List (BinaryOp × α)}
    {ls : List Token}
    {l : Expr} {m : Nat} {a : α} : TermValues I x ks terms → IsSum ls l m → l.HasValue I x a →
    ∀ ts, kinds ts = ks → ∃ e n, IsSum (ls ++ ts) e n ∧ e.HasValue I x (I.fold a terms)
  | .nil => fun hl ha ts hts => by
      obtain rfl := List.map_eq_nil_iff.1 hts
      exact ⟨l, m, by rwa [List.append_nil], ha⟩
  | .cons hop h hmore => fun hl ha ts hts => by
      obtain ⟨place, tail, rfl, htail⟩ := exists_of_kinds_eq_cons hts
      obtain ⟨front, back, rfl, hfront, hback⟩ := exists_of_kinds_eq_append htail
      obtain ⟨r, n, hr, hb⟩ := h.exists_isProduct front hfront
      have hwhole := hmore.exists_isSum (.operation place hop hl hr) (ha.operation _ hb) back hback
      rwa [List.append_assoc, List.cons_append] at hwhole

/-- What has a value as a product is a product of the grammar. -/
theorem ProductValue.exists_isProduct {ks : List TokenKind} {a : α} : ProductValue I x ks a →
    ∀ ts, kinds ts = ks → ∃ e n, IsProduct ts e n ∧ e.HasValue I x a
  | .fold hfirst hmore => fun ts hts => by
      obtain ⟨front, back, rfl, hfront, hback⟩ := exists_of_kinds_eq_append hts
      obtain ⟨e, n, he, ha⟩ := hfirst.exists_isUnary front hfront
      exact hmore.exists_isProduct (.unary he) ha back hback

/-- The tree grows to the left with each factor. -/
theorem FactorValues.exists_isProduct {ks : List TokenKind} {factors : List (BinaryOp × α)}
    {ls : List Token} {l : Expr} {m : Nat} {a : α} : FactorValues I x ks factors →
    IsProduct ls l m → l.HasValue I x a →
    ∀ ts, kinds ts = ks → ∃ e n, IsProduct (ls ++ ts) e n ∧ e.HasValue I x (I.fold a factors)
  | .nil => fun hl ha ts hts => by
      obtain rfl := List.map_eq_nil_iff.1 hts
      exact ⟨l, m, by rwa [List.append_nil], ha⟩
  | .cons hop h hmore => fun hl ha ts hts => by
      obtain ⟨place, tail, rfl, htail⟩ := exists_of_kinds_eq_cons hts
      obtain ⟨front, back, rfl, hfront, hback⟩ := exists_of_kinds_eq_append htail
      obtain ⟨r, n, hr, hb⟩ := h.exists_isUnary front hfront
      have hwhole :=
        hmore.exists_isProduct (.operation place hop hl hr) (ha.operation _ hb) back hback
      rwa [List.append_assoc, List.cons_append] at hwhole

/-- What has a value as a signed operand is one of the grammar. -/
theorem UnaryValue.exists_isUnary {ks : List TokenKind} {a : α} : UnaryValue I x ks a →
    ∀ ts, kinds ts = ks → ∃ e n, IsUnary ts e n ∧ e.HasValue I x a
  | .power h => fun ts hts => by
      obtain ⟨e, n, he, ha⟩ := h.exists_isPower ts hts
      exact ⟨e, n, .power he, ha⟩
  | .plus h => fun ts hts => by
      obtain ⟨place, rest, rfl, hrest⟩ := exists_of_kinds_eq_cons hts
      obtain ⟨e, n, he, ha⟩ := h.exists_isUnary rest hrest
      exact ⟨_, _, .signed place .plus he, hasValue_plus.2 ha⟩
  | .minus h => fun ts hts => by
      obtain ⟨place, rest, rfl, hrest⟩ := exists_of_kinds_eq_cons hts
      obtain ⟨e, n, he, ha⟩ := h.exists_isUnary rest hrest
      exact ⟨_, _, .signed place .minus he, hasValue_minus.2 ⟨_, ha, rfl⟩⟩

/-- What has a value as a power is a power of the grammar. -/
theorem PowerValue.exists_isPower {ks : List TokenKind} {a : α} : PowerValue I x ks a →
    ∀ ts, kinds ts = ks → ∃ e n, IsPower ts e n ∧ e.HasValue I x a
  | .atom h => fun ts hts => by
      obtain ⟨e, n, he, ha⟩ := h.exists_isAtom ts hts
      exact ⟨e, n, .atom he, ha⟩
  | .raised hbase hexponent => fun ts hts => by
      obtain ⟨front, place, back, rfl, hfront, hback⟩ := exists_of_kinds_eq_append_cons hts
      obtain ⟨l, m, hl, ha⟩ := hbase.exists_isAtom front hfront
      obtain ⟨r, n, hr, hb⟩ := hexponent.exists_isUnary back hback
      exact ⟨_, _, .raised place hl hr, ha.operation _ hb⟩

/-- What has a value as an atom is an atom of the grammar. -/
theorem AtomValue.exists_isAtom {ks : List TokenKind} {a : α} : AtomValue I x ks a →
    ∀ ts, kinds ts = ks → ∃ e n, IsAtom ts e n ∧ e.HasValue I x a
  | .number value => fun ts hts => by
      obtain ⟨place, rest, rfl, hrest⟩ := exists_of_kinds_eq_cons hts
      obtain rfl := List.map_eq_nil_iff.1 hrest
      exact ⟨_, _, .number value place, hasValue_number.2 rfl⟩
  | .argument => fun ts hts => by
      obtain ⟨place, rest, rfl, hrest⟩ := exists_of_kinds_eq_cons hts
      obtain rfl := List.map_eq_nil_iff.1 hrest
      exact ⟨_, _, .identifier "x" place, hasValue_identifier.2 (.inl ⟨rfl, rfl⟩)⟩
  | .constant hname => fun ts hts => by
      obtain ⟨place, rest, rfl, hrest⟩ := exists_of_kinds_eq_cons hts
      obtain rfl := List.map_eq_nil_iff.1 hrest
      exact ⟨_, _, .identifier _ place, hasValue_identifier.2 (.inr ⟨_, hname, rfl⟩)⟩
  | .application hname h => fun ts hts => by
      obtain ⟨place, tail, rfl, htail⟩ := exists_of_kinds_eq_cons hts
      obtain ⟨opening, inner, closing, rfl, hinner⟩ := exists_of_kinds_eq_enclosed htail
      obtain ⟨e, n, he, ha⟩ := h.exists_isSum inner hinner
      exact ⟨_, _, .call _ place opening closing (.last he),
        hasValue_call.2 ⟨_, e, _, hname, rfl, ha, rfl⟩⟩
  | .grouped h => fun ts hts => by
      obtain ⟨opening, inner, closing, rfl, hinner⟩ := exists_of_kinds_eq_enclosed hts
      obtain ⟨e, n, he, ha⟩ := h.exists_isSum inner hinner
      exact ⟨e, _, .grouped opening closing he, ha⟩
  | .absolute h => fun ts hts => by
      obtain ⟨opening, inner, closing, rfl, hinner⟩ := exists_of_kinds_eq_enclosed hts
      obtain ⟨e, n, he, ha⟩ := h.exists_isSum inner hinner
      exact ⟨_, _, .absolute opening closing he, hasValue_call.2 ⟨_, e, _, .abs, rfl, ha, rfl⟩⟩

end

/-! ## Lines -/

/-- The value of a line is that of its expression. -/
theorem IsEquation.lineValue_iff {e : Expr} {a : α} (h : IsEquation ts (.function e)) :
    LineValue I x (kinds ts) a ↔ e.HasValue I x a := by
  constructor
  · intro hvalue
    generalize hks : kinds ts = ks at hvalue
    cases hvalue with
    -- a sum does not begin like a definition, so that both readings of the line
    -- agree on its form
    | graph hsum =>
        obtain ⟨e', n', he', ha⟩ := hsum.exists_isSum ts hks
        obtain ⟨-, n, he, -⟩ | ⟨place, equals, rest, rfl, -⟩ := isEquation_function_iff.1 h
        · rwa [he.unique he']
        · exact (he'.not_defines ⟨place, equals, rest, rfl⟩).elim
    | namedGraph hsum =>
        obtain ⟨place, tail, rfl, htail⟩ := exists_of_kinds_eq_cons hks
        obtain ⟨equals, rest, rfl, hrest⟩ := exists_of_kinds_eq_cons htail
        obtain ⟨e', n', he', ha⟩ := hsum.exists_isSum rest hrest
        obtain ⟨-, he⟩ | ⟨_, _, _, heq, n, he, -⟩ := isEquation_function_iff.1 h
        · exact (not_isExpression_of_defines ⟨place, equals, rest, rfl⟩ he).elim
        · cases heq
          rwa [he.unique he']
  · intro ha
    obtain ⟨-, n, he, -⟩ | ⟨_, _, _, rfl, n, he, -⟩ := isEquation_function_iff.1 h
    · exact .graph (he.value ha)
    · exact .namedGraph (he.value ha)

end

/-- What is accepted as the graph of a formula is an equation whose names are
looked up. -/
theorem exists_of_classify_eq_function {source : String} {f : Formula}
    (h : classify source = .ok (.function f)) :
    ∃ ts e, tokenize source = .ok ts ∧ IsEquation ts (.function e) ∧ e.resolve = .ok f := by
  unfold classify read at h
  cases hts : tokenize source with
  | error err => simp [hts] at h
  | ok ts =>
      have hparse (q : Equation Expr) : parseEquation source.length ts = .ok q ↔ IsEquation ts q :=
        parseEquation_eq_ok_iff
      simp only [hts] at h
      cases hline : parseEquation source.length ts with
      | error err => simp [hline] at h
      | ok q =>
          cases q with
          | vertical value => simp [hline] at h
          | function e =>
              refine ⟨ts, e, rfl, (hparse _).1 hline, ?_⟩
              simp only [hline] at h
              cases hresolve : e.resolve with
              | error err => simp [hresolve, Except.map] at h
              | ok g =>
                  simp only [hresolve, Except.map, Except.ok.injEq, Equation.function.injEq] at h
                  rw [h]

/-- **Values**: an accepted formula has the value of its tokens, and no other,
whatever its operations mean.  On doubles this is what evaluation gives. -/
theorem evalWith_iff_lineValue {source : String} {f : Formula}
    (h : classify source = .ok (.function f)) :
    ∃ ts, tokenize source = .ok ts ∧
      (∀ {α : Type} (I : Interpretation α) (x a : α),
        LineValue I x (kinds ts) a ↔ a = f.evalWith I x) ∧
      ∀ x a : Float, LineValue Interpretation.float x (kinds ts) a ↔ a = f.eval x := by
  obtain ⟨ts, e, hts, hline, hresolve⟩ := exists_of_classify_eq_function h
  have hvalue {α : Type} (I : Interpretation α) (x a : α) :
      LineValue I x (kinds ts) a ↔ a = f.evalWith I x := by
    rw [hline.lineValue_iff, Expr.HasValue, hresolve]
    simp [eq_comm]
  exact ⟨ts, hts, hvalue, fun x a => hvalue Interpretation.float x a⟩

/-- Both signs stand before a power: the first is not part of the base, the
second is part of the exponent. -/
theorem evalWith_iff_lineValue_signs :
    ∃ ts f, classify "y = -x^-x" = .ok (.function f) ∧ tokenize "y = -x^-x" = .ok ts ∧
      (∀ {α : Type} (I : Interpretation α) (x a : α), LineValue I x (kinds ts) a ↔
        a = I.negate (I.binary .pow x (I.negate x))) ∧
      ∀ x a : Float, LineValue Interpretation.float x (kinds ts) a ↔ a = -Float.pow x (-x) := by
  let signs : Formula := .negation (.binary .pow .argument (.negation .argument))
  have hclassify : classify "y = -x^-x" = .ok (.function signs) :=
    Except.toOption_eq_some_iff.1 (by decide +kernel)
  obtain ⟨ts, hts, hvalue, hfloat⟩ := evalWith_iff_lineValue hclassify
  exact ⟨ts, signs, hclassify, hts, hvalue, hfloat⟩

end GlutSketch.Equation
