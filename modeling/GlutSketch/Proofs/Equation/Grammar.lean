import GlutSketch.Equation.Parser

/-!
# GlutSketch.Proofs.Equation.Grammar

The grammar of a line of plot equation, apart from any way of reading it:

```
Sum      = Product (('+' | '-') Product)*
Product  = Unary (('*' | '/') Unary)*
Unary    = ('+' | '-') Unary | Power
Power    = Atom ('^' Unary)?
Atom     = number | name | name '(' (Sum (',' Sum)*)? ')' | '(' Sum ')' | '|' Sum '|'
```

`IsSum ts e n` says that the tokens `ts` are a sum whose tree is `e` and which
nests `n` deep, and likewise for the other levels.  A level of nesting is used
up by each sign, by each pair of parentheses or bars, by each call and by each
right operand; a left operand is as deep as the operation.  `IsEquation` adds
the two forms of a line.
-/

namespace GlutSketch.Equation

/-! ## Signs and operators -/

/-- The token of a sign. -/
inductive IsSign : TokenKind → Sign → Prop
  | plus : IsSign .plus .plus
  | minus : IsSign .minus .minus

/-- The token of an operator between the terms of a sum. -/
inductive IsTermOperator : TokenKind → BinaryOp → Prop
  | add : IsTermOperator .plus .add
  | sub : IsTermOperator .minus .sub

/-- The token of an operator between the factors of a product. -/
inductive IsFactorOperator : TokenKind → BinaryOp → Prop
  | mul : IsFactorOperator .star .mul
  | div : IsFactorOperator .slash .div

/-- The tree of an operation, which covers the text of both operands. -/
def operationTree (op : BinaryOp) (l r : Expr) : Expr := .binary op l r (l.span.merge r.span)

/-- How deep an operation nests.  Only its right operand lies a level deeper. -/
def operationNesting (l r : Nat) : Nat := max l (1 + r)

/-! ## Expressions -/

mutual

/-- Products with `+` or `-` between them, grouped to the left. -/
inductive IsSum : List Token → Expr → Nat → Prop
  | product {ts e n} (h : IsProduct ts e n) : IsSum ts e n
  | operation {kind op ls l m rs r n} (place : Span) (hop : IsTermOperator kind op)
      (hl : IsSum ls l m) (hr : IsProduct rs r n) :
      IsSum (ls ++ ⟨kind, place⟩ :: rs) (operationTree op l r) (operationNesting m n)

/-- Signed operands with `*` or `/` between them, grouped to the left. -/
inductive IsProduct : List Token → Expr → Nat → Prop
  | unary {ts e n} (h : IsUnary ts e n) : IsProduct ts e n
  | operation {kind op ls l m rs r n} (place : Span) (hop : IsFactorOperator kind op)
      (hl : IsProduct ls l m) (hr : IsUnary rs r n) :
      IsProduct (ls ++ ⟨kind, place⟩ :: rs) (operationTree op l r) (operationNesting m n)

/-- A power, perhaps after signs. -/
inductive IsUnary : List Token → Expr → Nat → Prop
  | power {ts e n} (h : IsPower ts e n) : IsUnary ts e n
  | signed {kind sign ts e n} (place : Span) (hsign : IsSign kind sign) (h : IsUnary ts e n) :
      IsUnary (⟨kind, place⟩ :: ts) (.signed sign e (place.merge e.span)) (1 + n)

/-- An atom, perhaps raised to an exponent, which may have signs and an exponent
of its own. -/
inductive IsPower : List Token → Expr → Nat → Prop
  | atom {ts e n} (h : IsAtom ts e n) : IsPower ts e n
  | raised {ls l m rs r n} (place : Span) (hl : IsAtom ls l m) (hr : IsUnary rs r n) :
      IsPower (ls ++ ⟨.caret, place⟩ :: rs) (operationTree .pow l r) (operationNesting m n)

/-- A number, a name, a call, or a sum between parentheses or bars.  Parentheses
leave no trace in the tree, and bars are a call of `abs`. -/
inductive IsAtom : List Token → Expr → Nat → Prop
  | number (value : Float) (place : Span) :
      IsAtom [⟨.number value, place⟩] (.number value place) 1
  | identifier (name : String) (place : Span) :
      IsAtom [⟨.identifier name, place⟩] (.identifier name place) 1
  | emptyCall (name : String) (place opening closing : Span) :
      IsAtom [⟨.identifier name, place⟩, ⟨.leftParen, opening⟩, ⟨.rightParen, closing⟩]
        (.call name place [] (place.merge closing)) 1
  | call {ts es n} (name : String) (place opening closing : Span) (h : IsArguments ts es n) :
      IsAtom (⟨.identifier name, place⟩ :: ⟨.leftParen, opening⟩ ::
          (ts ++ [⟨.rightParen, closing⟩]))
        (.call name place es (place.merge closing)) (1 + n)
  | grouped {ts e n} (opening closing : Span) (h : IsSum ts e n) :
      IsAtom (⟨.leftParen, opening⟩ :: (ts ++ [⟨.rightParen, closing⟩])) e (1 + n)
  | absolute {ts e n} (opening closing : Span) (h : IsSum ts e n) :
      IsAtom (⟨.bar, opening⟩ :: (ts ++ [⟨.bar, closing⟩]))
        (.call "abs" opening [e] (opening.merge closing)) (1 + n)

/-- Sums with commas between them; they nest as deep as the deepest. -/
inductive IsArguments : List Token → List Expr → Nat → Prop
  | last {ts e n} (h : IsSum ts e n) : IsArguments ts [e] n
  | more {ls e m rs es n} (place : Span) (hl : IsSum ls e m) (hr : IsArguments rs es n) :
      IsArguments (ls ++ ⟨.comma, place⟩ :: rs) (e :: es) (max m n)

end

/-! ## Small facts -/

section

variable {ts : List Token} {e : Expr} {n : Nat}

theorem IsAtom.toUnary (h : IsAtom ts e n) : IsUnary ts e n := .power (.atom h)

theorem IsAtom.toProduct (h : IsAtom ts e n) : IsProduct ts e n := .unary h.toUnary

theorem IsUnary.toSum (h : IsUnary ts e n) : IsSum ts e n := .product (.unary h)

end

mutual

/-- Whatever is derived nests at least one level deep. -/
theorem IsSum.nesting_pos {ts : List Token} {e : Expr} {n : Nat} : IsSum ts e n → 0 < n
  | .product h => h.nesting_pos
  | .operation _ _ hl _ => Nat.lt_of_lt_of_le hl.nesting_pos (Nat.le_max_left ..)

theorem IsProduct.nesting_pos {ts : List Token} {e : Expr} {n : Nat} : IsProduct ts e n → 0 < n
  | .unary h => h.nesting_pos
  | .operation _ _ hl _ => Nat.lt_of_lt_of_le hl.nesting_pos (Nat.le_max_left ..)

theorem IsUnary.nesting_pos {ts : List Token} {e : Expr} {n : Nat} : IsUnary ts e n → 0 < n
  | .power h => h.nesting_pos
  | .signed .. => Nat.add_pos_left Nat.one_pos _

theorem IsPower.nesting_pos {ts : List Token} {e : Expr} {n : Nat} : IsPower ts e n → 0 < n
  | .atom h => h.nesting_pos
  | .raised _ hl _ => Nat.lt_of_lt_of_le hl.nesting_pos (Nat.le_max_left ..)

/-- Every phrase opens at least one expression; the five categories are treated
together. -/
theorem IsAtom.nesting_pos {ts : List Token} {e : Expr} {n : Nat} : IsAtom ts e n → 0 < n
  | .number .. | .identifier .. | .emptyCall .. => Nat.one_pos
  | .call .. | .grouped .. | .absolute .. => Nat.add_pos_left Nat.one_pos _

end

/-! ## Lines -/

/-- A line that is an expression, nested no deeper than the limit. -/
def IsExpression (ts : List Token) (e : Expr) : Prop := ∃ n, IsSum ts e n ∧ n ≤ maxNesting

/-- The line begins with the variable `name` and an equals sign. -/
def Defines (name : String) (ts : List Token) : Prop :=
  ∃ place equals rest, ts = ⟨.identifier name, place⟩ :: ⟨.equals, equals⟩ :: rest

/-- A number, perhaps after a sign, and its value. -/
inductive IsSignedNumber : List Token → Float → Prop
  | unsigned (value : Float) (place : Span) : IsSignedNumber [⟨.number value, place⟩] value
  | plus (value : Float) (sign place : Span) :
      IsSignedNumber [⟨.plus, sign⟩, ⟨.number value, place⟩] value
  | minus (value : Float) (sign place : Span) :
      IsSignedNumber [⟨.minus, sign⟩, ⟨.number value, place⟩] (-value)

/-- A line of plot equation: `x =` and a number, or an expression, perhaps after
`y =`. -/
inductive IsEquation : List Token → Equation Expr → Prop
  | vertical {ts : List Token} {x : Float} (place equals : Span) (h : IsSignedNumber ts x) :
      IsEquation (⟨.identifier "x", place⟩ :: ⟨.equals, equals⟩ :: ts) (.vertical x)
  | graph {ts : List Token} {e : Expr} (hx : ¬ Defines "x" ts) (h : IsExpression ts e) :
      IsEquation ts (.function e)
  | namedGraph {ts : List Token} {e : Expr} (place equals : Span) (h : IsExpression ts e) :
      IsEquation (⟨.identifier "y", place⟩ :: ⟨.equals, equals⟩ :: ts) (.function e)

/-- A line is a graph if it is an expression that does not begin like `x =`, or
if it is one after `y =`. -/
theorem isEquation_function_iff {ts : List Token} {e : Expr} :
    IsEquation ts (.function e) ↔ (¬ Defines "x" ts ∧ IsExpression ts e) ∨
      ∃ place equals rest, ts = ⟨.identifier "y", place⟩ :: ⟨.equals, equals⟩ :: rest ∧
        IsExpression rest e := by
  constructor
  · intro h
    cases h with
    | graph hx he => exact .inl ⟨hx, he⟩
    | namedGraph place equals he => exact .inr ⟨place, equals, _, rfl, he⟩
  · rintro (⟨hx, he⟩ | ⟨place, equals, rest, rfl, he⟩)
    · exact .graph hx he
    · exact .namedGraph place equals he

end GlutSketch.Equation
