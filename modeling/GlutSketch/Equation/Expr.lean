import GlutSketch.Equation.Token

/-!
# GlutSketch.Equation.Expr

Expressions as they are written, before their names are looked up, and the two
kinds of equation that a line can be.
-/

namespace GlutSketch.Equation

/-- An operation on two numbers. -/
inductive BinaryOp where
  | add
  | sub
  | mul
  | div
  | pow
deriving DecidableEq, Repr

/-- The operation on doubles. -/
def BinaryOp.onFloat : BinaryOp → Float → Float → Float
  | add, a, b => a + b
  | sub, a, b => a - b
  | mul, a, b => a * b
  | div, a, b => a / b
  | pow, a, b => Float.pow a b

/-- A sign before an expression. -/
inductive Sign where
  | plus
  | minus
deriving DecidableEq, Repr

/-- An expression, each part with the span of its text.  Parentheses leave no
trace, and bars are a call of `abs` whose name stands at the opening bar. -/
inductive Expr where
  | number (value : Float) (span : Span)
  | identifier (name : String) (span : Span)
  | binary (op : BinaryOp) (lhs rhs : Expr) (span : Span)
  | signed (sign : Sign) (operand : Expr) (span : Span)
  | call (name : String) (nameSpan : Span) (args : List Expr) (span : Span)

/-- The text an expression was read from. -/
def Expr.span : Expr → Span
  | number _ span => span
  | identifier _ span => span
  | binary _ _ _ span => span
  | signed _ _ span => span
  | call _ _ _ span => span

end GlutSketch.Equation

namespace GlutSketch

/-- A line of plot equation: a vertical line, or the graph of a function given
by its body. -/
inductive Equation (β : Type) where
  | vertical (x : Float)
  | function (body : β)
deriving DecidableEq

end GlutSketch
