import GlutSketch.Equation.Error
import GlutSketch.Equation.Expr

/-!
# GlutSketch.Equation.Parser

Reading tokens as an expression or an equation, by binding powers.  An operator
takes the expression on its left if it binds at least as strongly as the context
asks for, and asks for its own power on its right:

* `+` and `-`, then `*` and `/`, associate to the left;
* a sign binds more strongly than these and more weakly than `^`;
* `^` associates to the right.

An expression inside another uses up one of `maxNesting` levels, so `expression`
recurses on the levels that are left; within a level, each step leaves a shorter
rest of the tokens.  The parameter `stop` is the place where the line ends,
which an error at the end of the tokens points to.
-/

namespace GlutSketch.Equation

/-! ## Places -/

/-- What stands at the front of the tokens. -/
def found (ts : List Token) : Option TokenKind := ts.head?.map (·.kind)

/-- The span of the first token, or the empty span at the end of the line. -/
def frontSpan (stop : Nat) (ts : List Token) : Span :=
  match ts with
  | [] => ⟨stop, stop⟩
  | t :: _ => t.span

/-! ## Operators -/

/-- The operation a token stands for between two operands. -/
def TokenKind.binaryOp? : TokenKind → Option BinaryOp
  | plus => some .add
  | minus => some .sub
  | star => some .mul
  | slash => some .div
  | caret => some .pow
  | _ => none

/-- How strongly an operator holds the operand on its left. -/
def BinaryOp.leftPower : BinaryOp → Nat
  | add | sub => 9
  | mul | div => 11
  | pow => 16

/-- How strongly an operator holds the operand on its right. -/
def BinaryOp.rightPower : BinaryOp → Nat
  | add | sub => 10
  | mul | div => 12
  | pow => 15

/-- How strongly a sign holds its operand. -/
def signPower : Nat := 13

/-! ## Expressions -/

/-- A value read from the front of `ts`, and the tokens after it, which are
fewer. -/
structure Parsed (α : Type) (ts : List Token) where
  value : α
  rest : List Token
  shorter : rest.length < ts.length

/-- How an expression is read in a context of a given power. -/
abbrev Reader := (power : Nat) → (ts : List Token) → Except Error (Parsed Expr ts)

/-- Takes the token `wanted` off the front. -/
def expect (stop : Nat) (wanted : TokenKind) (ts : List Token) : Except Error (Parsed Span ts) :=
  match ts with
  | [] => .error ⟨.missingToken wanted none, ⟨stop, stop⟩⟩
  | t :: rest =>
      if t.kind = wanted then .ok ⟨t.span, rest, by simp⟩
      else .error ⟨.missingToken wanted (some t.kind), t.span⟩

/-- Reads arguments with commas between them. -/
def arguments (read : Reader) (ts : List Token) : Except Error (Parsed (List Expr) ts) :=
  match read 0 ts with
  | .error e => .error e
  | .ok ⟨first, rest, shorter⟩ =>
      match rest with
      | ⟨.comma, _⟩ :: more =>
          match arguments read more with
          | .error e => .error e
          | .ok ⟨others, after, fewer⟩ =>
              .ok ⟨first :: others, after, by simp at shorter; omega⟩
      | rest => .ok ⟨[first], rest, shorter⟩
termination_by ts.length
decreasing_by simp at shorter; omega

/-- Reads the arguments of a call after its opening parenthesis, and the closing
one. -/
def callArguments (stop : Nat) (read : Reader) (ts : List Token) :
    Except Error (Parsed (List Expr × Span) ts) :=
  match ts with
  | ⟨.rightParen, close⟩ :: rest => .ok ⟨([], close), rest, by simp⟩
  | ts =>
      match arguments read ts with
      | .error e => .error e
      | .ok ⟨args, rest, shorter⟩ =>
          match expect stop .rightParen rest with
          | .error e => .error e
          | .ok ⟨close, after, fewer⟩ => .ok ⟨(args, close), after, by omega⟩

/-- Reads an expression and the token `close` after it. -/
def enclosed (stop : Nat) (read : Reader) (close : TokenKind) (ts : List Token) :
    Except Error (Parsed (Expr × Span) ts) :=
  match read 0 ts with
  | .error e => .error e
  | .ok ⟨body, rest, shorter⟩ =>
      match expect stop close rest with
      | .error e => .error e
      | .ok ⟨span, after, fewer⟩ => .ok ⟨(body, span), after, by omega⟩

/-- Reads the operand of a sign that stands at `place`. -/
def signedOperand (read : Reader) (sign : Sign) (place : Span) (ts : List Token) :
    Except Error (Parsed Expr ts) :=
  match read signPower ts with
  | .error e => .error e
  | .ok ⟨operand, rest, shorter⟩ =>
      .ok ⟨.signed sign operand (place.merge operand.span), rest, shorter⟩

/-- Reads an expression without a binary operator outside of parentheses and
bars, except in the operand of a sign.  The reader is that of the next level. -/
def operand (stop : Nat) (read : Reader) (ts : List Token) : Except Error (Parsed Expr ts) :=
  match ts with
  | ⟨.number value, span⟩ :: rest => .ok ⟨.number value span, rest, by simp⟩
  | ⟨.identifier name, span⟩ :: ⟨.leftParen, _⟩ :: rest =>
      match callArguments stop read rest with
      | .error e => .error e
      | .ok ⟨(args, close), after, fewer⟩ =>
          .ok ⟨.call name span args (span.merge close), after, by simp; omega⟩
  | ⟨.identifier name, span⟩ :: rest => .ok ⟨.identifier name span, rest, by simp⟩
  | ⟨.leftParen, _⟩ :: rest =>
      match enclosed stop read .rightParen rest with
      | .error e => .error e
      | .ok ⟨(body, _), after, fewer⟩ => .ok ⟨body, after, by simp; omega⟩
  | ⟨.bar, span⟩ :: rest =>
      match enclosed stop read .bar rest with
      | .error e => .error e
      | .ok ⟨(body, close), after, fewer⟩ =>
          .ok ⟨.call "abs" span [body] (span.merge close), after, by simp; omega⟩
  | ⟨.minus, span⟩ :: rest =>
      match signedOperand read .minus span rest with
      | .error e => .error e
      | .ok ⟨e, after, fewer⟩ => .ok ⟨e, after, by simp; omega⟩
  | ⟨.plus, span⟩ :: rest =>
      match signedOperand read .plus span rest with
      | .error e => .error e
      | .ok ⟨e, after, fewer⟩ => .ok ⟨e, after, by simp; omega⟩
  | ts => .error ⟨.missingExpression (found ts), frontSpan stop ts⟩

/-- Extends `lhs` by the operators that follow it, as long as they hold it at
least as strongly as `power`.  The right operands are read on the next level. -/
def operations (read : Reader) (power : Nat) (lhs : Expr) (ts : List Token) :
    Except Error (Expr × { rest : List Token // rest.length ≤ ts.length }) :=
  match ts with
  | [] => .ok (lhs, ⟨[], Nat.le_refl _⟩)
  | t :: rest =>
      match t.kind.binaryOp? with
      | none => .ok (lhs, ⟨t :: rest, Nat.le_refl _⟩)
      | some op =>
          if op.leftPower < power then .ok (lhs, ⟨t :: rest, Nat.le_refl _⟩)
          else
            match read op.rightPower rest with
            | .error e => .error e
            | .ok ⟨rhs, after, shorter⟩ =>
                match
                  operations read power (.binary op lhs rhs (lhs.span.merge rhs.span)) after with
                | .error e => .error e
                | .ok (whole, ⟨last, fewer⟩) => .ok (whole, ⟨last, by simp; omega⟩)
termination_by ts.length
decreasing_by simp; omega

/-- Reads the longest expression at the front whose operators hold their left
operands at least as strongly as `power`, with `levels` levels of nesting
left. -/
def expression (stop : Nat) : (levels : Nat) → Reader
  | 0, _, ts => .error ⟨.nestedTooDeeply, frontSpan stop ts⟩
  | levels + 1, power, ts =>
      match operand stop (expression stop levels) ts with
      | .error e => .error e
      | .ok ⟨first, rest, shorter⟩ =>
          match operations (expression stop levels) power first rest with
          | .error e => .error e
          | .ok (whole, ⟨after, fewer⟩) => .ok ⟨whole, after, by omega⟩

/-! ## Whole lines -/

/-- The deepest nesting of an expression. -/
def maxNesting : Nat := 256

/-- Accepts the end of the line only. -/
def expectEnd (ts : List Token) : Except Error Unit :=
  match ts with
  | [] => .ok ()
  | t :: _ => .error ⟨.unexpectedToken t.kind, t.span⟩

/-- Reads a line that is an expression and nothing else. -/
def parseExpression (stop : Nat) (ts : List Token) : Except Error Expr :=
  match expression stop maxNesting 0 ts with
  | .error e => .error e
  | .ok ⟨e, rest, _⟩ => (expectEnd rest).map fun _ => e

/-- Reads the number of a vertical line.  An error begins at the place `first`,
where the sign is if there is one. -/
def verticalNumber (stop : Nat) (negative : Bool) (first : Span) (ts : List Token) :
    Except Error (Equation Expr) :=
  match ts with
  | ⟨.number value, _⟩ :: rest =>
      (expectEnd rest).map fun _ => .vertical (if negative then -value else value)
  | ts => .error ⟨.notConstant (found ts), first.merge (frontSpan stop ts)⟩

/-- Reads what follows the equals sign of a vertical line: a number, perhaps
with a sign. -/
def parseVertical (stop : Nat) (ts : List Token) : Except Error (Equation Expr) :=
  match ts with
  | ⟨.minus, span⟩ :: rest => verticalNumber stop true span rest
  | ⟨.plus, span⟩ :: rest => verticalNumber stop false span rest
  | ts => verticalNumber stop false (frontSpan stop ts) ts

/-- Reads a line of plot equation: `x =` and a number is a vertical line, and
anything else is the body of a function, perhaps after `y =`. -/
def parseEquation (stop : Nat) (ts : List Token) : Except Error (Equation Expr) :=
  match ts with
  | [] => .error ⟨.emptyLine, ⟨stop, stop⟩⟩
  | ⟨.identifier "x", _⟩ :: ⟨.equals, _⟩ :: rest => parseVertical stop rest
  | ⟨.identifier "y", _⟩ :: ⟨.equals, _⟩ :: rest => (parseExpression stop rest).map .function
  | ts => (parseExpression stop ts).map .function

end GlutSketch.Equation
