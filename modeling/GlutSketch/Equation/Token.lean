import GlutSketch.Numeric.Layout

/-!
# GlutSketch.Equation.Token

Tokens of a line of plot equation, and the places of its text that they come
from.  Places are counted in characters.
-/

namespace GlutSketch.Equation

/-! ## Spans -/

/-- The characters from `start` up to, and without, `stop`. -/
structure Span where
  start : Nat
  stop : Nat
deriving DecidableEq, Repr

namespace Span

/-- The smallest span that holds both. -/
def merge (a b : Span) : Span := ⟨min a.start b.start, max a.stop b.stop⟩

/-- The source, and below it carets under the span, at least one; both are
indented by two spaces. -/
def underline (source : String) (span : Span) : String :=
  let carets := max (span.stop - span.start) 1
  let below := List.replicate span.start ' ' ++ List.replicate carets '^'
  "  " ++ source ++ "\n  " ++ String.ofList below

end Span

/-! ## Tokens -/

/-- What a token is, apart from its place. -/
inductive TokenKind where
  | number (value : Float)
  | identifier (name : String)
  | plus
  | minus
  | star
  | slash
  | caret
  | equals
  | leftParen
  | rightParen
  | comma
  | bar
deriving DecidableEq

/-- A token and the characters it was written with. -/
structure Token where
  kind : TokenKind
  span : Span
deriving DecidableEq

/-- What a token is called in a message. -/
def TokenKind.describe : TokenKind → String
  | number value => "number " ++ plainText value
  | identifier name => "identifier '" ++ name ++ "'"
  | plus => "'+'"
  | minus => "'-'"
  | star => "'*'"
  | slash => "'/'"
  | caret => "'^'"
  | equals => "'='"
  | leftParen => "'('"
  | rightParen => "')'"
  | comma => "','"
  | bar => "'|'"

/-- What is found at a place is called: a token, or the end of the line if there
is none. -/
def describeFound : Option TokenKind → String
  | some kind => kind.describe
  | none => "end of input"

end GlutSketch.Equation
