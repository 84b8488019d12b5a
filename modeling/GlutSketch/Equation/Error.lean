import GlutSketch.Equation.Builtin
import GlutSketch.Equation.Token

/-!
# GlutSketch.Equation.Error

What can be wrong with a line of plot equation.  An `Error` is a cause at a
place; `Error.message` is the only place where causes get their wording, and
`Error.render` shows the message with carets under the offending text.
-/

namespace GlutSketch.Equation

/-! ## Causes -/

/-- Why a line is refused.  Where something else was needed, `found` is the
token that stands there, and nothing at the end of the line. -/
inductive Cause where
  | unexpectedCharacter (c : Char)
  | emptyLine
  | notConstant (found : Option TokenKind)
  | nestedTooDeeply
  | missingExpression (found : Option TokenKind)
  | missingToken (wanted : TokenKind) (found : Option TokenKind)
  | unexpectedToken (found : TokenKind)
  | functionWithoutArgument (name : String)
  | unknownIdentifier (name : String)
  | unknownFunction (name : String)
  | wrongArity (name : String) (count : Nat)
deriving DecidableEq

/-- A cause and where it was met. -/
structure Error where
  cause : Cause
  span : Span
deriving DecidableEq

/-- Whether something fails with a given error can be decided without comparing
results. -/
instance decidableEqError {ε α : Type} [DecidableEq ε] (r : Except ε α) (e : ε) :
    Decidable (r = .error e) :=
  match r with
  | .error e' => decidable_of_iff (e' = e) (by simp)
  | .ok _ => .isFalse nofun

/-- The level of the language on which a line fails. -/
inductive ErrorKind where
  | lexical
  | grammatical
  | naming
  | arity
deriving DecidableEq, Repr

/-- The level to which a cause belongs. -/
def Cause.kind : Cause → ErrorKind
  | unexpectedCharacter _ => .lexical
  | emptyLine | notConstant _ | nestedTooDeeply | missingExpression _ | missingToken .. |
    unexpectedToken _ => .grammatical
  | functionWithoutArgument _ | unknownIdentifier _ | unknownFunction _ => .naming
  | wrongArity .. => .arity

/-! ## Wording -/

/-- The word that opens a message. -/
def ErrorKind.label : ErrorKind → String
  | lexical => "LexError"
  | grammatical => "ParseError"
  | naming => "NameError"
  | arity => "ArityError"

/-- The wording of a cause. -/
def Cause.message : Cause → String
  | unexpectedCharacter c => "unexpected character: '" ++ String.singleton c ++ "'"
  | emptyLine => "empty expression"
  | notConstant found =>
      "vertical line needs a constant (x = <number>), found " ++ describeFound found
  | nestedTooDeeply => "expression nested too deeply"
  | missingExpression found => "expected expression, found " ++ describeFound found
  | missingToken wanted found =>
      "expected " ++ wanted.describe ++ ", found " ++ describeFound found
  | unexpectedToken found => "unexpected " ++ found.describe
  | functionWithoutArgument name =>
      "'" ++ name ++ "' is a function and needs an argument, e.g. " ++ name ++ "(x)"
  | unknownIdentifier name => "unknown identifier '" ++ name ++ "' (the only variable is x)"
  | unknownFunction name =>
      "unknown function '" ++ name ++ "' (available: " ++ ", ".intercalate Builtin.names ++ ")"
  | wrongArity name count => name ++ " takes 1 argument, got " ++ toString count

namespace Error

/-- What is wrong, in words. -/
def message (e : Error) : String := e.cause.message

/-- One line: the level, the place and the message. -/
def display (e : Error) : String :=
  e.cause.kind.label ++ " at " ++ toString e.span.start ++ ": " ++ e.message

/-- The line of `display`, and the source with carets below. -/
def render (e : Error) (source : String) : String :=
  e.display ++ "\n" ++ e.span.underline source

end Error

end GlutSketch.Equation
