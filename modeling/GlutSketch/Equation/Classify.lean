import GlutSketch.Equation.Formula
import GlutSketch.Equation.Lexer
import GlutSketch.Equation.Parser

/-!
# GlutSketch.Equation.Classify

From the text of a line to what it draws: a vertical line, or the graph of a
formula.
-/

namespace GlutSketch.Equation

/-- Reads a line of plot equation, with names as written. -/
def read (source : String) : Except Error (Equation Expr) :=
  match tokenize source with
  | .error e => .error e
  | .ok ts => parseEquation source.length ts

/-- Reads a line that is an expression and nothing else, with names as
written. -/
def readExpression (source : String) : Except Error Expr :=
  match tokenize source with
  | .error e => .error e
  | .ok ts => parseExpression source.length ts

/-- Reads a line of plot equation and looks up its names. -/
def classify (source : String) : Except Error (Equation Formula) :=
  match read source with
  | .error e => .error e
  | .ok (.vertical x) => .ok (.vertical x)
  | .ok (.function body) => body.resolve.map .function

end GlutSketch.Equation
