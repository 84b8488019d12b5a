import GlutSketch.Numeric.Binary64

/-!
# GlutSketch.Equation.Builtin

The names an equation may use: one variable, two constants and the functions of
one argument.
-/

namespace GlutSketch.Equation

/-- A function of one argument. -/
inductive Builtin where
  | sin
  | cos
  | tan
  | sqrt
  | abs
  | ln
  | exp
deriving DecidableEq, Repr

namespace Builtin

/-- The functions by name.  The natural logarithm has two names. -/
def table : List (String × Builtin) :=
  [("sin", sin), ("cos", cos), ("tan", tan), ("sqrt", sqrt), ("abs", abs), ("log", ln), ("ln", ln),
    ("exp", exp)]

/-- All names of functions, in the order in which messages list them. -/
def names : List String := table.map (·.1)

/-- The function of a name. -/
def ofName? (name : String) : Option Builtin := table.lookup name

/-- The function on doubles. -/
def onFloat : Builtin → Float → Float
  | sin => Float.sin
  | cos => Float.cos
  | tan => Float.tan
  | sqrt => Float.sqrt
  | abs => Float.abs
  | ln => Float.log
  | exp => Float.exp

end Builtin

/-- The one variable. -/
def argumentName : String := "x"

/-- The constants by name. -/
def constants : List (String × Float) := [("pi", Real64.pi), ("e", Real64.e)]

/-- The value of a named constant. -/
def constant? (name : String) : Option Float := constants.lookup name

end GlutSketch.Equation
