import GlutSketch.Drawing.Tessellation
import GlutSketch.Equation.Error
import GlutSketch.Numeric.Layout
import GlutSketch.Plot.Function
import GlutSketch.Plot.Viewport

/-!
# GlutSketch.Diagnostic

What had to be left out of a drawing, and why.  Nothing of this stops the rest
from being drawn.
-/

namespace GlutSketch

/-- What a diagnostic is about.  Shapes are counted from zero. -/
inductive Subject where
  | shape (index : Nat) (kind : ShapeKind)
  | viewport
  | function (id : FunctionId)
deriving DecidableEq, Repr

/-- A part of a scene that cannot be drawn. -/
inductive Diagnostic where
  /-- A shape has the wrong number of points. -/
  | pointCount (index : Nat) (error : PointCountError)
  /-- The window is empty or not finite, so that no function can be sampled. -/
  | badViewport (v : Viewport)
  /-- The equation of a function is refused. -/
  | badEquation (id : FunctionId) (error : Equation.Error)
  /-- A function has no sample in the window. -/
  | noSample (id : FunctionId)
  /-- A function has samples, but no two of them next to each other. -/
  | noSegment (id : FunctionId)
deriving DecidableEq

namespace Diagnostic

/-- What a diagnostic is about. -/
def subject : Diagnostic → Subject
  | pointCount index error => .shape index error.kind
  | badViewport _ => .viewport
  | badEquation id _ => .function id
  | noSample id => .function id
  | noSegment id => .function id

/-- What is wrong, in words. -/
def message : Diagnostic → String
  | pointCount _ error => error.message
  | badViewport v =>
      "empty or non-finite range x " ++ plainText v.xMin ++ ".." ++ plainText v.xMax ++ ", y " ++
        plainText v.yMin ++ ".." ++ plainText v.yMax
  | badEquation _ error => error.display
  | noSample _ => "no samples inside the viewport"
  | noSegment _ => "no drawable segment in the viewport"

/-- The part of the equation that is wrong. -/
def span : Diagnostic → Option Equation.Span
  | badEquation _ error => some error.span
  | _ => none

/-- The subject and what is wrong with it.  Shapes are counted from one here. -/
def display (d : Diagnostic) : String :=
  let subject := match d.subject with
    | .shape index kind => "shape " ++ toString (index + 1) ++ " (" ++ kind.name ++ ")"
    | .viewport => "viewport"
    | .function id => "function " ++ id.describe
  subject ++ ": " ++ d.message

end Diagnostic

end GlutSketch
