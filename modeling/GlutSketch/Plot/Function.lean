import GlutSketch.Drawing.Point
import GlutSketch.Plot.Segments

/-!
# GlutSketch.Plot.Function

The functions of a scene, and what is left of one after sampling.
-/

namespace GlutSketch

/-- What tells a function from the others, wherever it stands in the list. -/
structure FunctionId where
  value : UInt64
deriving DecidableEq, Repr

/-- An id is written with a `#` before it. -/
def FunctionId.describe (id : FunctionId) : String := "#" ++ toString id.value.toNat

/-- A line of plot equation with its color.  The text is kept as it was
written. -/
structure PlotFunction where
  id : FunctionId
  expression : String
  color : String
  visible : Bool
deriving DecidableEq, Repr

/-- The samples of a function on the plotting surface, with gaps where it is
interrupted. -/
structure SampledFunction where
  id : FunctionId
  color : String
  points : List (Option Point)
deriving DecidableEq, Repr

/-- A function has a sample at all. -/
def SampledFunction.hasSample (f : SampledFunction) : Bool := f.points.any Option.isSome

end GlutSketch
