import GlutSketch.Equation.Classify
import GlutSketch.Plot.Function
import GlutSketch.Plot.Viewport

/-!
# GlutSketch.Plot.Sampling

Samples of a function across a window.  A graph is sampled at both edges of the
window and once per column of the plotting surface between them; a sample is
kept if its value is finite and lies on the surface or in a margin above or
below it.  Where samples are not kept, the curve has a gap.
-/

namespace GlutSketch

/-- The number of steps across the window. -/
def sampleSteps : Nat := 800

/-- The number of steps along a vertical line. -/
def verticalSteps : Nat := 100

/-- How far above or below the surface a sample may lie, in pixels. -/
def sampleMargin : Float := 100

/-- A sample with this value and place is kept. -/
def IsShown (value : Float) (p : Point) : Prop :=
  value.isFinite ∧ -sampleMargin ≤ p.y ∧ p.y ≤ Extent.plotting.height + sampleMargin

instance (value : Float) (p : Point) : Decidable (IsShown value p) :=
  inferInstanceAs (Decidable (_ ∧ _))

namespace Viewport

/-- The arguments at which a graph is sampled. -/
def arguments (v : Viewport) : List Float :=
  let step := v.width / Float.ofNat sampleSteps
  (List.range (sampleSteps + 1)).map fun i => v.xMin + Float.ofNat i * step

/-- The sample of `f` at `x`, if it is kept. -/
def sample? (v : Viewport) (f : Float → Float) (x : Float) : Option Point :=
  let value := f x
  let p := v.toSurface x value
  if IsShown value p then some p else none

/-- The samples of a graph. -/
def sampleCurve (v : Viewport) (f : Float → Float) : List (Option Point) :=
  collapseGaps (v.arguments.map (v.sample? f))

/-- The samples of a vertical line, from the bottom to the top of the window. -/
def sampleVertical (v : Viewport) (x : Float) : List (Option Point) :=
  let step := v.height / Float.ofNat verticalSteps
  (List.range (verticalSteps + 1)).map fun i =>
    some (v.toSurface x (v.yMin + Float.ofNat i * step))

/-- The samples of an equation. -/
def sampleEquation (v : Viewport) : Equation Equation.Formula → List (Option Point)
  | .vertical x => v.sampleVertical x
  | .function body => v.sampleCurve body.eval

end Viewport

/-- Reads the equation of a function and samples it across a window. -/
def PlotFunction.sample (f : PlotFunction) (v : Viewport) :
    Except Equation.Error SampledFunction :=
  (Equation.classify f.expression).map fun e => ⟨f.id, f.color, v.sampleEquation e⟩

end GlutSketch
