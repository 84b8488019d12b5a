import GlutSketch.Drawing.Point

/-!
# GlutSketch.Plot.Viewport

The window of the mathematical plane that is shown on the plotting surface.
-/

namespace GlutSketch

/-- A window of the plane: the ranges of `x` and `y` that fill the plotting
surface. -/
structure Viewport where
  xMin : Float
  xMax : Float
  yMin : Float
  yMax : Float
deriving DecidableEq, Repr

namespace Viewport

/-- Ten units from the origin each way. -/
def default : Viewport := ⟨-10, 10, -10, 10⟩

/-- How much of `x` the window shows. -/
def width (v : Viewport) : Float := v.xMax - v.xMin

/-- How much of `y` the window shows. -/
def height (v : Viewport) : Float := v.yMax - v.yMin

/-- The point of the plotting surface that shows `(x, y)`. -/
def toSurface (v : Viewport) (x y : Float) : Point :=
  ⟨(x - v.xMin) / v.width * Extent.plotting.width, (v.yMax - y) / v.height * Extent.plotting.height⟩

/-- Both ranges are finite and not empty, and so are their widths. -/
def IsValid (v : Viewport) : Prop :=
  (∀ x ∈ [v.xMin, v.xMax, v.yMin, v.yMax, v.width, v.height], x.isFinite) ∧
    0 < v.width ∧ 0 < v.height

instance (v : Viewport) : Decidable v.IsValid := inferInstanceAs (Decidable (_ ∧ _))

end Viewport

end GlutSketch
