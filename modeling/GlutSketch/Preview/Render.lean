import GlutSketch.Plot.Function
import GlutSketch.Plot.Viewport
import GlutSketch.Preview.Picture

/-!
# GlutSketch.Preview.Render

A preview of sampled functions: the plotting surface scaled to a size, with the
axes of the plane in gray below the functions.
-/

namespace GlutSketch

/-- A picture cannot have this size. -/
structure SizeError where
  width : Nat
  height : Nat
deriving DecidableEq, Repr

/-- What is wrong, in words. -/
def SizeError.message (e : SizeError) : String :=
  "invalid preview size " ++ toString e.width ++ "x" ++ toString e.height

namespace Preview

/-- The color of the axes. -/
def axisColor : Color := ⟨120, 120, 120⟩

/-- The place of a fraction of a side whose last pixel is `last`; a fraction
that falls just short of a pixel counts for it.  Infinities are on the edges. -/
def place (last : Nat) (fraction : Float) : Int :=
  if fraction.isInf then if 0 < fraction then last else 0
  else Real64.floorInt (Float.ofNat last * fraction + 0.001)

/-- The pixel that shows a point of the plotting surface.  Its height is
measured from the bottom. -/
def toPixel (width height : Nat) (p : Point) : Pixel where
  x := place (width - 1) (p.x / Extent.plotting.width)
  y := (height - 1 : Nat) -
    place (height - 1) ((Extent.plotting.height - p.y) / Extent.plotting.height)

/-- The axes that lie on the surface, as lines from edge to edge. -/
def axes (v : Viewport) : List (List Point) :=
  let origin := v.toSurface 0 0
  let surface := Extent.plotting
  let across :=
    if 0 ≤ origin.y ∧ origin.y ≤ surface.height then
      [[⟨0, origin.y⟩, ⟨surface.width, origin.y⟩]]
    else []
  let upward :=
    if 0 ≤ origin.x ∧ origin.x ≤ surface.width then
      [[⟨origin.x, surface.height⟩, ⟨origin.x, 0⟩]]
    else []
  across ++ upward

/-- A preview of functions in a window. -/
def render (functions : List SampledFunction) (v : Viewport) (width height : Nat) :
    Except SizeError Picture :=
  if width = 0 ∨ height = 0 then .error ⟨width, height⟩
  else
    let stroke (color : Color) (radius : Nat) (path : List Point) : Stroke :=
      ⟨color, radius, path.map (toPixel width height)⟩
    let graph (f : SampledFunction) : List Stroke :=
      (drawableSegments f.points).map (stroke (Color.ofText f.color) 1)
    .ok ⟨width, height, (axes v).map (stroke axisColor 0) ++ functions.flatMap graph⟩

end Preview

end GlutSketch
