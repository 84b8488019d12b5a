import GlutSketch.Numeric.Binary64

/-!
# GlutSketch.Drawing.Point

Points of a surface, in pixels with `y` pointing down, and their normalized
coordinates, in which a surface goes from -1 to 1 both ways and `y` points up.
-/

namespace GlutSketch

/-- A point of a surface, in pixels. -/
structure Point where
  x : Float
  y : Float
deriving DecidableEq, Repr

/-- A point in normalized coordinates. -/
structure Ndc where
  x : Float
  y : Float
deriving DecidableEq, Repr

/-- The size of a surface in pixels. -/
structure Extent where
  width : Float
  height : Float

namespace Extent

/-- The surface that shapes are drawn on. -/
def drawing : Extent := ⟨1200, 700⟩

/-- The surface that functions are plotted on. -/
def plotting : Extent := ⟨800, 600⟩

end Extent

namespace Point

/-- The distance of two points. -/
def distance (a b : Point) : Float := Real64.hypot (b.x - a.x) (b.y - a.y)

/-- The normalized coordinates of a point.  A point off the surface lies outside
-1 to 1. -/
def normalize (p : Point) (e : Extent) : Ndc :=
  ⟨p.x / e.width * 2 - 1, 1 - p.y / e.height * 2⟩

/-- The point at the parameter `t`, zero to one, of the cubic Bezier curve from
`p0` to `p3` with the handles `p1` and `p2`. -/
def cubicBezier (p0 p1 p2 p3 : Point) (t : Float) : Point :=
  let u := 1 - t
  let b0 := u * u * u
  let b1 := 3 * u * u * t
  let b2 := 3 * u * t * t
  let b3 := t * t * t
  ⟨b0 * p0.x + b1 * p1.x + b2 * p2.x + b3 * p3.x,
    b0 * p0.y + b1 * p1.y + b2 * p2.y + b3 * p3.y⟩

end Point

end GlutSketch
