import GlutSketch.Drawing.Point

/-!
# GlutSketch.Drawing.Shape

Shapes as they are stored: a geometry, which is a kind with its points, and a
style.  An arc has two angles besides; the other kinds, the figures, have
nothing but points.
-/

namespace GlutSketch

/-! ## Style -/

/-- How a shape is drawn.  Colors are kept as they were written; a stroke width
of zero means no stroke. -/
structure Style where
  strokeColor : String
  fillColor : String
  strokeWidth : Float
  filled : Bool
deriving DecidableEq, Repr

/-- A black outline of two pixels, not filled. -/
def Style.default : Style := ⟨"#000000", "#FFFFFF", 2, false⟩

/-! ## Kinds -/

/-- The kinds of shape that are given by points alone. -/
inductive Figure where
  | rectangle
  | circle
  | ellipse
  | line
  | triangle
  | polygon
  | freehand
  | bezier
  | star
  | pentagon
  | hexagon
  | point
deriving DecidableEq, Repr

/-- The kinds of shape. -/
inductive ShapeKind where
  | figure (f : Figure)
  | arc
deriving DecidableEq, Repr

/-- The name of a figure. -/
def Figure.name : Figure → String
  | rectangle => "rectangle"
  | circle => "circle"
  | ellipse => "ellipse"
  | line => "line"
  | triangle => "triangle"
  | polygon => "polygon"
  | freehand => "freehand"
  | bezier => "bezier"
  | star => "star"
  | pentagon => "pentagon"
  | hexagon => "hexagon"
  | point => "point"

/-- All figures. -/
def Figure.all : List Figure :=
  [.rectangle, .circle, .ellipse, .line, .triangle, .polygon, .freehand, .bezier, .star, .pentagon,
    .hexagon, .point]

/-- The figure of a name. -/
def Figure.ofName? (name : String) : Option Figure := all.find? fun f => f.name = name

/-- The name of a kind. -/
def ShapeKind.name : ShapeKind → String
  | figure f => f.name
  | arc => "arc"

/-- The kind of a name. -/
def ShapeKind.ofName? (name : String) : Option ShapeKind :=
  if name = arc.name then some arc else (Figure.ofName? name).map figure

/-! ## Numbers of points -/

/-- How many points a kind of shape needs. -/
inductive PointCount where
  | exactly (n : Nat)
  | atLeast (n : Nat)
deriving DecidableEq, Repr

namespace PointCount

/-- The number of points is right. -/
def Accepts : PointCount → Nat → Prop
  | exactly k, n => n = k
  | atLeast k, n => k ≤ n

instance (c : PointCount) (n : Nat) : Decidable (c.Accepts n) := by
  cases c <;> (unfold Accepts; infer_instance)

/-- The requirement in words. -/
def describe : PointCount → String
  | exactly k => "exactly " ++ toString k
  | atLeast k => "at least " ++ toString k

end PointCount

/-- How many points a figure needs. -/
def Figure.requiredPoints : Figure → PointCount
  | rectangle | circle | ellipse => .exactly 2
  | triangle => .exactly 3
  | bezier => .exactly 4
  | line | polygon | freehand | star | pentagon | hexagon => .atLeast 2
  | point => .atLeast 1

/-- How many points a kind needs to be drawn. -/
def ShapeKind.requiredPoints : ShapeKind → PointCount
  | figure f => f.requiredPoints
  | arc => .exactly 2

/-! ## Geometry -/

/-- Where a shape is.  The points are two opposite corners of a rectangle, the
center and a point of the rim of a circle or an arc, the center and a corner of
the box around a quarter of an ellipse, the start, the two handles and the end
of a Bezier curve, and the vertices of the other figures.  The angles of an arc
are in radians, clockwise on the surface. -/
inductive Geometry where
  | figure (f : Figure) (points : List Point)
  | arc (points : List Point) (startAngle endAngle : Float)
deriving DecidableEq, Repr

namespace Geometry

/-- The kind of a geometry. -/
def kind : Geometry → ShapeKind
  | figure f _ => .figure f
  | arc .. => .arc

/-- The points of a geometry. -/
def points : Geometry → List Point
  | figure _ points => points
  | arc points .. => points

end Geometry

/-- A geometry and how it is drawn. -/
structure Shape where
  geometry : Geometry
  style : Style
deriving DecidableEq, Repr

/-- The kind of a shape. -/
def Shape.kind (s : Shape) : ShapeKind := s.geometry.kind

/-! ## Regular figures -/

/-- The point at `angle`, clockwise from the right, on the circle of a radius
around `center`. -/
def Point.onCircle (center : Point) (radius angle : Float) : Point :=
  ⟨center.x + angle.cos * radius, center.y + angle.sin * radius⟩

/-- The vertices of a regular polygon, the first straight above the center. -/
def regularPolygon (center rim : Point) (sides : Nat) : List Point :=
  let radius := center.distance rim
  (List.range sides).map fun i =>
    center.onCircle radius (Float.ofNat i * 2 * Real64.pi / Float.ofNat sides - Real64.halfPi)

namespace Geometry

/-- A star with five spikes, the first straight above the center.  The inner
vertices have half the radius of the outer ones. -/
def star (center rim : Point) : Geometry :=
  let radius := center.distance rim
  .figure .star <| (List.range 10).map fun i =>
    center.onCircle (if i % 2 = 0 then radius else radius * 0.5)
      (Float.ofNat i * Real64.pi / 5 - Real64.halfPi)

/-- A regular pentagon. -/
def pentagon (center rim : Point) : Geometry := .figure .pentagon (regularPolygon center rim 5)

/-- A regular hexagon. -/
def hexagon (center rim : Point) : Geometry := .figure .hexagon (regularPolygon center rim 6)

end Geometry

end GlutSketch
