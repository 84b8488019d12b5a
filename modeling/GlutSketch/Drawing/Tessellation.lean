import GlutSketch.Drawing.Arc
import GlutSketch.Drawing.Color
import GlutSketch.Drawing.Shape

/-!
# GlutSketch.Drawing.Tessellation

From a shape to the passes that draw it.  `Geometry.outline?` gives the outline
of a geometry with the right number of points, and `Outline.tessellate` turns it
into a fill and a stroke according to a style.
-/

namespace GlutSketch

/-! ## Passes -/

/-- How vertices are joined. -/
inductive Primitive where
  | quads
  | polygon
  | triangleFan
  | lineLoop
  | lineStrip
  | lines
  | points
deriving DecidableEq, Repr

/-- The constant that selects a primitive. -/
def Primitive.constant : Primitive → String
  | quads => "GL_QUADS"
  | polygon => "GL_POLYGON"
  | triangleFan => "GL_TRIANGLE_FAN"
  | lineLoop => "GL_LINE_LOOP"
  | lineStrip => "GL_LINE_STRIP"
  | lines => "GL_LINES"
  | points => "GL_POINTS"

/-- The width of lines or the size of points. -/
inductive Pen where
  | lineWidth (width : Float)
  | pointSize (size : Float)
deriving DecidableEq, Repr

/-- A primitive with its color, its pen if it needs one, and its vertices. -/
structure Pass where
  primitive : Primitive
  color : Channels
  pen : Option Pen
  vertices : List Ndc
deriving DecidableEq, Repr

/-- The passes of a shape; the fill is drawn first. -/
structure Tessellation where
  fill : Option Pass
  stroke : Option Pass
deriving DecidableEq, Repr

/-- The passes in the order in which they are drawn. -/
def Tessellation.passes (t : Tessellation) : List Pass := t.fill.toList ++ t.stroke.toList

/-! ## Outlines -/

/-- The outline of a shape, before it is styled. -/
inductive Outline where
  /-- A closed outline through `corners`, filled by the primitive `inside`. -/
  | area (inside : Primitive) (corners : List Ndc)
  /-- A rim, drawn by the primitive `edge` and filled from the center. -/
  | sector (center : Ndc) (edge : Primitive) (rim : List Ndc)
  /-- An open line, which is never filled. -/
  | path (vertices : List Ndc)
  /-- A straight line, which is always drawn. -/
  | segment (a b : Ndc)
  /-- Single points, which are always drawn. -/
  | dots (vertices : List Ndc)

/-- A point of the drawing surface in normalized coordinates. -/
def Point.toNdc (p : Point) : Ndc := p.normalize .drawing

/-- Half the width of the drawing surface: a radius in pixels over it is one in
normalized coordinates. -/
def radiusScaleX : Float := 600

/-- Half the height of the drawing surface. -/
def radiusScaleY : Float := 350

/-- The radius of a circle as a normalized length. -/
def normalizedRadius (center rim : Point) : Float := center.distance rim / radiusScaleX

/-- The corners of a rectangle from two opposite ones. -/
def rectangleCorners (a b : Ndc) : List Ndc := [⟨a.x, a.y⟩, ⟨b.x, a.y⟩, ⟨b.x, b.y⟩, ⟨a.x, b.y⟩]

/-- A Bezier curve is drawn in this many steps. -/
def bezierSteps : Nat := 100

/-- The vertices of a Bezier curve, both ends included. -/
def bezierVertices (p0 p1 p2 p3 : Point) : List Ndc :=
  (List.range (bezierSteps + 1)).map fun i =>
    (Point.cubicBezier p0 p1 p2 p3 (Float.ofNat i / Float.ofNat bezierSteps)).toNdc

/-- The outline of a figure, if it has the right number of points. -/
def Figure.outline? : Figure → List Point → Option Outline
  | rectangle, [a, b] => some (.area .quads (rectangleCorners a.toNdc b.toNdc))
  | circle, [center, rim] =>
      let radius := normalizedRadius center rim
      some (.sector center.toNdc .lineLoop (ellipseRim center.toNdc radius radius))
  | ellipse, [center, corner] =>
      let rx := (corner.x - center.x).abs / radiusScaleX
      let ry := (corner.y - center.y).abs / radiusScaleY
      some (.sector center.toNdc .lineLoop (ellipseRim center.toNdc rx ry))
  | line, a :: b :: _ => some (.segment a.toNdc b.toNdc)
  | triangle, [a, b, c] => some (.area .polygon [a.toNdc, b.toNdc, c.toNdc])
  | bezier, [p0, p1, p2, p3] => some (.path (bezierVertices p0 p1 p2 p3))
  | freehand, a :: b :: rest => some (.path ((a :: b :: rest).map Point.toNdc))
  | polygon, a :: b :: rest | star, a :: b :: rest | pentagon, a :: b :: rest |
    hexagon, a :: b :: rest => some (.area .polygon ((a :: b :: rest).map Point.toNdc))
  | point, a :: rest => some (.dots ((a :: rest).map Point.toNdc))
  | _, _ => none

/-- The outline of a geometry, if it has the right number of points. -/
def Geometry.outline? : Geometry → Option Outline
  | figure f points => f.outline? points
  | arc [center, rim] startAngle endAngle =>
      some (.sector center.toNdc .lineStrip
        (arcRim center.toNdc (normalizedRadius center rim) startAngle endAngle))
  | arc .. => none

/-! ## Styling -/

namespace Style

/-- The pass that fills an outline, if the style fills. -/
def fillPass (s : Style) (primitive : Primitive) (vertices : List Ndc) : Option Pass :=
  if s.filled then some ⟨primitive, (Color.ofText s.fillColor).channels, none, vertices⟩ else none

/-- A pass in the color of the stroke. -/
def drawnPass (s : Style) (primitive : Primitive) (pen : Pen) (vertices : List Ndc) : Pass :=
  ⟨primitive, (Color.ofText s.strokeColor).channels, some pen, vertices⟩

/-- The pass that draws an outline, if the style has a stroke. -/
def strokePass (s : Style) (primitive : Primitive) (vertices : List Ndc) : Option Pass :=
  if 0 < s.strokeWidth then some (s.drawnPass primitive (.lineWidth s.strokeWidth) vertices)
  else none

end Style

/-- The least width of a straight line. -/
def minLineWidth : Float := 1

/-- The least size of a point. -/
def minPointSize : Float := 5

/-- The passes of an outline in a style. -/
def Outline.tessellate (s : Style) : Outline → Tessellation
  | area inside corners => ⟨s.fillPass inside corners, s.strokePass .lineLoop corners⟩
  | sector center edge rim => ⟨s.fillPass .triangleFan (center :: rim), s.strokePass edge rim⟩
  | path vertices => ⟨none, s.strokePass .lineStrip vertices⟩
  | segment a b =>
      ⟨none, s.drawnPass .lines (.lineWidth (Real64.maximum s.strokeWidth minLineWidth)) [a, b]⟩
  | dots vertices =>
      ⟨none, s.drawnPass .points (.pointSize (Real64.maximum (s.strokeWidth * 2) minPointSize))
        vertices⟩

/-! ## Shapes -/

/-- A shape of this kind cannot be drawn with this number of points. -/
structure PointCountError where
  kind : ShapeKind
  found : Nat
deriving DecidableEq, Repr

namespace PointCountError

/-- The number of points the kind needs. -/
def required (e : PointCountError) : PointCount := e.kind.requiredPoints

/-- What is wrong, in words. -/
def message (e : PointCountError) : String :=
  e.kind.name ++ " needs " ++ e.required.describe ++ " points, found " ++ toString e.found

end PointCountError

/-- The passes of a shape. -/
def Shape.tessellate (s : Shape) : Except PointCountError Tessellation :=
  match s.geometry.outline? with
  | some outline => .ok (outline.tessellate s.style)
  | none => .error ⟨s.kind, s.geometry.points.length⟩

end GlutSketch
