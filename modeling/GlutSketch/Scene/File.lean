import GlutSketch.Json.Printer
import GlutSketch.Json.Reader
import GlutSketch.Json.Record
import GlutSketch.Scene

/-!
# GlutSketch.Scene.File

Scenes as JSON.  Writing gives every field its name, in a fixed order; reading
also accepts a record as the array of its fields, any order of members, members
it does not know, and the absence of those that have a default.
-/

namespace GlutSketch

/-! ## Points and styles -/

namespace Point

/-- The names of the coordinates, in the order of the file. -/
def fieldNames : List String := ["x", "y"]

/-- Writes both coordinates. -/
def toJson (p : Point) : Json := .ofMembers [("x", .ofFloat p.x), ("y", .ofFloat p.y)]

/-- Reads both coordinates; neither may be absent. -/
def ofJson? (v : Json) : Option Point :=
  match v.fields? fieldNames with
  | some [x, y] => do
      return ⟨← Json.required? Json.asFloat? x, ← Json.required? Json.asFloat? y⟩
  | _ => none

end Point

namespace Style

/-- The names of the parts of a style, in the order of the file. -/
def fieldNames : List String := ["stroke_color", "fill_color", "stroke_width", "filled"]

/-- Writes every part, also one that has its default. -/
def toJson (s : Style) : Json :=
  .ofMembers [("stroke_color", .ofString s.strokeColor), ("fill_color", .ofString s.fillColor),
    ("stroke_width", .ofFloat s.strokeWidth), ("filled", .bool s.filled)]

/-- Reads a style; an absent part has the value it has in the default style. -/
def ofJson? (v : Json) : Option Style :=
  match v.fields? fieldNames with
  | some [strokeColor, fillColor, strokeWidth, filled] => do
      return {
        strokeColor := ← Json.optional? Json.asText? default.strokeColor strokeColor
        fillColor := ← Json.optional? Json.asText? default.fillColor fillColor
        strokeWidth := ← Json.optional? Json.asFloat? default.strokeWidth strokeWidth
        filled := ← Json.optional? Json.asBool? default.filled filled }
  | _ => none

end Style

/-! ## Geometry -/

namespace ShapeKind

/-- The name of the member that holds the points of a kind. -/
def pointsName : ShapeKind → String
  | figure .bezier => "control_points"
  | _ => "points"

/-- The names of the members of a kind, apart from the kind itself. -/
def fieldNames : ShapeKind → List String
  | figure f => [(figure f).pointsName]
  | arc => ["points", "start_angle", "end_angle"]

end ShapeKind

namespace Geometry

/-- A member with this name tells the kind. -/
def kindName : String := "kind"

/-- Writes the kind first, then its own members. -/
def toJson (g : Geometry) : Json :=
  let points := Json.array (g.points.map Point.toJson)
  .ofMembers <| (kindName, .ofString g.kind.name) :: (g.kind.pointsName, points) ::
    match g with
    | figure .. => []
    | arc _ startAngle endAngle =>
        [("start_angle", .ofFloat startAngle), ("end_angle", .ofFloat endAngle)]

/-- Reads the members of a kind. -/
def ofFields? : ShapeKind → List (Option Json) → Option Geometry
  | .figure f, [points] => (Json.required? (Json.asList? Point.ofJson?) points).map (figure f)
  | .arc, [points, startAngle, endAngle] => do
      return arc (← Json.required? (Json.asList? Point.ofJson?) points)
        (← Json.required? Json.asFloat? startAngle) (← Json.required? Json.asFloat? endAngle)
  | _, _ => none

/-- Splits a geometry into its kind and the value that holds the other members:
an object has the kind under its name, and an array has it first. -/
def splitKind? : Json → Option (ShapeKind × Json)
  | .object members =>
      match Json.member? kindName members with
      | some (some (.string (some name))) => do
          let others := members.filter fun (text, _) => text ≠ some kindName
          return (← ShapeKind.ofName? name, .object others)
      | _ => none
  | .array (.string (some name) :: others) => do
      return (← ShapeKind.ofName? name, .array others)
  | _ => none

/-- How deep the value of a geometry may nest.  Four containers are around and
including it, and a scene that keeps unread parts nests at most 127 deep. -/
def maxDepth : Nat := 124

/-- Reads a geometry.  Its unread members are kept until the kind is known, so
they have to be sound as well. -/
def ofJson? (v : Json) : Option Geometry :=
  if v.isSound maxDepth then do
    let (kind, others) ← splitKind? v
    ofFields? kind (← others.fields? kind.fieldNames)
  else none

end Geometry

namespace Shape

/-- The names of the parts of a shape, in the order of the file. -/
def fieldNames : List String := ["geometry", "style"]

/-- Writes where the shape is and how it looks. -/
def toJson (s : Shape) : Json :=
  .ofMembers [("geometry", s.geometry.toJson), ("style", s.style.toJson)]

/-- Reads a shape; one without a style has the default style. -/
def ofJson? (v : Json) : Option Shape :=
  match v.fields? fieldNames with
  | some [geometry, style] => do
      return ⟨← Json.required? Geometry.ofJson? geometry,
        ← Json.optional? Style.ofJson? .default style⟩
  | _ => none

end Shape

/-! ## Functions and window -/

namespace PlotFunction

/-- The names of the parts of a function, in the order of the file. -/
def fieldNames : List String := ["id", "expression", "color", "visible"]

/-- Writes every part; the color stays the text that was entered. -/
def toJson (f : PlotFunction) : Json :=
  .ofMembers [("id", .ofNat f.id.value.toNat), ("expression", .ofString f.expression),
    ("color", .ofString f.color), ("visible", .bool f.visible)]

/-- Reads a function; one that does not say is visible. -/
def ofJson? (v : Json) : Option PlotFunction :=
  match v.fields? fieldNames with
  | some [id, expression, color, visible] => do
      return {
        id := ⟨← Json.required? Json.asUInt64? id⟩
        expression := ← Json.required? Json.asText? expression
        color := ← Json.required? Json.asText? color
        visible := ← Json.optional? Json.asBool? true visible }
  | _ => none

end PlotFunction

namespace Viewport

/-- The names of the four edges, in the order of the file. -/
def fieldNames : List String := ["x_min", "x_max", "y_min", "y_max"]

/-- Writes the four edges. -/
def toJson (v : Viewport) : Json :=
  .ofMembers [("x_min", .ofFloat v.xMin), ("x_max", .ofFloat v.xMax), ("y_min", .ofFloat v.yMin),
    ("y_max", .ofFloat v.yMax)]

/-- Reads four edges, which need not make a valid window. -/
def ofJson? (v : Json) : Option Viewport :=
  match v.fields? fieldNames with
  | some [xMin, xMax, yMin, yMax] => do
      return ⟨← Json.required? Json.asFloat? xMin, ← Json.required? Json.asFloat? xMax,
        ← Json.required? Json.asFloat? yMin, ← Json.required? Json.asFloat? yMax⟩
  | _ => none

end Viewport

/-! ## Scenes -/

namespace Scene

/-- The names of the parts of a scene, in the order of the file. -/
def fieldNames : List String := ["shapes", "functions", "viewport"]

/-- Writes the shapes, the functions and the window. -/
def toJson (s : Scene) : Json :=
  .ofMembers [("shapes", .array (s.shapes.map Shape.toJson)),
    ("functions", .array (s.functions.map PlotFunction.toJson)), ("viewport", s.viewport.toJson)]

/-- Reads a scene; an absent part is empty, and an absent window is the default
one. -/
def ofJson? (v : Json) : Option Scene :=
  match v.fields? fieldNames with
  | some [shapes, functions, viewport] => do
      return ⟨← Json.optional? (Json.asList? Shape.ofJson?) [] shapes,
        ← Json.optional? (Json.asList? PlotFunction.ofJson?) [] functions,
        ← Json.optional? Viewport.ofJson? .default viewport⟩
  | _ => none

/-- The text of a scene file. -/
def save (s : Scene) : String := s.toJson.print

/-- Reads the text of a scene file. -/
def load? (text : String) : Option Scene := (Json.parse? text.toList).bind ofJson?

end Scene

/-- The samples of a function as JSON; a gap is null. -/
def SampledFunction.toJson (f : SampledFunction) : Json :=
  let point : Option Point → Json
    | none => .null
    | some p => p.toJson
  .ofMembers [("id", .ofNat f.id.value.toNat), ("color", .ofString f.color),
    ("points", .array (f.points.map point))]

end GlutSketch
