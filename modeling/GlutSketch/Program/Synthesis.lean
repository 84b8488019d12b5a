import GlutSketch.Diagnostic
import GlutSketch.Program.Scaffold

/-!
# GlutSketch.Program.Synthesis

The drawing program of shapes and sampled functions.  Shapes come first, each
under a comment with its number; a shape that cannot be drawn keeps its comment.
Functions follow; those without a sample are left out and take no number.
-/

namespace GlutSketch

namespace Program

/-! ## Shapes -/

/-- The items of a shape with the number `index + 1`. -/
def shapeItems (index : Nat) (s : Shape) : List Item :=
  let passes := match s.tessellate with
    | .error _ => []
    | .ok t =>
        (t.fill.toList.flatMap fun p => [.pass p, .blank]) ++ t.stroke.toList.map Item.pass
  .comment ("Shape " ++ toString (index + 1) ++ ": " ++ s.kind.name) :: (passes ++ [.blank])

/-- What is wrong with a shape. -/
def shapeDiagnostics (index : Nat) (s : Shape) : List Diagnostic :=
  match s.tessellate with
  | .error e => [.pointCount index e]
  | .ok _ => []

/-! ## Functions -/

/-- The width of the line of a function. -/
def graphLineWidth : Float := 2

/-- The pass that draws a segment of a function. -/
def graphPass (color : Channels) (segment : List Point) : Pass :=
  ⟨.lineStrip, color, some (.lineWidth graphLineWidth), segment.map (·.normalize .plotting)⟩

/-- The items of a function with the number `index + 1`: each segment has a
comment with the number of its vertices. -/
def functionItems (index : Nat) (f : SampledFunction) : List Item :=
  (drawableSegments f.points).flatMap fun segment =>
    [.comment ("Graph function " ++ toString (index + 1) ++ " - " ++ toString segment.length ++
        " vertices"),
      .pass (graphPass (Color.ofText f.color).channels segment), .blank]

/-- The items of all functions that have a sample, under one comment if there
are any. -/
def graphItems (plotted : List SampledFunction) : List Item :=
  if plotted.isEmpty then []
  else
    .comment "Graph plots from mathematical functions" ::
      plotted.zipIdx.flatMap fun (f, index) => functionItems index f

/-- What is wrong with the functions that have samples: some cannot be drawn all
the same. -/
def segmentDiagnostics (plotted : List SampledFunction) : List Diagnostic :=
  (plotted.filter fun f => (drawableSegments f.points).isEmpty).map fun f => .noSegment f.id

end Program

/-! ## Whole programs -/

/-- A drawing program, and what it had to leave out. -/
structure Synthesis where
  body : List Program.Item
  diagnostics : List Diagnostic
deriving DecidableEq

/-- The text of the program. -/
def Synthesis.program (s : Synthesis) : String :=
  Program.header ++ Program.bodyText s.body ++ Program.footer

/-- The drawing program of shapes and sampled functions. -/
def synthesize (shapes : List Shape) (sampled : List SampledFunction) : Synthesis :=
  let plotted := sampled.filter SampledFunction.hasSample
  let unplotted := sampled.filter fun f => !f.hasSample
  { body := shapes.zipIdx.flatMap (fun (s, index) => Program.shapeItems index s) ++
      Program.graphItems plotted
    diagnostics := shapes.zipIdx.flatMap (fun (s, index) => Program.shapeDiagnostics index s) ++
      unplotted.map (fun f => .noSample f.id) ++ Program.segmentDiagnostics plotted }

end GlutSketch
