import GlutSketch.Proofs.Drawing.PointCount
import GlutSketch.Proofs.Plot.Samples
import GlutSketch.Proofs.Program.Sections
import GlutSketch.Scene.Recompute

/-!
# GlutSketch.Proofs.Scene.Insertion

A broken entry does not disturb the others.  The text of the program is the
sections of the shapes and the graphs of the functions that are plotted: a
function that is left out is not counted, and a shape that cannot be drawn takes
a number but no more than its heading.

* `Scene.program_recompute` -- the program of a scene, in sections.
* `PlotFunction.LeftOut`, `Scene.plotted_insertIdx` -- functions that are not
  counted.
* `Scene.broken_entries_disturb_nothing` -- one entry more, in any place.
-/

namespace GlutSketch

/-- A function that takes no part in the program: it is hidden, or its equation
is refused, or no sample of it is kept. -/
inductive PlotFunction.LeftOut (v : Viewport) (f : PlotFunction) : Prop
  | hidden (h : f.visible = false)
  | refused (e : Equation.Error) (h : Equation.classify f.expression = .error e)
  | noSample (e : Equation Equation.Formula) (h : Equation.classify f.expression = .ok e)
      (hgaps : ∀ p ∈ v.series e, p = none)

namespace Scene

/-! ## Sections -/

/-- The functions that are counted in the program: those that are visible and
have a sample. -/
def plotted (v : Viewport) (fs : List PlotFunction) : List SampledFunction :=
  if v.IsValid then
    ((fs.filter (·.visible)).filterMap (sampled? v)).filter SampledFunction.hasSample
  else []

/-- The text of the graphs. -/
def graphs (v : Viewport) (fs : List PlotFunction) : String :=
  Program.bodyText (Program.graphItems (plotted v fs))

/-- **Parts of a program**: first come the shapes of a scene, then its
graphs. -/
theorem program_recompute (s : Scene) :
    s.recompute.program = Program.header ++
      (Program.sections 1 s.shapes ++ graphs s.viewport s.functions) ++ Program.footer := by
  have hplotted : s.sampleAll.functions.filter SampledFunction.hasSample =
      plotted s.viewport s.functions := by
    unfold sampleAll plotted visibleFunctions
    split <;> rfl
  have hprogram : s.recompute.program = (synthesize s.shapes s.sampleAll.functions).program := rfl
  rw [hprogram, synthesize_program, hplotted, graphs]

/-! ## Functions -/

section Functions

variable {v : Viewport} {f : PlotFunction}

/-- A function is sampled if its expression is accepted. -/
theorem sampled?_eq (v : Viewport) (f : PlotFunction) :
    sampled? v f = (Equation.classify f.expression).toOption.map fun e =>
      ⟨f.id, f.color, v.sampleEquation e⟩ := by
  rw [sampled?, PlotFunction.sample]
  cases Equation.classify f.expression <;> rfl

/-- Functions are plotted one by one. -/
theorem plotted_cons (v : Viewport) (f : PlotFunction) (fs : List PlotFunction) :
    plotted v (f :: fs) = plotted v [f] ++ plotted v fs := by
  unfold plotted
  split
  · rw [← List.filter_append, ← List.filterMap_append, ← List.filter_append, List.singleton_append]
  · rfl

/-- A function that is left out plots nothing. -/
theorem plotted_of_leftOut (h : f.LeftOut v) : plotted v [f] = [] := by
  unfold plotted
  cases h with
  | hidden h => simp [h]
  | refused e h =>
      have hsampled : sampled? v f = none := by simp [sampled?_eq, h, Except.toOption]
      by_cases hvisible : f.visible <;> simp [hvisible, hsampled]
  | noSample e h hgaps =>
      have hsampled : sampled? v f = some ⟨f.id, f.color, v.sampleEquation e⟩ := by
        simp [sampled?_eq, h, Except.toOption]
      have hnone : (SampledFunction.mk f.id f.color (v.sampleEquation e)).hasSample = false := by
        rw [SampledFunction.hasSample_eq_false_iff, Viewport.splitSegments_sampleEquation,
          splitSegments_eq_nil_iff]
        exact hgaps
      by_cases hvisible : f.visible <;> simp [hvisible, hsampled, hnone]

/-- A function that is left out is not counted, wherever it stands. -/
theorem plotted_insertIdx (h : f.LeftOut v) (fs : List PlotFunction) (i : Nat) :
    plotted v (fs.insertIdx i f) = plotted v fs := by
  induction fs generalizing i with
  | nil =>
      cases i with
      | zero => simpa [plotted] using plotted_of_leftOut h
      | succ i => rfl
  | cons first fs ih =>
      cases i with
      | zero => rw [List.insertIdx_zero, plotted_cons, plotted_of_leftOut h, List.nil_append]
      | succ i => rw [List.insertIdx_succ_cons, plotted_cons, ih, ← plotted_cons]

end Functions

/-! ## One entry more -/

/-- **Broken entries**: a function that is left out changes nothing in the
program, wherever it is inserted.  A shape with the wrong number of points adds
its heading and a blank line to the shapes, before the section of the shape
whose place it takes or after the last one; the shapes that come after it have
numbers greater by one, and all else is as it was. -/
theorem broken_entries_disturb_nothing (s : Scene) (i : Nat) :
    (∀ f : PlotFunction, f.LeftOut s.viewport →
      { s with functions := s.functions.insertIdx i f }.recompute.program = s.recompute.program) ∧
    ∀ shape : Shape, ¬ shape.HasPoints → i ≤ s.shapes.length →
      s.recompute.program =
        Program.header ++ (Program.sections 1 (s.shapes.take i) ++
          Program.sections (i + 1) (s.shapes.drop i) ++
          graphs s.viewport s.functions) ++ Program.footer ∧
      { s with shapes := s.shapes.insertIdx i shape }.recompute.program =
        Program.header ++ (Program.sections 1 (s.shapes.take i) ++
          ("    // Shape " ++ toString (i + 1) ++ ": " ++ shape.kind.name ++ "\n" ++ "\n") ++
          Program.sections (i + 2) (s.shapes.drop i) ++
          graphs s.viewport s.functions) ++ Program.footer := by
  constructor
  · intro f hf
    rw [program_recompute, program_recompute, graphs, plotted_insertIdx hf, graphs]
  · intro shape hshape hi
    have hdrawing := Program.drawing_of_error (Shape.tessellate_of_not_hasPoints hshape)
    have hbefore := Program.sections_take_drop hi 1
    have hafter := Program.sections_insertIdx hi 1 shape
    rw [hdrawing, Program.heading_eq] at hafter
    -- Sections are numbered from one, places from zero.
    rw [Nat.add_comm 1 i] at hbefore hafter
    rw [program_recompute, program_recompute, hbefore, hafter]
    exact ⟨rfl, rfl⟩

/-- A line and a rectangle, and the functions of the starter scene. -/
def twoShapes : Scene :=
  { starter .default with
    shapes := [⟨.figure .line [⟨0, 0⟩, ⟨600, 350⟩], .default⟩,
      ⟨.figure .rectangle [⟨300, 200⟩, ⟨900, 500⟩], .default⟩] }

/-- An equation without an end and a triangle with one corner, each put second.
The rectangle has number three then. -/
theorem program_twoShapes_insertIdx :
    (PlotFunction.mk ⟨3⟩ "1 +" "#FF0000" true).LeftOut twoShapes.viewport ∧
      ¬ (Shape.mk (.figure .triangle [⟨0, 0⟩]) .default).HasPoints ∧
      { twoShapes with
          functions := twoShapes.functions.insertIdx 1
            ⟨⟨3⟩, "1 +", "#FF0000", true⟩ }.recompute.program = twoShapes.recompute.program ∧
      twoShapes.recompute.program = Program.header ++
        ("    // Shape 1: line\n" ++ Program.drawing twoShapes.shapes[0] ++
          "    // Shape 2: rectangle\n" ++ Program.drawing twoShapes.shapes[1] ++
          graphs twoShapes.viewport twoShapes.functions) ++ Program.footer ∧
      { twoShapes with
          shapes := twoShapes.shapes.insertIdx 1
            ⟨.figure .triangle [⟨0, 0⟩], .default⟩ }.recompute.program = Program.header ++
        ("    // Shape 1: line\n" ++ Program.drawing twoShapes.shapes[0] ++
          "    // Shape 2: triangle\n\n" ++
          "    // Shape 3: rectangle\n" ++ Program.drawing twoShapes.shapes[1] ++
          graphs twoShapes.viewport twoShapes.functions) ++ Program.footer := by
  have hrefused : (Equation.classify "1 +").isOk = false := by decide +kernel
  have hfunction : (PlotFunction.mk ⟨3⟩ "1 +" "#FF0000" true).LeftOut twoShapes.viewport := by
    cases h : Equation.classify "1 +" with
    | error e => exact .refused e h
    | ok e => simp [h, Except.isOk, Except.toBool] at hrefused
  have hshape : ¬ (Shape.mk (.figure .triangle [⟨0, 0⟩]) .default).HasPoints := by decide
  have hinsertion := broken_entries_disturb_nothing twoShapes 1
  obtain ⟨hbefore, hafter⟩ := hinsertion.2 _ hshape (by decide)
  have hfirst (number : Nat) : Program.sections number (twoShapes.shapes.take 1) =
      Program.heading number (.figure .line) ++ Program.drawing twoShapes.shapes[0] := by
    simp [Program.sections, twoShapes, Shape.kind, Geometry.kind]
  have hsecond (number : Nat) : Program.sections number (twoShapes.shapes.drop 1) =
      Program.heading number (.figure .rectangle) ++ Program.drawing twoShapes.shapes[1] := by
    simp [Program.sections, twoShapes, Shape.kind, Geometry.kind]
  have hline : Program.heading 1 (.figure .line) = "    // Shape 1: line\n" := by decide +kernel
  have hnumbers : Program.heading 2 (.figure .rectangle) = "    // Shape 2: rectangle\n" ∧
      Program.heading 3 (.figure .rectangle) = "    // Shape 3: rectangle\n" := by
    decide +kernel
  have htriangle : "    // Shape " ++ toString (1 + 1) ++ ": " ++
      (Shape.mk (.figure .triangle [⟨0, 0⟩]) .default).kind.name ++ "\n" ++ "\n" =
        "    // Shape 2: triangle\n\n" := by decide +kernel
  rw [hfirst, hsecond, hline, hnumbers.1] at hbefore
  rw [hfirst, hsecond, hline, hnumbers.2, htriangle] at hafter
  refine ⟨hfunction, hshape, hinsertion.1 _ hfunction, ?_, ?_⟩
  · simpa only [String.append_assoc] using hbefore
  · simpa only [String.append_assoc] using hafter

end Scene

end GlutSketch
