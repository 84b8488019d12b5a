import GlutSketch.Proofs.Equation.Relocation
import GlutSketch.Proofs.Scene.Insertion
import Mathlib.Data.List.Forall2

/-!
# GlutSketch.Proofs.Scene.Appearance

The program depends on the texts of a scene through their meaning only.  Two
scenes are alike if they would look the same: colors are compared as they are
drawn, equations by the kinds of their tokens, and neither ids nor hidden
functions are compared.  Alikeness is carried from the entries of a scene to its
sampled functions and to the items of its program, where it has become equality.

* `Shape.Alike`, `PlotFunction.Alike`, `Scene.Alike` -- what is compared.
* `Shape.Alike.tessellate_eq`, `forall₂_plotted` -- entries that are alike.
* `Scene.program_eq_of_alike` -- the program of a scene.
-/

namespace GlutSketch

/-! ## Entries -/

/-- The texts of two colors are drawn in the same color. -/
def SameColor (a b : String) : Prop := (Color.ofText a).channels = (Color.ofText b).channels

theorem SameColor.channels_eq {a b : String} (h : SameColor a b) :
    (Color.ofText a).channels = (Color.ofText b).channels := h

/-- Two shapes that differ in the spelling of their colors at most. -/
structure Shape.Alike (s t : Shape) : Prop where
  geometry : s.geometry = t.geometry
  strokeWidth : s.style.strokeWidth = t.style.strokeWidth
  filled : s.style.filled = t.style.filled
  strokeColor : SameColor s.style.strokeColor t.style.strokeColor
  fillColor : SameColor s.style.fillColor t.style.fillColor

/-- Two functions that differ in the spelling of their color and of their
equation at most: both equations have the same kinds of token, or neither can be
cut into tokens. -/
structure PlotFunction.Alike (f g : PlotFunction) : Prop where
  color : SameColor f.color g.color
  expression : Equation.kinds? f.expression = Equation.kinds? g.expression

/-- Two sampled functions that differ in the spelling of their color at most. -/
structure SampledFunction.Alike (f g : SampledFunction) : Prop where
  color : SameColor f.color g.color
  points : f.points = g.points

/-- Two scenes that are alike in all that is shown: the window, the shapes from
back to front, and the visible functions in order. -/
structure Scene.Alike (s t : Scene) : Prop where
  viewport : s.viewport = t.viewport
  shapes : List.Forall₂ Shape.Alike s.shapes t.shapes
  functions : List.Forall₂ PlotFunction.Alike s.visibleFunctions t.visibleFunctions

/-! ## Shapes -/

namespace Shape.Alike

variable {s t : Shape}

/-- Shapes that look alike are of one kind. -/
theorem kind_eq (h : s.Alike t) : s.kind = t.kind := congrArg Geometry.kind h.geometry

/-- Shapes that are alike have the same passes. -/
theorem tessellate_eq (h : s.Alike t) : s.tessellate = t.tessellate := by
  have hfill : ∀ inside vertices,
      s.style.fillPass inside vertices = t.style.fillPass inside vertices := by
    intro inside vertices
    rw [Style.fillPass, Style.fillPass, h.filled, h.fillColor.channels_eq]
  have hdrawn : ∀ primitive pen vertices,
      s.style.drawnPass primitive pen vertices = t.style.drawnPass primitive pen vertices := by
    intro primitive pen vertices
    rw [Style.drawnPass, Style.drawnPass, h.strokeColor.channels_eq]
  have houtline : ∀ outline : Outline, outline.tessellate s.style = outline.tessellate t.style := by
    intro outline
    cases outline <;> simp only [Outline.tessellate, Style.strokePass, hfill, hdrawn, h.strokeWidth]
  rw [tessellate, tessellate, h.geometry, h.kind_eq]
  simp only [houtline]

end Shape.Alike

namespace Program

/-- Shapes that look alike have the same sections. -/
theorem sections_congr {shapes shapes' : List Shape} (h : List.Forall₂ Shape.Alike shapes shapes')
    (number : Nat) : sections number shapes = sections number shapes' := by
  induction h generalizing number with
  | nil => rfl
  | cons hhead _ ih =>
      rw [sections, sections, ih, drawing, drawing, hhead.kind_eq, hhead.tessellate_eq]

/-! ## Functions -/

/-- Functions that look alike are drawn alike. -/
theorem functionItems_congr {f g : SampledFunction} (h : f.Alike g) (index : Nat) :
    functionItems index f = functionItems index g := by
  rw [functionItems, functionItems, h.points, h.color.channels_eq]

theorem flatMap_functionItems_congr {fs gs : List SampledFunction}
    (h : List.Forall₂ SampledFunction.Alike fs gs) (n : Nat) :
    ((fs.zipIdx n).flatMap fun (f, index) => functionItems index f) =
      (gs.zipIdx n).flatMap fun (f, index) => functionItems index f := by
  induction h generalizing n with
  | nil => rfl
  | cons hhead _ ih =>
      simp only [List.zipIdx_cons, List.flatMap_cons, functionItems_congr hhead, ih]

/-- The graphs of functions that are alike. -/
theorem graphItems_congr {fs gs : List SampledFunction}
    (h : List.Forall₂ SampledFunction.Alike fs gs) : graphItems fs = graphItems gs := by
  rw [graphItems, graphItems, flatMap_functionItems_congr h]
  cases h <;> rfl

end Program

namespace Scene

/-- Functions that are alike are both sampled, to the same points, or both
refused. -/
theorem rel_sampled? (v : Viewport) {f g : PlotFunction} (h : f.Alike g) :
    Option.Rel SampledFunction.Alike (sampled? v f) (sampled? v g) := by
  rw [sampled?_eq, sampled?_eq, Equation.toOption_classify_eq h.expression]
  cases (Equation.classify g.expression).toOption with
  | none => exact .none
  | some e => exact .some ⟨h.color, rfl⟩

/-- Functions that are alike are counted alike. -/
theorem forall₂_plotted {s t : Scene} (h : s.Alike t) :
    List.Forall₂ SampledFunction.Alike (plotted s.viewport s.functions)
      (plotted t.viewport t.functions) := by
  have hsampled : List.Forall₂ SampledFunction.Alike
      (s.visibleFunctions.filterMap (sampled? t.viewport))
      (t.visibleFunctions.filterMap (sampled? t.viewport)) :=
    List.rel_filterMap (fun _ _ hfg => rel_sampled? t.viewport hfg) h.functions
  unfold plotted
  rw [h.viewport]
  split
  · refine List.rel_filter (fun f g hfg => ?_) hsampled
    have hsample : f.hasSample = g.hasSample := by
      rw [SampledFunction.hasSample, SampledFunction.hasSample, hfg.points]
    simp [hsample]
  · exact .nil

/-- **Equal programs**: scenes that are alike have the same program.  It does
not depend on ids, be they distinct or not, nor on hidden functions, nor on how
colors and equations are spelled. -/
theorem program_eq_of_alike {s t : Scene} (h : s.Alike t) :
    s.recompute.program = t.recompute.program := by
  rw [program_recompute, program_recompute, graphs, graphs, Program.sections_congr h.shapes,
    Program.graphItems_congr (forall₂_plotted h)]

/-- A red point and a parabola. -/
def plainSpelling : Scene where
  shapes := [⟨.figure .point [⟨600, 350⟩], ⟨"#FF0000", "#FFFFFF", 2, false⟩⟩]
  functions := [⟨⟨1⟩, "y = x^2", "#00AA00", true⟩]
  viewport := .default

/-- The same with other spellings, and a hidden function of the same id before
the parabola. -/
def otherSpelling : Scene where
  shapes := [⟨.figure .point [⟨600, 350⟩], ⟨"ff0000", "ffffff", 2, false⟩⟩]
  functions := [⟨⟨7⟩, "sin(", "", false⟩, ⟨⟨7⟩, "y=x ** 2.0", "00aa00", true⟩]
  viewport := .default

/-- Two scenes that differ in every way that is not seen. -/
theorem program_plainSpelling :
    plainSpelling.Alike otherSpelling ∧
      plainSpelling.recompute.program = otherSpelling.recompute.program := by
  have hcolor : ∀ {a b : String}, Color.ofText a = Color.ofText b → SameColor a b :=
    fun h => congrArg Color.channels h
  have hshapes : List.Forall₂ Shape.Alike plainSpelling.shapes otherSpelling.shapes :=
    .cons ⟨rfl, rfl, rfl, hcolor (by decide), hcolor (by decide)⟩ .nil
  have hfunctions :
      List.Forall₂ PlotFunction.Alike plainSpelling.visibleFunctions
        otherSpelling.visibleFunctions :=
    .cons ⟨hcolor (by decide), by decide +kernel⟩ .nil
  have halike : plainSpelling.Alike otherSpelling := ⟨rfl, hshapes, hfunctions⟩
  exact ⟨halike, program_eq_of_alike halike⟩

end Scene

end GlutSketch
