import GlutSketch.Proofs.Plot.Finite
import GlutSketch.Proofs.Program.Finite
import GlutSketch.Proofs.Result
import GlutSketch.Proofs.Scene.Loaded
import GlutSketch.Proofs.Scene.RoundTrip
import GlutSketch.Scene.Recompute

/-!
# GlutSketch.Proofs.Scene.Finite

When the program of a loaded scene has finite numbers only.  It does unless one
of the numbers that are computed and not checked overflows: a rim, a Bezier
curve, the size of a point, a point of a vertical line, or the place of a graph
from left to right.

* `Scene.DrawsFinite` -- none of them does.
* `Scene.hasFiniteNumbers_recompute_iff` -- the program of a loaded scene.
-/

namespace GlutSketch

/-! ## The passes of a body -/

namespace Program

/-- The passes among the items of a shape are those that draw it. -/
theorem pass_mem_shapeItems {index : Nat} {s : Shape} {p : Pass} :
    Item.pass p ∈ shapeItems index s ↔ ∃ t, s.tessellate = .ok t ∧ p ∈ t.passes := by
  unfold shapeItems Tessellation.passes
  cases s.tessellate with
  | error e => simp
  | ok t => simp [List.mem_flatMap]

/-- The passes of a function are its drawable runs. -/
theorem pass_mem_functionItems {index : Nat} {f : SampledFunction} {p : Pass} :
    Item.pass p ∈ functionItems index f ↔
      ∃ run ∈ drawableSegments f.points, p = graphPass (Color.ofText f.color).channels run := by
  simp [functionItems, List.mem_flatMap]

/-- Numbered entries have the items of each of them, whatever their numbers
are. -/
theorem mem_zipIdx_flatMap {α : Type} {items : Nat → α → List Item} {P : α → Prop} {item : Item}
    (h : ∀ index a, item ∈ items index a ↔ P a) (entries : List α) (n : Nat) :
    item ∈ (entries.zipIdx n).flatMap (fun (a, index) => items index a) ↔ ∃ a ∈ entries, P a := by
  induction entries generalizing n with
  | nil => simp
  | cons a entries ih =>
      rw [List.zipIdx_cons, List.flatMap_cons, List.mem_append, ih, h]
      simp

/-- A run has points, so a function with a run has a sample. -/
theorem hasSample_of_mem_drawableSegments {f : SampledFunction} {run : List Point}
    (h : run ∈ drawableSegments f.points) : f.hasSample := by
  have hlength := (List.mem_filter.1 h).2
  cases run with
  | nil => simp at hlength
  | cons p run =>
      have hp := mem_of_mem_drawableSegments h List.mem_cons_self
      exact List.any_eq_true.2 ⟨some p, hp, rfl⟩

theorem pass_mem_graphItems {plotted : List SampledFunction} {p : Pass} :
    Item.pass p ∈ graphItems plotted ↔ ∃ f ∈ plotted, ∃ run ∈ drawableSegments f.points,
      p = graphPass (Color.ofText f.color).channels run := by
  unfold graphItems
  cases plotted with
  | nil => simp
  | cons f plotted =>
      have hitems := @mem_zipIdx_flatMap _ functionItems _ (.pass p)
        (fun _ _ => pass_mem_functionItems) (f :: plotted) 0
      rw [if_neg (by simp), List.mem_cons, or_iff_right (by simp)]
      exact hitems

/-- The passes of a body are those of its shapes and one for each run of its
functions. -/
theorem pass_mem_body {shapes : List Shape} {sampled : List SampledFunction} {p : Pass} :
    Item.pass p ∈ (synthesize shapes sampled).body ↔
      (∃ s ∈ shapes, ∃ t, s.tessellate = .ok t ∧ p ∈ t.passes) ∨
        ∃ f ∈ sampled, ∃ run ∈ drawableSegments f.points,
          p = graphPass (Color.ofText f.color).channels run := by
  have hshapes := @mem_zipIdx_flatMap _ shapeItems _ (.pass p)
    (fun _ _ => pass_mem_shapeItems) shapes 0
  unfold synthesize
  rw [List.mem_append, pass_mem_graphItems]
  refine or_congr hshapes ⟨?_, ?_⟩
  · rintro ⟨f, hf, hrun⟩
    exact ⟨f, (List.mem_filter.1 hf).1, hrun⟩
  · rintro ⟨f, hf, run, hrun, hp⟩
    exact ⟨f, List.mem_filter.2 ⟨hf, hasSample_of_mem_drawableSegments hrun⟩, run, hrun, hp⟩

/-- The color and the width of a graph are finite. -/
theorem isFinite_graphPass_iff {color : Color} {run : List Point} :
    (graphPass color.channels run).IsFinite ↔ ∀ p ∈ run, (p.normalize .plotting).IsFinite := by
  have hwidth : graphLineWidth.isFinite := by decide +kernel
  constructor
  · intro h
    exact List.forall_mem_map.1 h.vertices
  · intro hrun
    refine ⟨⟨Color.isFinite_channel _, Color.isFinite_channel _, Color.isFinite_channel _⟩, ?_,
      List.forall_mem_map.2 hrun⟩
    intro pen hpen
    cases hpen
    exact hwidth

end Program

/-! ## Scenes -/

/-- The points of a shape are among its numbers. -/
theorem Shape.isFinite_points {s : Shape} (h : ∀ x ∈ s.numbers, x.isFinite) :
    ∀ p ∈ s.geometry.points, p.IsFinite := by
  have hpoints : ∀ x ∈ s.geometry.points.flatMap Point.numbers, x.isFinite := by
    intro x hx
    refine h x (List.mem_append_left _ ?_)
    obtain ⟨geometry, style⟩ := s
    cases geometry with
    | figure f points => exact hx
    | arc points startAngle endAngle => exact List.mem_append_left _ hx
  intro p hp
  have hcoordinates : ∀ x ∈ p.numbers, x.isFinite := fun x hx =>
    hpoints x (List.mem_flatMap.2 ⟨p, hp, hx⟩)
  exact ⟨hcoordinates _ List.mem_cons_self, hcoordinates _ (by simp [Point.numbers])⟩

namespace Scene

/-- The functions that are drawn are the visible ones with an equation, in a
valid window. -/
theorem mem_sampleAll {s : Scene} {sampled : SampledFunction} :
    sampled ∈ s.sampleAll.functions ↔ s.viewport.IsValid ∧ ∃ f ∈ s.visibleFunctions, ∃ e,
      Equation.classify f.expression = .ok e ∧
        sampled = ⟨f.id, f.color, s.viewport.sampleEquation e⟩ := by
  unfold sampleAll
  split
  · rename_i hvalid
    rw [and_iff_right hvalid, List.mem_filterMap]
    refine exists_congr fun f => and_congr_right fun _ => ?_
    unfold sampled? PlotFunction.sample
    cases Equation.classify f.expression with
    | error e => simp [Except.map, Except.toOption]
    | ok e => simp [Except.map, Except.toOption, eq_comm]
  · rename_i hvalid
    simp [hvalid]

/-- Nothing that is computed and drawn for a scene overflows. -/
structure DrawsFinite (s : Scene) : Prop where
  shapes : ∀ shape ∈ s.shapes, shape.DrawsFinite
  functions : s.viewport.IsValid → ∀ f ∈ s.visibleFunctions, ∀ e,
    Equation.classify f.expression = .ok e → s.viewport.PlotsFinite e

/-- The passes of the body of a scene with finite numbers. -/
theorem isFinite_passes_iff {s : Scene} (hfinite : ∀ x ∈ s.numbers, x.isFinite) :
    (∀ p, Program.Item.pass p ∈ s.recompute.body → p.IsFinite) ↔ s.DrawsFinite := by
  have hshape : ∀ shape ∈ s.shapes,
      ((∀ t, shape.tessellate = .ok t → ∀ p ∈ t.passes, p.IsFinite) ↔ shape.DrawsFinite) := by
    intro shape hmem
    have hnumbers : ∀ x ∈ shape.numbers, x.isFinite := fun x hx =>
      hfinite x (List.mem_append_left _ (List.mem_flatMap.2 ⟨shape, hmem, hx⟩))
    exact Shape.isFinite_passes_iff (shape.isFinite_points hnumbers)
      (hnumbers _ (by simp [Shape.numbers, Style.numbers]))
  have hbody : s.recompute.body = (synthesize s.shapes s.sampleAll.functions).body := rfl
  simp only [hbody, Program.pass_mem_body]
  constructor
  · intro h
    refine ⟨?_, ?_⟩
    · intro shape hmem
      exact (hshape shape hmem).1 fun t ht p hp => h p (.inl ⟨shape, hmem, t, ht, hp⟩)
    · intro hvalid f hf e he
      refine Viewport.isFinite_runs_iff.1 fun run hrun => ?_
      have hsampled := mem_sampleAll.2 ⟨hvalid, f, hf, e, he, rfl⟩
      exact Program.isFinite_graphPass_iff.1 (h _ (.inr ⟨_, hsampled, run, hrun, rfl⟩))
  · rintro h p (⟨shape, hmem, t, ht, hp⟩ | ⟨sampled, hsampled, run, hrun, rfl⟩)
    · exact (hshape shape hmem).2 (h.shapes shape hmem) t ht p hp
    · obtain ⟨hvalid, f, hf, e, he, rfl⟩ := mem_sampleAll.1 hsampled
      have hruns := Viewport.isFinite_runs_iff.2 (h.functions hvalid f hf e he)
      exact Program.isFinite_graphPass_iff.2 (hruns run hrun)

/-- The program of a scene with finite numbers. -/
theorem hasFiniteNumbers_iff {s : Scene} (hfinite : ∀ x ∈ s.numbers, x.isFinite) :
    Program.HasFiniteNumbers s.recompute.program ↔ s.DrawsFinite := by
  rw [← isFinite_passes_iff hfinite]
  exact Program.hasFiniteNumbers_iff (Program.onLines_body s.shapes s.sampleAll.functions)

/-- **Finite programs**: the program of a scene that was loaded has finite
numbers only, each spelled as a literal, exactly if nothing that is computed and
drawn overflows. -/
theorem hasFiniteNumbers_recompute_iff {text : String} {s : Scene} (h : load? text = some s) :
    Program.HasFiniteNumbers s.recompute.program ↔ s.DrawsFinite :=
  hasFiniteNumbers_iff (isFinite_of_load? h)

/-- A triangle and a point below other shapes, and the functions of the starter
scene. -/
def sketch (shapes : List Shape) : Scene :=
  { starter .default with
    shapes := ⟨.figure .triangle [⟨0, 0⟩, ⟨1200, 0⟩, ⟨600, 700⟩], .default⟩ ::
      ⟨.figure .point [⟨600, 350⟩], .default⟩ :: shapes }

/-- A circle around the middle of the surface. -/
def circle : Shape := ⟨.figure .circle [⟨600, 350⟩, ⟨750, 350⟩], .default⟩

/-- The triangle, the point and the functions of the starter scene do not
overflow. -/
theorem drawsFinite_sketch_iff (shapes : List Shape) :
    (sketch shapes).DrawsFinite ↔ ∀ shape ∈ shapes, shape.DrawsFinite := by
  have hmoderate : Viewport.default.IsModerate := by decide +kernel
  have hcorners : ∀ p ∈ ([⟨0, 0⟩, ⟨1200, 0⟩, ⟨600, 700⟩] : List Point),
      p.x.isFinite ∧ p.y.isFinite := by
    decide +kernel
  have hsize : (Real64.maximum (Style.default.strokeWidth * 2) minPointSize).isFinite := by
    decide +kernel
  have hlines : ∀ f ∈ (starter .default).functions,
      (match Equation.classify f.expression with
      | .ok (.vertical x) => decide (Real64.UlpLe 100 x)
      | _ => true) = true := by
    decide +kernel
  constructor
  · intro h shape hshape
    exact h.shapes shape (List.mem_cons_of_mem _ (List.mem_cons_of_mem _ hshape))
  · refine fun h => ⟨?_, fun _ f hf e he => ?_⟩
    · refine List.forall_mem_cons.2 ⟨Shape.drawsFinite_of_points hcorners (by decide), ?_⟩
      refine List.forall_mem_cons.2 ⟨fun o ho => ?_, h⟩
      cases ho
      exact hsize
    · cases e with
      | function body => exact hmoderate.plotsFinite_function body
      | vertical x =>
          have hplace := hlines f (List.mem_filter.1 hf).1
          rw [he] at hplace
          exact hmoderate.plotsFinite_vertical (of_decide_eq_true hplace)

/-- With a circle it depends on its rim alone, for which sines and cosines are
computed. -/
theorem drawsFinite_circle_iff :
    circle.DrawsFinite ↔ ∀ v ∈ ellipseRim ⟨0, 0⟩ 0.25 0.25, v.IsFinite := by
  have hcenter : Point.toNdc ⟨600, 350⟩ = ⟨0, 0⟩ := by decide +kernel
  have hradius : normalizedRadius ⟨600, 350⟩ ⟨750, 350⟩ = 0.25 := by decide +kernel
  have hstroke : 0 < Style.default.strokeWidth := by decide +kernel
  have houtline : circle.geometry.outline? =
      some (.sector ⟨0, 0⟩ .lineLoop (ellipseRim ⟨0, 0⟩ 0.25 0.25)) := by
    rw [← hcenter, ← hradius]
    rfl
  constructor
  · intro h
    exact h _ houtline (.inr hstroke)
  · intro h o ho
    rw [houtline] at ho
    cases ho
    exact fun _ => h

/-- A scene without rims has finite numbers.  With a circle it depends on the
circle's rim, for which sines and cosines are computed. -/
theorem hasFiniteNumbers_sketch :
    (load? (sketch []).save = some (sketch []) ∧
      Program.HasFiniteNumbers (sketch []).recompute.program) ∧
    load? (sketch [circle]).save = some (sketch [circle]) ∧
      (Program.HasFiniteNumbers (sketch [circle]).recompute.program ↔
        ∀ v ∈ ellipseRim ⟨0, 0⟩ 0.25 0.25, v.IsFinite) := by
  have hload : load? (sketch []).save = some (sketch []) :=
    load?_save_of_hasExactSpelling (by decide +kernel)
  have hload' : load? (sketch [circle]).save = some (sketch [circle]) :=
    load?_save_of_hasExactSpelling (by decide +kernel)
  refine ⟨⟨hload, (hasFiniteNumbers_recompute_iff hload).2 ?_⟩, hload',
    (hasFiniteNumbers_recompute_iff hload').trans ?_⟩
  · exact (drawsFinite_sketch_iff []).2 (by simp)
  · rw [drawsFinite_sketch_iff, List.forall_mem_singleton, drawsFinite_circle_iff]

/-- A scene with a vertical line whose number is beyond the range of doubles. -/
def farLine : Scene := ⟨[], [⟨⟨1⟩, "x = 1e999", "#FF0000", true⟩], .default⟩

/-- The equation is accepted, and its number is infinite. -/
theorem classify_farLine :
    Equation.classify "x = 1e999" = .ok (.vertical Real64.infinity) :=
  Except.toOption_eq_some_iff.1 (by decide +kernel)

/-- A vertical line at infinity plots a point that is not finite. -/
theorem not_plotsFinite_infinity : ¬Viewport.default.PlotsFinite (.vertical Real64.infinity) := by
  intro h
  have hx : ((Real64.infinity - Viewport.default.xMin) / Viewport.default.width *
      Extent.plotting.width).isFinite = false := by decide +kernel
  have hfirst := h _ (List.mem_map.2 ⟨0, by simp, rfl⟩)
  exact Bool.false_ne_true (hx.symm.trans hfirst.1)

/-- The line is drawn all the same, and its program has numbers that are no
literals. -/
theorem not_hasFiniteNumbers_farLine :
    load? farLine.save = some farLine ∧ ¬Program.HasFiniteNumbers farLine.recompute.program := by
  have hload : load? farLine.save = some farLine :=
    load?_save_of_hasExactSpelling (by decide +kernel)
  have hvalid : farLine.viewport.IsValid := by decide +kernel
  have hvisible : (⟨⟨1⟩, "x = 1e999", "#FF0000", true⟩ : PlotFunction) ∈
      farLine.visibleFunctions := by
    simp [visibleFunctions, farLine]
  refine ⟨hload, fun h => ?_⟩
  have hdraws := (hasFiniteNumbers_iff (isFinite_of_load? hload)).1 h
  exact not_plotsFinite_infinity (hdraws.functions hvalid _ hvisible _ classify_farLine)

end Scene

end GlutSketch
