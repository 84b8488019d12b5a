import GlutSketch.Plot.Sampling
import GlutSketch.Proofs.Plot.Segments

/-!
# GlutSketch.Proofs.Plot.Samples

What is left of an equation after sampling.  `Viewport.series` has one entry for
every place at which the equation is sampled, with a gap where the sample is not
kept; dropping gaps that say nothing new does not change the segments.

* `splitSegments_collapseGaps` -- a series without idle gaps has the same
  segments.
* `drawableSegments_eq_nil_iff` -- nothing can be drawn without two items in a
  row.
* `Viewport.splitSegments_sampleEquation`,
  `Viewport.drawableSegments_sampleEquation` -- the samples of an equation.
-/

namespace GlutSketch

/-! ## Gaps -/

section Gaps

variable {α : Type}

/-- Two items stand next to each other. -/
def HasNeighbours (series : List (Option α)) : Prop :=
  ∃ pair ∈ series.zip series.tail, pair.1.isSome ∧ pair.2.isSome

instance (series : List (Option α)) : Decidable (HasNeighbours series) :=
  inferInstanceAs (Decidable (∃ pair ∈ series.zip series.tail, pair.1.isSome ∧ pair.2.isSome))

@[simp] theorem hasNeighbours_nil : ¬ HasNeighbours ([] : List (Option α)) := by
  simp [HasNeighbours]

@[simp] theorem hasNeighbours_singleton (item : Option α) : ¬ HasNeighbours [item] := by
  simp [HasNeighbours]

@[simp] theorem hasNeighbours_none_cons (series : List (Option α)) :
    HasNeighbours (none :: series) ↔ HasNeighbours series := by
  cases series <;> simp [HasNeighbours]

@[simp] theorem hasNeighbours_some_none_cons (a : α) (series : List (Option α)) :
    HasNeighbours (some a :: none :: series) ↔ HasNeighbours series := by
  have hgap := hasNeighbours_none_cons series
  simpa [HasNeighbours] using hgap

@[simp] theorem hasNeighbours_some_some_cons (a b : α) (series : List (Option α)) :
    HasNeighbours (some a :: some b :: series) := by
  simp [HasNeighbours]

/-- The first item is never dropped. -/
theorem collapseGaps_some_cons (a : α) (series : List (Option α)) :
    ∃ rest, collapseGaps (some a :: series) = some a :: rest := by
  cases series with
  | nil => exact ⟨[], rfl⟩
  | cons item series =>
      cases item with
      | none => exact ⟨none :: collapseGaps series, rfl⟩
      | some b => exact ⟨collapseGaps (some b :: series), rfl⟩

/-- Gaps at the beginning and gaps after gaps separate nothing. -/
theorem splitSegments_collapseGaps (series : List (Option α)) :
    splitSegments (collapseGaps series) = splitSegments series := by
  induction series using collapseGaps.induct with
  | case1 => rfl
  | case2 series ih => simpa [collapseGaps, splitSegments] using ih
  | case3 a series ih => simp [collapseGaps, splitSegments, ih]
  | case4 a series hgap ih =>
      cases series with
      | nil => rfl
      | cons item series =>
          cases item with
          | none => exact absurd rfl (hgap series)
          | some b =>
              obtain ⟨rest, hrest⟩ := collapseGaps_some_cons b series
              rw [hrest] at ih
              rw [collapseGaps, hrest, splitSegments, ih, splitSegments]
              exact hgap

/-- There is a segment as soon as there is an item. -/
theorem splitSegments_eq_nil_iff {series : List (Option α)} :
    splitSegments series = [] ↔ ∀ item ∈ series, item = none := by
  induction series with
  | nil => simp [splitSegments]
  | cons item series ih =>
      cases item with
      | none => simp [splitSegments, ih]
      | some a =>
          obtain ⟨run, runs, h⟩ := splitSegments_some_cons a series
          simp [h]

/-- **Nothing to draw**: nothing can be drawn exactly if no two items stand next
to each other. -/
theorem drawableSegments_eq_nil_iff {series : List (Option α)} :
    drawableSegments series = [] ↔ ¬ HasNeighbours series := by
  unfold drawableSegments
  induction series using splitSegments.induct with
  | case1 => simp [splitSegments]
  | case2 series ih => simpa [splitSegments] using ih
  | case3 a => simp [splitSegments]
  | case4 a series ih => simpa [splitSegments] using ih
  | case5 a b series ih =>
      obtain ⟨run, runs, h⟩ := splitSegments_some_cons b series
      simp [splitSegments, h, extendFirst]

end Gaps

/-! ## Samples -/

namespace Viewport

variable {v : Viewport}

/-- The samples of an equation at every place where it is sampled, with a gap
for each that is not kept. -/
def series (v : Viewport) : Equation Equation.Formula → List (Option Point)
  | .vertical x => v.sampleVertical x
  | .function body => v.arguments.map (v.sample? body.eval)

/-- A vertical line has no gaps, and the idle gaps of a graph make no
difference. -/
theorem splitSegments_sampleEquation (v : Viewport) (e : Equation Equation.Formula) :
    splitSegments (v.sampleEquation e) = splitSegments (v.series e) := by
  cases e with
  | vertical x => rfl
  | function body => exact splitSegments_collapseGaps _

/-- What is drawn of an equation is what is drawn of its samples, gaps collapsed
or not. -/
theorem drawableSegments_sampleEquation (v : Viewport) (e : Equation Equation.Formula) :
    drawableSegments (v.sampleEquation e) = drawableSegments (v.series e) := by
  rw [drawableSegments, splitSegments_sampleEquation, drawableSegments]

end Viewport

/-- A function has a sample after all if one of its samples is kept. -/
theorem SampledFunction.hasSample_eq_false_iff {f : SampledFunction} :
    f.hasSample = false ↔ splitSegments f.points = [] := by
  simp [hasSample, splitSegments_eq_nil_iff]

end GlutSketch
