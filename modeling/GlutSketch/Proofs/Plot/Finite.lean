import GlutSketch.Plot.Sampling
import GlutSketch.Proofs.Drawing.Finite
import GlutSketch.Proofs.Plot.Splitting

/-!
# GlutSketch.Proofs.Plot.Finite

Which equations are plotted with finite numbers.  The samples of a graph are
checked before they are kept, so that their height is finite; their place from
left to right is not checked, and neither is a vertical line.

* `Viewport.isFinite_y_of_sampleCurve` -- the height of a sample that is kept.
* `Viewport.PlotsFinite` -- nothing that is drawn for an equation overflows.
* `Viewport.isFinite_runs_iff` -- the vertices of an equation.
-/

namespace GlutSketch

open Real64

/-! ## Runs of a series -/

section Runs

variable {α : Type} {a : α} {series : List (Option α)}

/-- Only gaps are dropped. -/
theorem mem_of_mem_collapseGaps (h : some a ∈ collapseGaps series) : some a ∈ series := by
  induction series using collapseGaps.induct with
  | case1 => cases h
  | case2 series ih =>
      rw [collapseGaps] at h
      exact List.mem_cons_of_mem _ (ih h)
  | case3 b series ih =>
      simp only [collapseGaps, List.mem_cons, Option.some.injEq, reduceCtorEq, false_or] at h ⊢
      exact h.imp_right ih
  | case4 b series hne ih =>
      rw [collapseGaps] at h
      · simp only [List.mem_cons, Option.some.injEq] at h ⊢
        exact h.imp_right ih
      · exact hne

/-- What is drawn is an item of the series. -/
theorem mem_of_mem_drawableSegments {run : List α} (hrun : run ∈ drawableSegments series)
    (ha : a ∈ run) : some a ∈ series := by
  have hitem : a ∈ (splitSegments series).flatten :=
    List.mem_flatten.2 ⟨run, (List.mem_filter.1 hrun).1, ha⟩
  rw [flatten_splitSegments, List.mem_filterMap] at hitem
  obtain ⟨item, hmem, hsome⟩ := hitem
  exact hsome ▸ hmem

end Runs

/-! ## Samples -/

namespace Viewport

variable {v : Viewport}

/-- A sample that is kept lies near the surface, so its height is finite. -/
theorem isFinite_y_of_sampleCurve {f : Float → Float} {p : Point}
    (h : some p ∈ v.sampleCurve f) : p.y.isFinite := by
  have hlow : (-sampleMargin).isFinite := by decide +kernel
  have hhigh : (Extent.plotting.height + sampleMargin).isFinite := by decide +kernel
  obtain ⟨x, -, hx⟩ := List.mem_map.1 (mem_of_mem_collapseGaps h)
  simp only [sample?] at hx
  split at hx
  · rename_i hshown
    cases hx
    exact isFinite_of_between hlow hhigh hshown.2.1 hshown.2.2
  · cases hx

/-- Nothing that is drawn for an equation overflows: no point of a vertical
line, and no point of a graph from left to right. -/
def PlotsFinite (v : Viewport) : Equation Equation.Formula → Prop
  | .vertical x => ∀ p, some p ∈ v.sampleVertical x → p.IsFinite
  | .function body => ∀ run ∈ drawableSegments (v.sampleCurve body.eval), ∀ p ∈ run, p.x.isFinite

/-- A vertical line is drawn as a whole. -/
theorem drawableSegments_sampleVertical (x : Float) :
    ∃ points, v.sampleVertical x = points.map some ∧
      drawableSegments (v.sampleVertical x) = [points] := by
  let points := (List.range (verticalSteps + 1)).map fun i =>
    v.toSurface x (v.yMin + Float.ofNat i * (v.height / Float.ofNat verticalSteps))
  have hpoints : v.sampleVertical x = points.map some := (List.map_map).symm
  have hlength : 2 ≤ points.length := by
    rw [List.length_map, List.length_range]
    decide
  refine ⟨points, hpoints, ?_⟩
  rw [drawableSegments, hpoints, splitSegments_map_some (List.ne_nil_of_length_pos (by omega))]
  exact List.filter_eq_self.2 (by simpa using hlength)

/-- The vertices of an equation are finite exactly if nothing that is drawn
overflows. -/
theorem isFinite_runs_iff {e : Equation Equation.Formula} :
    (∀ run ∈ drawableSegments (v.sampleEquation e), ∀ p ∈ run,
      (p.normalize .plotting).IsFinite) ↔ v.PlotsFinite e := by
  have hwidth : TwoPowLe 9 Extent.plotting.width := by decide +kernel
  have hheight : TwoPowLe 9 Extent.plotting.height := by decide +kernel
  simp only [Point.isFinite_normalize_iff hwidth hheight]
  cases e with
  | vertical x =>
      obtain ⟨points, hpoints, hruns⟩ := @drawableSegments_sampleVertical v x
      simp only [sampleEquation, PlotsFinite, hruns, List.forall_mem_singleton]
      simp [hpoints]
  | function body =>
      simp only [sampleEquation, PlotsFinite]
      constructor
      · intro h run hrun p hp
        exact (h run hrun p hp).1
      · intro h run hrun p hp
        have hsample := mem_of_mem_drawableSegments hrun hp
        exact ⟨h run hrun p hp, isFinite_y_of_sampleCurve hsample⟩

/-! ## Windows of moderate size -/

/-- The edges of a window are not huge, and the window is not tiny. -/
structure IsModerate (v : Viewport) : Prop where
  edges : UlpLe 100 v.xMin ∧ UlpLe 100 v.xMax ∧ UlpLe 100 v.yMin ∧ UlpLe 100 v.yMax
  width : TwoPowLe (-100) v.width
  height : TwoPowLe (-100) v.height

instance (v : Viewport) : Decidable v.IsModerate :=
  decidable_of_iff ((UlpLe 100 v.xMin ∧ UlpLe 100 v.xMax ∧ UlpLe 100 v.yMin ∧ UlpLe 100 v.yMax) ∧
    TwoPowLe (-100) v.width ∧ TwoPowLe (-100) v.height)
    ⟨fun h => ⟨h.1, h.2.1, h.2.2⟩, fun h => ⟨h.edges, h.width, h.height⟩⟩

/-- A step on the way across a window. -/
theorem ulpLe_stepped {low high count : Float} {i : Nat} (hlow : UlpLe 100 low)
    (hhigh : UlpLe 100 high) (hcount : TwoPowLe 6 count) (hi : i ≤ 800) :
    UlpLe 200 (low + Float.ofNat i * ((high - low) / count)) := by
  have hspan : UlpLe 102 (high - low) := hhigh.sub hlow (by decide) (by decide) (by decide)
  have hstep : UlpLe 102 ((high - low) / count) :=
    hspan.div hcount (by decide) (by decide) (by decide)
  have hlog : i.log2 ≤ 9 := Unpacked.log2_le_of_lt (Nat.lt_of_le_of_lt hi (by decide))
  have hproduct : UlpLe 180 (Float.ofNat i * ((high - low) / count)) :=
    (ulpLe_ofNat hlog (by decide)).mul hstep (by decide) (by decide) (by decide)
  exact (hlow.mono (by decide)).add hproduct (by decide) (by decide) (by decide)

/-- A coordinate of the surface, as a fraction of a side that is not tiny. -/
theorem isFinite_scaled {a b span size : Float} (ha : UlpLe 200 a) (hb : UlpLe 200 b)
    (hspan : TwoPowLe (-100) span) (hsize : UlpLe 100 size) :
    ((a - b) / span * size).isFinite := by
  have hdifference : UlpLe 202 (a - b) := ha.sub hb (by decide) (by decide) (by decide)
  have hfraction : UlpLe 303 ((a - b) / span) :=
    hdifference.div hspan (by decide) (by decide) (by decide)
  have hproduct : UlpLe 500 ((a - b) / span * size) :=
    hfraction.mul hsize (by decide) (by decide) (by decide)
  exact hproduct.isFinite

section Moderate

variable (h : v.IsModerate)
include h

/-- In a window of moderate size no graph overflows, whatever its function
is. -/
theorem IsModerate.plotsFinite_function (body : Equation.Formula) :
    v.PlotsFinite (.function body) := by
  intro run hrun p hp
  have hcount : TwoPowLe 6 (Float.ofNat sampleSteps) := by decide +kernel
  have hsize : UlpLe 100 Extent.plotting.width := by decide +kernel
  have hsample := mem_of_mem_drawableSegments hrun hp
  obtain ⟨x, hx, hp⟩ := List.mem_map.1 (mem_of_mem_collapseGaps hsample)
  obtain ⟨i, hi, rfl⟩ := List.mem_map.1 hx
  have hi : i ≤ 800 := Nat.lt_succ_iff.1 (List.mem_range.1 hi)
  have hargument := ulpLe_stepped h.edges.1 h.edges.2.1 hcount hi
  simp only [sample?] at hp
  split at hp
  · cases hp
    exact isFinite_scaled hargument (h.edges.1.mono (by decide)) h.width hsize
  · cases hp

/-- Neither does a vertical line at a place that is not huge. -/
theorem IsModerate.plotsFinite_vertical {x : Float} (hx : UlpLe 100 x) :
    v.PlotsFinite (.vertical x) := by
  intro p hp
  have hcount : TwoPowLe 6 (Float.ofNat verticalSteps) := by decide +kernel
  have hwidth : UlpLe 100 Extent.plotting.width := by decide +kernel
  have hheight : UlpLe 100 Extent.plotting.height := by decide +kernel
  obtain ⟨i, hi, hp⟩ := List.mem_map.1 hp
  cases hp
  have hi : i ≤ 100 := Nat.lt_succ_iff.1 (List.mem_range.1 hi)
  have hplace := ulpLe_stepped h.edges.2.2.1 h.edges.2.2.2 hcount (Nat.le_trans hi (by decide))
  exact ⟨isFinite_scaled (hx.mono (by decide)) (h.edges.1.mono (by decide)) h.width hwidth,
    isFinite_scaled (h.edges.2.2.2.mono (by decide)) hplace h.height hheight⟩

end Moderate

end Viewport

end GlutSketch
