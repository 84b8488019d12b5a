import GlutSketch.Plot.Segments

/-!
# GlutSketch.Proofs.Plot.Segments

The segments of a series are the parts between its gaps that are not empty.

* `splitSegments_cons_of_gap`, `splitSegments_cons_of_item` -- what an item in
  front does to the segments.
* `splitSegments_some_cons` -- a series that begins with an item has a segment
  that begins with it.
* `splitSegments_eq` -- splitting at the gaps, with the empty parts left out.
* `drawableSegments_eq` -- the same for the segments of two items or more.
-/

namespace GlutSketch

variable {α : Type}

/-- An item in front of a gap is a segment of its own. -/
theorem splitSegments_cons_of_gap {a : α} {series : List (Option α)}
    (h : series.head?.join = none) :
    splitSegments (some a :: series) = [a] :: splitSegments series := by
  match series, h with
  | [], _ => rfl
  | none :: series, _ => simp [splitSegments]

/-- An item in front of an item belongs to the segment of that one. -/
theorem splitSegments_cons_of_item {a b : α} {series : List (Option α)}
    (h : series.head?.join = some b) :
    splitSegments (some a :: series) = extendFirst a (splitSegments series) := by
  match series, h with
  | some b :: series, _ => rw [splitSegments]

/-- Items after one another belong to one segment, which is never empty. -/
theorem splitSegments_some_cons (a : α) (series : List (Option α)) :
    ∃ run runs, splitSegments (some a :: series) = (a :: run) :: runs := by
  induction series generalizing a with
  | nil => exact ⟨[], [], rfl⟩
  | cons item series ih =>
      cases item with
      | none => exact ⟨[], splitSegments series, rfl⟩
      | some b =>
          obtain ⟨run, runs, h⟩ := ih b
          exact ⟨b :: run, runs, by rw [splitSegments, h, extendFirst]⟩

/-- The items between two gaps next to each other, for every pair of them. -/
def gapParts (series : List (Option α)) : List (List α) :=
  (series.splitOnP Option.isNone).map (·.filterMap id)

@[simp] theorem gapParts_nil : gapParts ([] : List (Option α)) = [[]] := by
  simp [gapParts]

@[simp] theorem gapParts_none_cons (series : List (Option α)) :
    gapParts (none :: series) = [] :: gapParts series := by
  simp [gapParts, List.splitOnP_cons_eq_if_modifyHead]

/-- There is always a first part, and an item goes in front of it. -/
theorem gapParts_some_cons (a : α) (series : List (Option α)) :
    gapParts (some a :: series) = extendFirst a (gapParts series) := by
  unfold gapParts
  rw [List.splitOnP_cons_eq_if_modifyHead]
  cases hparts : series.splitOnP Option.isNone with
  | nil => exact absurd hparts (List.splitOnP_ne_nil _ series)
  | cons part parts => simp [extendFirst]

/-- The segments are the parts that are not empty. -/
theorem splitSegments_eq (series : List (Option α)) :
    splitSegments series = (gapParts series).filter (!·.isEmpty) := by
  induction series using splitSegments.induct with
  | case1 => simp [splitSegments]
  | case2 series ih => simp [splitSegments, ih]
  | case3 a => simp [splitSegments, gapParts_some_cons, extendFirst]
  | case4 a series ih => simp [splitSegments, gapParts_some_cons, extendFirst, ih]
  | case5 a b series ih =>
      rw [splitSegments, ih, gapParts_some_cons a]
      have hfirst := gapParts_some_cons b series
      cases hparts : gapParts series with
      | nil => simp [hfirst, hparts, extendFirst]
      | cons part parts => simp [hfirst, hparts, extendFirst]

/-- The segments that can be drawn are the parts of two items or more. -/
theorem drawableSegments_eq (series : List (Option α)) :
    drawableSegments series = (gapParts series).filter (2 ≤ ·.length) := by
  unfold drawableSegments
  rw [splitSegments_eq, List.filter_filter]
  refine List.filter_congr fun part _ => ?_
  cases part with
  | nil => rfl
  | cons a part => simp

end GlutSketch
