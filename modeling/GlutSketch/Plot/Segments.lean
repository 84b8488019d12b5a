/-!
# GlutSketch.Plot.Segments

Series with gaps.  A series is a list in which `none` is a gap; its segments are
the runs of items without a gap between them.  `collapseGaps` removes the gaps
that say nothing new: those at the beginning, and all but the first of several
in a row.
-/

namespace GlutSketch

variable {α : Type}

/-- Puts an item before the first segment. -/
def extendFirst (a : α) : List (List α) → List (List α)
  | [] => [[a]]
  | s :: rest => (a :: s) :: rest

/-- The runs of items between the gaps. -/
def splitSegments : List (Option α) → List (List α)
  | [] => []
  | none :: rest => splitSegments rest
  | [some a] => [[a]]
  | some a :: none :: rest => [a] :: splitSegments rest
  | some a :: some b :: rest => extendFirst a (splitSegments (some b :: rest))

/-- The runs that can be drawn as a line: those of two items or more. -/
def drawableSegments (series : List (Option α)) : List (List α) :=
  (splitSegments series).filter fun s => 2 ≤ s.length

/-- Drops the gaps at the beginning and those that follow another gap. -/
def collapseGaps : List (Option α) → List (Option α)
  | [] => []
  | none :: rest => collapseGaps rest
  | some a :: none :: rest => some a :: none :: collapseGaps rest
  | some a :: rest => some a :: collapseGaps rest

end GlutSketch
