import GlutSketch.Proofs.Plot.Segments

/-!
# GlutSketch.Proofs.Plot.Splitting

A series can be split in one pass: an item joins the segment that grows, a gap
finishes it.

* `Splitting.segments_foldl` -- the pass gives the segments of the series, from
  wherever it is resumed;
* `Splitting.isOf_read` -- on the way, no item is lost and no segment is empty;
* `segmentOf?_neighbours` -- neighbouring items are set apart by gaps, and by
  nothing else;
* `splitSegments_at_gap` -- what comes after a gap is split as if nothing had
  been before;
* `splitSegments_lossless_local` -- these laws, for every series.
-/

namespace GlutSketch

variable {α : Type} {front series : List (Option α)}

/-! ## The pass -/

/-- What has been made of the entries so far: the segments that are finished,
and the items of the one that still grows. -/
structure Splitting (α : Type) where
  finished : List (List α)
  pending : List α

namespace Splitting

/-- Before the first entry. -/
def start : Splitting α := ⟨[], []⟩

/-- The segments if no entry is left.  Without an item there is none to
finish. -/
def segments (s : Splitting α) : List (List α) :=
  if s.pending.isEmpty then s.finished else s.finished ++ [s.pending]

/-- An item joins the segment that grows, and a gap finishes it. -/
def step (s : Splitting α) : Option α → Splitting α
  | some a => ⟨s.finished, s.pending ++ [a]⟩
  | none => ⟨s.segments, []⟩

/-- All entries, one after the other. -/
def read (series : List (Option α)) : Splitting α := series.foldl step start

variable {s : Splitting α}

/-- A pending segment that is not empty is one of the segments. -/
theorem segments_of_pending (h : s.pending ≠ []) : s.segments = s.finished ++ [s.pending] :=
  if_neg (by simpa using h)

end Splitting

/-- Items in a row, up to a gap or to the end, are a segment. -/
theorem splitSegments_items_append {items : List α} (hitems : items ≠ [])
    (hgap : series.head?.join = none) :
    splitSegments (items.map some ++ series) = items :: splitSegments series := by
  induction items with
  | nil => exact absurd rfl hitems
  | cons a items ih =>
      cases items with
      | nil => exact splitSegments_cons_of_gap hgap
      | cons b items =>
          have hrest := ih (List.cons_ne_nil b items)
          rw [List.map_cons, List.cons_append, splitSegments_cons_of_item rfl, hrest]
          rfl

/-- A series without a gap is one segment. -/
theorem splitSegments_map_some {items : List α} (h : items ≠ []) :
    splitSegments (items.map some) = [items] := by
  have hitems := @splitSegments_items_append α [] items h rfl
  rwa [List.append_nil] at hitems

namespace Splitting

variable {s : Splitting α}

/-- A gap, or the end, makes a segment of the pending items. -/
theorem segments_append (s : Splitting α) (series : List (Option α))
    (hgap : series.head?.join = none) :
    s.segments ++ splitSegments series =
      s.finished ++ splitSegments (s.pending.map some ++ series) := by
  by_cases hpending : s.pending = []
  · simp [segments, hpending]
  · rw [segments_of_pending hpending, splitSegments_items_append hpending hgap, List.append_assoc]
    rfl

/-- Wherever the pass is resumed, it goes on as if the pending items were still
to come. -/
theorem segments_foldl (s : Splitting α) (series : List (Option α)) :
    (series.foldl step s).segments =
      s.finished ++ splitSegments (s.pending.map some ++ series) := by
  induction series generalizing s with
  | nil => simpa [splitSegments] using s.segments_append [] rfl
  | cons entry series ih =>
      rw [List.foldl_cons, ih]
      cases entry with
      | none => exact s.segments_append (none :: series) rfl
      | some a => simp [step]

/-- The pass splits a series at its gaps. -/
theorem segments_read (series : List (Option α)) : (read series).segments = splitSegments series :=
  segments_foldl start series

/-- What follows is read with the segment that `front` has left open. -/
theorem splitSegments_append (front series : List (Option α)) :
    splitSegments (front ++ series) = (series.foldl step (read front)).segments := by
  rw [← segments_read, read, List.foldl_append]
  rfl

/-- The items that are pending stay together, and more may join them. -/
theorem exists_segments_foldl (s : Splitting α) (hpending : s.pending ≠ [])
    (series : List (Option α)) :
    ∃ run runs, (series.foldl step s).segments = s.finished ++ (s.pending ++ run) :: runs := by
  induction series generalizing s with
  | nil => exact ⟨[], [], by simp [segments_of_pending hpending]⟩
  | cons entry series ih =>
      cases entry with
      | none =>
          refine ⟨[], splitSegments series, ?_⟩
          rw [List.foldl_cons, segments_foldl, step, segments_of_pending hpending]
          simp
      | some a =>
          obtain ⟨run, runs, hsegments⟩ := ih (s.step (some a)) (by simp [step])
          exact ⟨a :: run, runs, by simpa [step] using hsegments⟩

/-! ## No item is lost -/

/-- No item of the entries so far is lost, and no finished segment is empty. -/
structure IsOf (series : List (Option α)) (s : Splitting α) : Prop where
  nil_notMem : [] ∉ s.finished
  items : s.finished.flatten ++ s.pending = series.filterMap id

/-- No segment is empty. -/
theorem IsOf.nil_notMem_segments (h : IsOf series s) : [] ∉ s.segments := by
  by_cases hpending : s.pending = []
  · simpa [segments, hpending] using h.nil_notMem
  · simpa [segments_of_pending hpending, h.nil_notMem] using Ne.symm hpending

/-- No item is lost. -/
theorem IsOf.flatten_segments (h : IsOf series s) : s.segments.flatten = series.filterMap id := by
  by_cases hpending : s.pending = []
  · simpa [segments, hpending] using h.items
  · simpa [segments_of_pending hpending] using h.items

/-- **One entry**: the invariant is kept. -/
theorem IsOf.step (h : IsOf series s) (entry : Option α) :
    IsOf (series ++ [entry]) (s.step entry) := by
  cases entry with
  | none =>
      refine ⟨h.nil_notMem_segments, ?_⟩
      rw [List.filterMap_append, ← h.flatten_segments]
      rfl
  | some a =>
      refine ⟨h.nil_notMem, ?_⟩
      rw [List.filterMap_append, ← h.items, List.append_assoc]
      rfl

/-- **The whole series**: the invariant is kept entry by entry. -/
theorem IsOf.foldl (h : IsOf front s) (series : List (Option α)) :
    IsOf (front ++ series) (series.foldl Splitting.step s) := by
  induction series generalizing front s with
  | nil => simpa using h
  | cons entry series ih => simpa using ih (h.step entry)

theorem isOf_start : IsOf ([] : List (Option α)) start := ⟨List.not_mem_nil, rfl⟩

theorem isOf_read (series : List (Option α)) : IsOf series (read series) := isOf_start.foldl series

end Splitting

/-- Splitting gives no empty segment. -/
theorem nil_notMem_splitSegments (series : List (Option α)) : [] ∉ splitSegments series := by
  rw [← Splitting.segments_read]
  exact (Splitting.isOf_read series).nil_notMem_segments

/-- No item is lost or doubled. -/
theorem flatten_splitSegments (series : List (Option α)) :
    (splitSegments series).flatten = series.filterMap id := by
  rw [← Splitting.segments_read]
  exact (Splitting.isOf_read series).flatten_segments

/-! ## Gaps -/

/-- What comes after a gap is split as if nothing had been before. -/
theorem splitSegments_at_gap (front back : List (Option α)) :
    splitSegments (front ++ none :: back) = splitSegments front ++ splitSegments back := by
  rw [Splitting.splitSegments_append, List.foldl_cons, Splitting.segments_foldl,
    ← Splitting.segments_read front]
  rfl

/-- Gaps in front do not matter. -/
theorem splitSegments_gaps_append (gaps : Nat) (series : List (Option α)) :
    splitSegments (List.replicate gaps none ++ series) = splitSegments series := by
  induction gaps with
  | zero => rfl
  | succ gaps ih => exact ih

/-- Gaps at the end do not matter. -/
theorem splitSegments_append_gaps (series : List (Option α)) (gaps : Nat) :
    splitSegments (series ++ List.replicate gaps none) = splitSegments series := by
  cases gaps with
  | zero => simp
  | succ gaps =>
      have hgaps := splitSegments_gaps_append gaps ([] : List (Option α))
      rw [List.append_nil] at hgaps
      rw [List.replicate_succ, splitSegments_at_gap, hgaps]
      simp [splitSegments]

/-- Gaps in a row are as good as one. -/
theorem splitSegments_repeated_gap (front : List (Option α)) (gaps : Nat) (back : List (Option α)) :
    splitSegments (front ++ List.replicate (gaps + 1) none ++ back) =
      splitSegments (front ++ [none] ++ back) := by
  simp only [List.replicate_succ, List.append_assoc, List.cons_append, List.nil_append,
    splitSegments_at_gap, splitSegments_gaps_append]

/-! ## Neighbours -/

/-- A series in which two items are neighbours, with some gaps and nothing else
between them. -/
def neighbours (front : List (Option α)) (a : α) (gaps : Nat) (b : α) (back : List (Option α)) :
    List (Option α) :=
  front ++ some a :: (List.replicate gaps none ++ some b :: back)

/-- The number of the segment that has the item with a number, where items are
counted through all segments. -/
def segmentOf? : List (List α) → Nat → Option Nat
  | [], _ => none
  | segment :: segments, n =>
      if n < segment.length then some 0 else (segmentOf? segments (n - segment.length)).map (· + 1)

/-- An item is found in the segment in which it lies. -/
theorem segmentOf?_append_cons (front : List (List α)) {segment : List α} (back : List (List α))
    {n : Nat} (h : n < segment.length) :
    segmentOf? (front ++ segment :: back) (front.flatten.length + n) = some front.length := by
  induction front with
  | nil => simp [segmentOf?, h]
  | cons first front ih =>
      have hpast : ¬ first.length + front.flatten.length + n < first.length := by omega
      have hrest : first.length + front.flatten.length + n - first.length =
          front.flatten.length + n := by omega
      rw [List.flatten_cons, List.length_append, List.cons_append, segmentOf?, if_neg hpast,
        hrest, ih]
      rfl

/-- The neighbours have numbers next to each other. -/
theorem filterMap_neighbours (front : List (Option α)) (a : α) (gaps : Nat) (b : α)
    (back : List (Option α)) :
    (neighbours front a gaps b back).filterMap id =
      front.filterMap id ++ a :: b :: back.filterMap id := by
  have hgaps : (List.replicate gaps (none : Option α)).filterMap id = [] :=
    List.filterMap_replicate_of_none rfl
  rw [neighbours, List.filterMap_append, List.filterMap_cons, List.filterMap_append, hgaps]
  rfl

/-- Items without a gap between them stay in the segment that grows. -/
theorem exists_splitSegments_adjacent (front : List (Option α)) (a b : α) (back : List (Option α)) :
    ∃ run runs, splitSegments (neighbours front a 0 b back) =
      (Splitting.read front).finished ++
        ((Splitting.read front).pending ++ a :: b :: run) :: runs := by
  obtain ⟨run, runs, hsegments⟩ := Splitting.exists_segments_foldl
    (((Splitting.read front).step (some a)).step (some b)) (by simp [Splitting.step]) back
  refine ⟨run, runs, ?_⟩
  rw [neighbours, Splitting.splitSegments_append]
  simpa [Splitting.step] using hsegments

/-- A gap finishes the segment of the item in front of it, and the next item
begins one. -/
theorem exists_splitSegments_apart (front : List (Option α)) (a : α) (gaps : Nat) (b : α)
    (back : List (Option α)) :
    ∃ run runs, splitSegments (neighbours front a (gaps + 1) b back) =
      (Splitting.read front).finished ++
        ((Splitting.read front).pending ++ [a]) :: (b :: run) :: runs := by
  obtain ⟨run, runs, hsecond⟩ := splitSegments_some_cons b back
  have hfirst : splitSegments (front ++ [some a]) = (Splitting.read front).finished ++
      [(Splitting.read front).pending ++ [a]] := by
    rw [Splitting.splitSegments_append]
    exact Splitting.segments_of_pending (by simp [Splitting.step])
  refine ⟨run, runs, ?_⟩
  calc
    splitSegments (neighbours front a (gaps + 1) b back)
      = splitSegments
          (front ++ [some a] ++ none :: (List.replicate gaps none ++ some b :: back)) := by
        simp [neighbours, List.replicate_succ]
    _ = splitSegments (front ++ [some a]) ++ splitSegments (some b :: back) := by
        rw [splitSegments_at_gap, splitSegments_gaps_append]
    _ = _ := by
        rw [hfirst, hsecond, List.append_assoc]
        rfl

/-- A neighbour without a gap is in the same segment, and one behind a gap in
the next. -/
theorem segmentOf?_neighbours (front : List (Option α)) (a : α) (gaps : Nat) (b : α)
    (back : List (Option α)) :
    ∃ i, segmentOf? (splitSegments (neighbours front a gaps b back)) (front.filterMap id).length =
        some i ∧
      segmentOf? (splitSegments (neighbours front a gaps b back))
          ((front.filterMap id).length + 1) =
        some (i + min gaps 1) := by
  have hitems := (Splitting.isOf_read front).items
  have hcount : (front.filterMap id).length =
      (Splitting.read front).finished.flatten.length + (Splitting.read front).pending.length := by
    rw [← hitems, List.length_append]
  refine ⟨(Splitting.read front).finished.length, ?_⟩
  cases gaps with
  | zero =>
      obtain ⟨run, runs, hsegments⟩ := exists_splitSegments_adjacent front a b back
      rw [hsegments, hcount]
      refine ⟨segmentOf?_append_cons _ _ (by simp), ?_⟩
      rw [Nat.add_assoc]
      exact segmentOf?_append_cons _ _ (by simp)
  | succ gaps =>
      obtain ⟨run, runs, hsegments⟩ := exists_splitSegments_apart front a gaps b back
      rw [hsegments, hcount]
      refine ⟨segmentOf?_append_cons _ _ (by simp), ?_⟩
      have hsecond := @segmentOf?_append_cons α
        ((Splitting.read front).finished ++ [(Splitting.read front).pending ++ [a]]) (b :: run)
        runs 0 (by simp)
      simpa [Nat.add_assoc] using hsecond

/-! ## All of it -/

/-- **Splitting**: splitting a series at its gaps loses no item and makes no
empty segment.  Neighbours are in different segments exactly if there is a gap
between them, what is on one side of a gap is split without regard to the other,
and so gaps at the ends and gaps after gaps change nothing. -/
theorem splitSegments_lossless_local (α : Type) :
    (∀ series : List (Option α),
      [] ∉ splitSegments series ∧ (splitSegments series).flatten = series.filterMap id) ∧
    (∀ (front : List (Option α)) (a : α) (gaps : Nat) (b : α) (back : List (Option α)),
      (neighbours front a gaps b back).filterMap id =
        front.filterMap id ++ a :: b :: back.filterMap id ∧
      ∃ i j,
        segmentOf? (splitSegments (neighbours front a gaps b back)) (front.filterMap id).length =
          some i ∧
        segmentOf? (splitSegments (neighbours front a gaps b back))
          ((front.filterMap id).length + 1) = some j ∧
        (i ≠ j ↔ 0 < gaps)) ∧
    (∀ front back : List (Option α),
      splitSegments (front ++ [none] ++ back) = splitSegments front ++ splitSegments back) ∧
    (∀ (leading : Nat) (series : List (Option α)) (trailing : Nat),
      splitSegments (List.replicate leading none ++ series ++ List.replicate trailing none) =
        splitSegments series) ∧
    (∀ (front : List (Option α)) (gaps : Nat) (back : List (Option α)),
      splitSegments (front ++ List.replicate (gaps + 1) none ++ back) =
        splitSegments (front ++ [none] ++ back)) := by
  refine ⟨fun series => ⟨nil_notMem_splitSegments series, flatten_splitSegments series⟩,
    fun front a gaps b back => ⟨filterMap_neighbours front a gaps b back, ?_⟩, fun front back => ?_,
    fun leading series trailing => ?_, splitSegments_repeated_gap⟩
  · obtain ⟨i, hfirst, hsecond⟩ := segmentOf?_neighbours front a gaps b back
    exact ⟨i, i + min gaps 1, hfirst, hsecond, by omega⟩
  · rw [List.append_assoc, List.singleton_append, splitSegments_at_gap]
  · rw [splitSegments_append_gaps, splitSegments_gaps_append]

/-- The gap at the beginning and the second of the two in the middle change
nothing. -/
example : splitSegments [none, some 0, some 1, none, none, some 3] = [[0, 1], [3]] := rfl

end GlutSketch
