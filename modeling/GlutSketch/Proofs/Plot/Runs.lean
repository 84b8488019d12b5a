import GlutSketch.Proofs.Plot.Samples
import GlutSketch.Proofs.Plot.Splitting

/-!
# GlutSketch.Proofs.Plot.Runs

The segments of a series are its runs: the stretches of numbers with an item, as
long as they can be.

* `AreRuns.mem_iff` -- a list of runs in order that covers all items has every
  maximal run;
* `exists_areRuns_splitSegments` -- the segments are the items of the runs;
* `collapseGaps_eq_foldl` -- gaps that say nothing new are left out as the
  series grows;
* `Viewport.sampleCurve_runs` -- what is drawn of a curve are the runs of its
  accepted samples.
-/

namespace GlutSketch

/-! ## Runs -/

/-- The numbers from `start` up to `stop`, without `stop`. -/
@[ext]
structure Run where
  start : Nat
  stop : Nat
deriving DecidableEq, Repr

namespace Run

def size (r : Run) : Nat := r.stop - r.start

/-- The items with the numbers of a run. -/
def items {α : Type} (item : Nat → α) (r : Run) : List α :=
  (List.range' r.start r.size).map item

@[simp] theorem length_items {α : Type} (item : Nat → α) (r : Run) :
    (r.items item).length = r.size := by
  simp [items]

theorem items_eq_cons {α : Type} {item : Nat → α} {start stop : Nat} (h : start < stop) :
    items item ⟨start, stop⟩ = item start :: items item ⟨start + 1, stop⟩ := by
  obtain ⟨size, rfl⟩ := Nat.exists_eq_add_of_lt h
  have hsize : start + size + 1 - start = size + 1 := by omega
  have hsize' : start + size + 1 - (start + 1) = size := by omega
  simp only [items, Run.size, hsize, hsize', List.range'_succ, List.map_cons]

end Run

/-- A run of numbers that are kept, among those from `first` up to `last`.  The
numbers next to it are not kept. -/
structure IsMaximalRun (Kept : Nat → Prop) (first last : Nat) (r : Run) : Prop where
  nonempty : r.start < r.stop
  within : first ≤ r.start ∧ r.stop ≤ last
  kept : ∀ i, r.start ≤ i → i < r.stop → Kept i
  before : ∀ i, first ≤ i → i + 1 = r.start → ¬ Kept i
  after : r.stop < last → ¬ Kept r.stop

/-- Maximal runs, in order and apart, to which all numbers that are kept
belong. -/
structure AreRuns (Kept : Nat → Prop) (first last : Nat) (runs : List Run) : Prop where
  inOrder : runs.Pairwise fun r s => r.stop < s.start
  maximal : ∀ r ∈ runs, IsMaximalRun Kept first last r
  covers : ∀ i, first ≤ i → i < last → Kept i → ∃ r ∈ runs, r.start ≤ i ∧ i < r.stop

section

variable {Kept : Nat → Prop} {first last stop : Nat} {r s : Run} {runs : List Run}

/-- Maximal runs that meet are one. -/
theorem IsMaximalRun.eq_of_meet (hr : IsMaximalRun Kept first last r)
    (hs : IsMaximalRun Kept first last s) (h : s.start ≤ r.start ∧ r.start < s.stop) : s = r := by
  have hbounds := hr.within
  have hbounds' := hs.within
  have hnonempty := hr.nonempty
  have hstart : s.start = r.start := by
    refine Nat.le_antisymm h.1 (Nat.le_of_not_lt fun hlt => ?_)
    have hkept := hs.kept (r.start - 1) (by omega) (by omega)
    exact hr.before (r.start - 1) (by omega) (by omega) hkept
  have hstop : s.stop = r.stop := by
    rcases Nat.lt_trichotomy s.stop r.stop with hlt | heq | hlt
    · exact absurd (hr.kept s.stop (by omega) hlt) (hs.after (by omega))
    · exact heq
    · exact absurd (hs.kept r.stop (by omega) hlt) (hr.after (by omega))
  exact Run.ext hstart hstop

/-- Among runs that cover everything are all maximal ones. -/
theorem AreRuns.mem_iff (h : AreRuns Kept first last runs) :
    r ∈ runs ↔ IsMaximalRun Kept first last r := by
  refine ⟨h.maximal r, fun hr => ?_⟩
  have hbounds := hr.within
  have hnonempty := hr.nonempty
  obtain ⟨s, hs, hmeet⟩ := h.covers r.start hbounds.1 (by omega)
    (hr.kept _ (Nat.le_refl _) hnonempty)
  exact hr.eq_of_meet (h.maximal s hs) hmeet ▸ hs

/-! ## One number more -/

/-- A run stays maximal if the new number in front is not kept, or is not next
to it. -/
theorem IsMaximalRun.of_succ (h : IsMaximalRun Kept (first + 1) last r)
    (hbefore : first + 1 = r.start → ¬ Kept first) : IsMaximalRun Kept first last r := by
  have hbounds := h.within
  refine ⟨h.nonempty, by omega, h.kept, fun i hi hnext => ?_, h.after⟩
  rcases Nat.eq_or_lt_of_le hi with rfl | hlt
  · exact hbefore hnext
  · exact h.before i hlt hnext

/-- A run that begins with the first number has no number before it. -/
theorem isMaximalRun_front (hstart : first < stop) (hstop : stop ≤ last)
    (hkept : ∀ i, first ≤ i → i < stop → Kept i) (hafter : stop < last → ¬ Kept stop) :
    IsMaximalRun Kept first last ⟨first, stop⟩ :=
  ⟨hstart, ⟨Nat.le_refl _, hstop⟩, hkept, fun i hi (hnext : i + 1 = first) => by omega, hafter⟩

theorem AreRuns.nil : AreRuns Kept first first [] :=
  ⟨.nil, by simp, fun i hi hlt => absurd hlt (Nat.not_lt.2 hi)⟩

/-- A number that is not kept changes nothing. -/
theorem AreRuns.skip (h : AreRuns Kept (first + 1) last runs) (hgap : ¬ Kept first) :
    AreRuns Kept first last runs := by
  refine ⟨h.inOrder, fun r hr => (h.maximal r hr).of_succ fun _ => hgap, fun i hi hlt hkept => ?_⟩
  rcases Nat.eq_or_lt_of_le hi with rfl | hlater
  · exact absurd hkept hgap
  · exact h.covers i hlater hlt hkept

/-- A run that begins with the first number goes in front of those that come
after it. -/
theorem AreRuns.cons (hfront : IsMaximalRun Kept first last ⟨first, stop⟩)
    (hmaximal : ∀ r ∈ runs, IsMaximalRun Kept (first + 1) last r)
    (hinOrder : (⟨first, stop⟩ :: runs).Pairwise fun r s => r.stop < s.start)
    (hcovers : ∀ i, stop ≤ i → i < last → Kept i → ∃ r ∈ runs, r.start ≤ i ∧ i < r.stop) :
    AreRuns Kept first last (⟨first, stop⟩ :: runs) := by
  have hstart : first < stop := hfront.nonempty
  refine ⟨hinOrder, List.forall_mem_cons.2 ⟨hfront, fun r hr => ?_⟩, fun i hi hlast hkept => ?_⟩
  · have hapart : stop < r.start := (List.pairwise_cons.1 hinOrder).1 r hr
    exact (hmaximal r hr).of_succ fun hnext => by omega
  · by_cases hstop : i < stop
    · exact ⟨_, List.mem_cons_self, hi, hstop⟩
    · obtain ⟨r, hr, hin⟩ := hcovers i (Nat.le_of_not_lt hstop) hlast hkept
      exact ⟨r, List.mem_cons_of_mem _ hr, hin⟩

/-- A number that is kept is a run of its own if the next one is not kept. -/
theorem AreRuns.single (h : AreRuns Kept (first + 1) last runs) (hkept : Kept first)
    (hlt : first < last) (hnext : first + 1 < last → ¬ Kept (first + 1)) :
    AreRuns Kept first last (⟨first, first + 1⟩ :: runs) := by
  have hfront : IsMaximalRun Kept first last ⟨first, first + 1⟩ := by
    refine isMaximalRun_front (Nat.lt_succ_self _) hlt (fun i hi hstop => ?_) hnext
    rwa [show i = first by omega]
  have hapart : ∀ r ∈ runs, first + 1 < r.start := by
    intro r hr
    obtain ⟨hnonempty, hbounds, hrun, -⟩ := h.maximal r hr
    refine Nat.lt_of_le_of_ne hbounds.1 fun hstart => ?_
    exact hnext (by omega) (hrun _ (Nat.le_of_eq hstart.symm) (by omega))
  exact .cons hfront h.maximal (List.pairwise_cons.2 ⟨hapart, h.inOrder⟩) h.covers

/-- A number that is kept belongs to the run that begins with the next one. -/
theorem AreRuns.extend (h : AreRuns Kept (first + 1) last (⟨first + 1, stop⟩ :: runs))
    (hkept : Kept first) : AreRuns Kept first last (⟨first, stop⟩ :: runs) := by
  obtain ⟨hsecond, hmaximal⟩ := List.forall_mem_cons.1 h.maximal
  have hstart : first + 1 < stop := hsecond.nonempty
  have hfront : IsMaximalRun Kept first last ⟨first, stop⟩ := by
    refine isMaximalRun_front (by omega) hsecond.within.2 (fun i hi hstop => ?_) hsecond.after
    rcases Nat.eq_or_lt_of_le hi with rfl | hafter
    · exact hkept
    · exact hsecond.kept i hafter hstop
  refine .cons hfront hmaximal (List.pairwise_cons.2 (List.pairwise_cons.1 h.inOrder))
    fun i hi hlast hkept' => ?_
  obtain ⟨r, hr, hin⟩ := h.covers i (by omega) hlast hkept'
  rcases List.mem_cons.1 hr with rfl | hr
  · exact absurd hin.2 (Nat.not_lt.2 hi)
  · exact ⟨r, hr, hin⟩

/-- If the first number is kept, the first run begins with it. -/
theorem AreRuns.exists_cons (h : AreRuns Kept first last runs) (hkept : Kept first)
    (hlt : first < last) : ∃ stop rest, runs = ⟨first, stop⟩ :: rest := by
  obtain ⟨r, hr, hstart, -⟩ := h.covers first (Nat.le_refl _) hlt hkept
  have hfirst := (h.maximal r hr).within.1
  cases runs with
  | nil => cases hr
  | cons front rest =>
      obtain ⟨hlater, -⟩ := List.pairwise_cons.1 h.inOrder
      rcases List.mem_cons.1 hr with rfl | hrest
      · exact ⟨r.stop, rest, by rw [Nat.le_antisymm hfirst hstart]⟩
      · -- a run in front of this one would begin before the first number
        have hfront := h.maximal front List.mem_cons_self
        have hnonempty := hfront.nonempty
        have hwithin := hfront.within.1
        have hapart := hlater r hrest
        omega

end

/-! ## The segments of a series -/

section

variable {α : Type} {a : α} {series : List (Option α)}

/-- The series of the items with the numbers from `first` on, with a gap for
each that is not kept. -/
def numbered (Kept : Nat → Prop) [DecidablePred Kept] (item : Nat → α) (first count : Nat) :
    List (Option α) :=
  (List.range' first count).map fun i => if Kept i then some (item i) else none

variable {Kept : Nat → Prop} [DecidablePred Kept] {item : Nat → α}

/-- A numbered series begins with its first entry. -/
theorem numbered_succ (first count : Nat) :
    numbered Kept item first (count + 1) =
      (if Kept first then some (item first) else none) ::
        numbered Kept item (first + 1) count := by
  simp [numbered, List.range'_succ]

/-- The items of a series, without the gaps. -/
theorem filterMap_numbered (first count : Nat) :
    (numbered Kept item first count).filterMap id =
      ((List.range' first count).filter fun i => Kept i).map item := by
  induction count generalizing first with
  | zero => rfl
  | succ count ih =>
      rw [numbered_succ, List.range'_succ]
      by_cases hkept : Kept first
      · rw [if_pos hkept, List.filter_cons_of_pos (by simpa using hkept), List.map_cons, ← ih]
        rfl
      · rw [if_neg hkept, List.filter_cons_of_neg (by simpa using hkept), ← ih]
        rfl

/-- The first entry is an item if it is kept. -/
theorem head?_numbered (first count : Nat) :
    (numbered Kept item first count).head?.join =
      if 0 < count ∧ Kept first then some (item first) else none := by
  cases count with
  | zero => simp [numbered]
  | succ count => rw [numbered_succ]; simp

/-- **Runs**: the segments of a series are the items of the runs of the numbers
that are kept. -/
theorem exists_areRuns_splitSegments (first count : Nat) :
    ∃ runs, AreRuns Kept first (first + count) runs ∧
      splitSegments (numbered Kept item first count) = runs.map (·.items item) := by
  induction count generalizing first with
  | zero => exact ⟨[], .nil, rfl⟩
  | succ count ih =>
      obtain ⟨runs, hruns, hsegments⟩ := ih (first + 1)
      have hhead := @head?_numbered α Kept _ item (first + 1) count
      rw [Nat.succ_add_eq_add_succ] at hruns
      rw [numbered_succ]
      by_cases hkept : Kept first
      · rw [if_pos hkept]
        by_cases hnext : 0 < count ∧ Kept (first + 1)
        · -- the first of the later runs begins with the second number
          rw [if_pos hnext] at hhead
          obtain ⟨stop, rest, rfl⟩ := hruns.exists_cons hnext.2 (by omega)
          have hstop : first + 1 < stop := (hruns.maximal _ List.mem_cons_self).nonempty
          refine ⟨⟨first, stop⟩ :: rest, hruns.extend hkept, ?_⟩
          rw [splitSegments_cons_of_item hhead, hsegments, List.map_cons, extendFirst,
            List.map_cons, Run.items_eq_cons (Nat.lt_of_succ_lt hstop)]
        · rw [if_neg hnext] at hhead
          refine ⟨⟨first, first + 1⟩ :: runs, hruns.single hkept (by omega) ?_, ?_⟩
          · exact fun hlt hnext' => hnext ⟨by omega, hnext'⟩
          · rw [splitSegments_cons_of_gap hhead, hsegments, List.map_cons,
              Run.items_eq_cons (Nat.lt_succ_self _)]
            simp [Run.items, Run.size]
      · rw [if_neg hkept, splitSegments, hsegments]
        exact ⟨runs, hruns.skip hkept, rfl⟩

/-- The segments that can be drawn are the runs of two numbers or more. -/
theorem drawableSegments_of_runs {runs : List Run}
    (h : splitSegments series = runs.map (·.items item)) :
    drawableSegments series = (runs.filter (2 ≤ ·.size)).map (·.items item) := by
  rw [drawableSegments, h, List.filter_map]
  simp [Function.comp_def]

/-! ## Idle gaps -/

/-- An item between items is kept. -/
theorem collapseGaps_cons_of_item (h : ∀ rest, series ≠ none :: rest) :
    collapseGaps (some a :: series) = some a :: collapseGaps series := by
  rw [collapseGaps]
  exact h

/-- Nothing is added when gaps are collapsed. -/
theorem length_collapseGaps_le (series : List (Option α)) :
    (collapseGaps series).length ≤ series.length := by
  induction series using collapseGaps.induct with
  | case1 => simp [collapseGaps]
  | case2 series ih => exact Nat.le_succ_of_le ih
  | case3 a series ih => simpa [collapseGaps] using ih
  | case4 a series hitem ih => simpa [collapseGaps_cons_of_item hitem] using ih

/-- What is left does not begin with a gap. -/
theorem head?_collapseGaps_ne (series : List (Option α)) :
    (collapseGaps series).head? ≠ some none := by
  induction series using collapseGaps.induct with
  | case1 => simp [collapseGaps]
  | case2 series ih => exact ih
  | case3 a series ih => simp [collapseGaps]
  | case4 a series hitem ih => simp [collapseGaps_cons_of_item hitem]

/-- No gap is left after another. -/
theorem collapseGaps_next_ne (series : List (Option α)) (i : Nat)
    (h : (collapseGaps series)[i]? = some none) : (collapseGaps series)[i + 1]? ≠ some none := by
  induction series using collapseGaps.induct generalizing i with
  | case1 => simp [collapseGaps]
  | case2 series ih => exact ih i h
  | case3 a series ih =>
      -- a gap that is kept is followed by what is left of the others, which
      -- begins with an item
      rw [collapseGaps] at h ⊢
      rcases i with _ | _ | i
      · simp at h
      · simpa [List.head?_eq_getElem?] using head?_collapseGaps_ne series
      · exact ih i (by simpa using h)
  | case4 a series hitem ih =>
      rw [collapseGaps_cons_of_item hitem] at h ⊢
      cases i with
      | zero => simp at h
      | succ i => exact ih i (by simpa using h)

/-- Adds an entry to what has been sampled so far: an item always, a gap only
after an item. -/
def pushSample (sampled : List (Option α)) : Option α → List (Option α)
  | some a => sampled ++ [some a]
  | none => if sampled.getLast?.join.isSome then sampled ++ [none] else sampled

/-- Only the last entry counts. -/
theorem pushSample_cons_cons (first second : Option α) (sampled : List (Option α))
    (entry : Option α) :
    pushSample (first :: second :: sampled) entry =
      first :: pushSample (second :: sampled) entry := by
  cases entry with
  | some a => rfl
  | none =>
      rw [pushSample, pushSample, List.getLast?_cons_cons]
      split
      · rfl
      · rfl

/-- A gap at the front stays where it is. -/
theorem pushSample_none_cons (sampled : List (Option α)) (entry : Option α) :
    pushSample (none :: sampled) entry = none :: pushSample sampled entry := by
  cases sampled with
  | nil => cases entry <;> rfl
  | cons item sampled => exact pushSample_cons_cons none item sampled entry

/-- One entry more is added at the end. -/
theorem collapseGaps_concat (series : List (Option α)) (entry : Option α) :
    collapseGaps (series ++ [entry]) = pushSample (collapseGaps series) entry := by
  induction series using collapseGaps.induct with
  | case1 => cases entry <;> rfl
  | case2 series ih => exact ih
  | case3 a series ih =>
      rw [collapseGaps, pushSample_cons_cons, pushSample_none_cons, ← ih]
      rfl
  | case4 a series hitem ih =>
      cases series with
      | nil => cases entry <;> rfl
      | cons item series =>
          cases item with
          | none => exact absurd rfl (hitem series)
          | some b =>
              obtain ⟨rest, hrest⟩ := collapseGaps_some_cons b series
              rw [collapseGaps_cons_of_item hitem, hrest, pushSample_cons_cons, ← hrest, ← ih]
              rfl

/-- Gaps that say nothing new need not be dropped afterwards: they can be left
out one by one, as the series grows. -/
theorem collapseGaps_eq_foldl (series : List (Option α)) :
    collapseGaps series = series.foldl pushSample [] := by
  have hfrom : ∀ front, series.foldl pushSample (collapseGaps front) =
      collapseGaps (front ++ series) := by
    induction series with
    | nil => simp
    | cons entry series ih =>
        intro front
        rw [List.foldl_cons, ← collapseGaps_concat, ih, List.append_assoc, List.singleton_append]
  exact (hfrom []).symm

end

/-! ## Curves -/

namespace Viewport

variable {v : Viewport} {f : Float → Float} {i : Nat}

/-- The argument of the sample with a number. -/
def argument (v : Viewport) (i : Nat) : Float :=
  v.xMin + Float.ofNat i * (v.width / Float.ofNat sampleSteps)

/-- The point that shows the sample with a number. -/
def curvePoint (v : Viewport) (f : Float → Float) (i : Nat) : Point :=
  v.toSurface (v.argument i) (f (v.argument i))

/-- The sample with a number has a value, and its point is on the surface or in
the margin. -/
def Accepts (v : Viewport) (f : Float → Float) (i : Nat) : Prop :=
  (f (v.argument i)).isFinite ∧ -100 ≤ (v.curvePoint f i).y ∧ (v.curvePoint f i).y ≤ 700

instance (v : Viewport) (f : Float → Float) : DecidablePred (v.Accepts f) :=
  fun _ => inferInstanceAs (Decidable (_ ∧ _))

/-- A point is shown exactly if the sampling accepts it. -/
theorem isShown_iff_accepts :
    IsShown (f (v.argument i)) (v.curvePoint f i) ↔ v.Accepts f i := by
  have hbottom : -sampleMargin = -100 := by decide +kernel
  have htop : Extent.plotting.height + sampleMargin = 700 := by decide +kernel
  rw [IsShown, Accepts, hbottom, htop]

/-- The samples of a curve are numbered from 0 to 800. -/
theorem map_sample?_arguments :
    v.arguments.map (v.sample? f) = numbered (v.Accepts f) (v.curvePoint f) 0 801 := by
  rw [arguments, List.map_map, numbered, ← List.range_eq_range']
  refine List.map_congr_left fun i _ => ?_
  rw [Function.comp_apply, sample?]
  simp only [← isShown_iff_accepts]
  rfl

/-- **Sampled curves**: what is sampled of a curve grows sample by sample, and a
gap is added only after an item.  So it has no idle gaps, and its segments are
the points of the maximal runs of accepted samples, each with exactly the
samples of the run.  Those of two samples or more are drawn. -/
theorem sampleCurve_runs (v : Viewport) (f : Float → Float) :
    v.sampleCurve f =
        (numbered (v.Accepts f) (v.curvePoint f) 0 801).foldl pushSample [] ∧
      (v.sampleCurve f).length ≤ 801 ∧ (v.sampleCurve f).head? ≠ some none ∧
      (∀ i, (v.sampleCurve f)[i]? = some none → (v.sampleCurve f)[i + 1]? ≠ some none) ∧
      ∃ runs, AreRuns (v.Accepts f) 0 801 runs ∧
        (∀ r, r ∈ runs ↔ IsMaximalRun (v.Accepts f) 0 801 r) ∧
        splitSegments (v.sampleCurve f) = runs.map (·.items (v.curvePoint f)) ∧
        drawableSegments (v.sampleCurve f) =
          (runs.filter (2 ≤ ·.size)).map (·.items (v.curvePoint f)) ∧
        (splitSegments (v.sampleCurve f)).flatten =
          ((List.range 801).filter (v.Accepts f ·)).map (v.curvePoint f) := by
  obtain ⟨runs, hruns, hsegments⟩ :=
    @exists_areRuns_splitSegments _ (v.Accepts f) _ (v.curvePoint f) 0 801
  have hsamples : v.sampleCurve f =
      collapseGaps (numbered (v.Accepts f) (v.curvePoint f) 0 801) := by
    rw [sampleCurve, map_sample?_arguments]
  have hsplit : splitSegments (v.sampleCurve f) = runs.map (·.items (v.curvePoint f)) := by
    rw [hsamples, splitSegments_collapseGaps, hsegments]
  refine ⟨hsamples.trans (collapseGaps_eq_foldl _), ?_, ?_, ?_, runs, hruns, fun r => hruns.mem_iff,
    hsplit, drawableSegments_of_runs hsplit, ?_⟩
  · have hlength := length_collapseGaps_le (numbered (v.Accepts f) (v.curvePoint f) 0 801)
    rw [hsamples]
    simpa [numbered] using hlength
  · rw [hsamples]
    exact head?_collapseGaps_ne _
  · rw [hsamples]
    exact collapseGaps_next_ne _
  · rw [hsamples, splitSegments_collapseGaps, flatten_splitSegments, filterMap_numbered,
      List.range_eq_range']

end Viewport

end GlutSketch
