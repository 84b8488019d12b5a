import GlutSketch.Proofs.Drawing.PointCount
import GlutSketch.Proofs.Plot.Samples
import GlutSketch.Proofs.Program.ReadBack
import GlutSketch.Proofs.Scene.Editing
import GlutSketch.Scene.Recompute
import Mathlib.Data.List.Pairwise

/-!
# GlutSketch.Proofs.Scene.Diagnostics

What is reported of a scene.  Every entry is either drawn or reported once: a
shape by the number of its points, a visible function by its equation or by the
samples that are kept of it.  Diagnostics are collected by cause and sorted by
place afterwards; since ids are distinct every place has one diagnostic at most,
so that sorting leaves no choice.

* `Shape.report?`, `PlotFunction.report?` -- what is to be reported of an entry.
* `Scene.sortDiagnostics_eq_of_perm` -- diagnostics in the order of their
  places.
* `Scene.diagnostics_eq` -- the diagnostics of a scene.
* `Scene.drawn_or_reported` -- every entry is drawn or reported.
-/

namespace GlutSketch

/-! ## Reports -/

/-- What is to be reported of a shape at a place of the list. -/
def Shape.report? (index : Nat) (s : Shape) : Option Diagnostic :=
  if s.HasPoints then none else some (.pointCount index ⟨s.kind, s.geometry.points.length⟩)

namespace PlotFunction

/-- What is to be reported of a function in a window: its equation is refused,
or no sample of it is kept, or no two samples next to each other. -/
def report? (v : Viewport) (f : PlotFunction) : Option Diagnostic :=
  match Equation.classify f.expression with
  | .error e => some (.badEquation f.id e)
  | .ok e =>
      if ∀ p ∈ v.series e, p = none then some (.noSample f.id)
      else if ¬ HasNeighbours (v.series e) then some (.noSegment f.id)
      else none

/-- The line strips of a function in a window: one for each run of two samples
or more. -/
def strips (v : Viewport) (f : PlotFunction) : List Program.Block :=
  match Equation.classify f.expression with
  | .error _ => []
  | .ok e =>
      ((gapParts (v.series e)).filter (2 ≤ ·.length)).map
        (Program.stripBlock (Color.ofText f.color).channels)

end PlotFunction

/-- A shape is reported at most once. -/
theorem Shape.shapeDiagnostics_eq (index : Nat) (s : Shape) :
    Program.shapeDiagnostics index s = (s.report? index).toList := by
  unfold Program.shapeDiagnostics report?
  by_cases h : s.HasPoints
  · obtain ⟨t, ht⟩ := tessellate_of_hasPoints h
    simp [ht, h]
  · simp [tessellate_of_not_hasPoints h, h]

/-- The report of a shape names its place and its kind. -/
theorem Shape.subject_of_report? {index : Nat} {s : Shape} {d : Diagnostic}
    (h : s.report? index = some d) : d.subject = .shape index s.kind := by
  unfold report? at h
  split at h
  · cases h
  · cases h
    rfl

namespace PlotFunction

variable {v : Viewport} {f : PlotFunction} {d : Diagnostic}

/-- The report of a function names its id. -/
theorem subject_of_report? (h : f.report? v = some d) : d.subject = .function f.id := by
  unfold report? at h
  grind [Diagnostic.subject]

/-- What becomes of a function: its equation is refused, or it is sampled, and
then the samples decide. -/
theorem sample_cases (v : Viewport) (f : PlotFunction) :
    (∃ d, Scene.sampled? v f = none ∧ Scene.equationDiagnostic? v f = some d ∧
      f.report? v = some d ∧ f.strips v = []) ∨
    ∃ sampled, Scene.sampled? v f = some sampled ∧ Scene.equationDiagnostic? v f = none ∧
      sampled.id = f.id ∧ f.strips v = Program.functionBlocks sampled ∧
      f.report? v =
        if sampled.hasSample = false then some (.noSample f.id)
        else if drawableSegments sampled.points = [] then some (.noSegment f.id)
        else none := by
  unfold Scene.sampled? Scene.equationDiagnostic? sample report? strips
  cases Equation.classify f.expression with
  | error e => exact .inl ⟨_, rfl, rfl, rfl, rfl⟩
  | ok e =>
      refine .inr ⟨_, rfl, rfl, rfl, ?_, ?_⟩
      · simp only [Program.functionBlocks, ← drawableSegments_eq,
          Viewport.drawableSegments_sampleEquation]
      · simp only [SampledFunction.hasSample_eq_false_iff, Viewport.splitSegments_sampleEquation,
          Viewport.drawableSegments_sampleEquation, splitSegments_eq_nil_iff,
          drawableSegments_eq_nil_iff]

/-- A function has no report exactly if it is drawn. -/
theorem report?_eq_none_iff : f.report? v = none ↔ f.strips v ≠ [] := by
  obtain ⟨d, -, -, hreport, hstrips⟩ | ⟨sampled, -, -, -, hstrips, hreport⟩ := f.sample_cases v
  · simp [hreport, hstrips]
  · have hblocks : Program.functionBlocks sampled = [] ↔ drawableSegments sampled.points = [] := by
      rw [Program.functionBlocks, ← drawableSegments_eq, List.map_eq_nil_iff]
    rw [hreport, hstrips, ne_eq, hblocks]
    cases hsample : sampled.hasSample with
    | false =>
        have hnone := Program.functionBlocks_of_not_hasSample hsample
        simp [hblocks.1 hnone]
    | true => simp

end PlotFunction

namespace Scene

/-! ## Places -/

section Places

variable {a b c : Nat × Nat}

theorem rankLe_trans (hab : rankLe a b) (hbc : rankLe b c) : rankLe a c := by
  simp [rankLe] at *
  omega

theorem rankLe_total (a b : Nat × Nat) : rankLe a b || rankLe b a := by
  simp [rankLe]
  omega

theorem rankLe_antisymm (hab : rankLe a b) (hba : rankLe b a) : a = b := by
  simp [rankLe] at *
  exact Prod.ext (by omega) (by omega)

end Places

/-- A rank comes before another. -/
def RankLt (a b : Nat × Nat) : Prop := rankLe a b ∧ a ≠ b

/-- Sorting puts diagnostics of different places in the order of their
places. -/
theorem sortDiagnostics_eq_of_perm {s : Scene} {ds sorted : List Diagnostic}
    (hperm : ds.Perm sorted)
    (hsorted : sorted.Pairwise fun d d' => RankLt (s.rank d) (s.rank d')) :
    s.sortDiagnostics ds = sorted := by
  have hdistinct : ∀ d ∈ sorted, ∀ d' ∈ sorted, d ≠ d' → s.rank d ≠ s.rank d' := by
    have hne : sorted.Pairwise fun d d' => s.rank d ≠ s.rank d' := hsorted.imp fun h => h.2
    have : Std.Symm fun d d' => s.rank d ≠ s.rank d' := ⟨fun _ _ h => h.symm⟩
    exact fun d hd d' hd' => hne.forall hd hd'
  have hsort : (s.sortDiagnostics ds).Pairwise fun d d' => rankLe (s.rank d) (s.rank d') :=
    @List.pairwise_mergeSort _ (fun d d' => rankLe (s.rank d) (s.rank d'))
      (fun _ _ _ => rankLe_trans) (fun _ _ => rankLe_total _ _) ds
  have hle : sorted.Pairwise fun d d' => rankLe (s.rank d) (s.rank d') := hsorted.imp fun h => h.1
  have hsame : (s.sortDiagnostics ds).Perm sorted := (List.mergeSort_perm ds _).trans hperm
  refine List.Perm.eq_of_pairwise (fun d d' hd hd' hdd' hd'd => ?_) hsort hle hsame
  by_contra hne
  exact hdistinct d (hsame.mem_iff.1 hd) d' hd' hne (rankLe_antisymm hdd' hd'd)

/-! ## Collecting -/

/-- Causes are collected one after the other; every function has one of them at
most. -/
theorem perm_functionReports (v : Viewport) (fs : List PlotFunction) :
    (fs.filterMap (equationDiagnostic? v) ++
      (((fs.filterMap (sampled? v)).filter (!·.hasSample)).map (Diagnostic.noSample ·.id) ++
        Program.segmentDiagnostics
          ((fs.filterMap (sampled? v)).filter SampledFunction.hasSample))).Perm
      (fs.filterMap (PlotFunction.report? v)) := by
  -- The report of the first function heads the group of its cause, and moves to
  -- the front.
  induction fs with
  | nil => exact .refl _
  | cons f fs ih =>
      obtain ⟨d, hsampled, hequation, hreport, -⟩ |
        ⟨sampled, hsampled, hequation, hid, -, hreport⟩ := f.sample_cases v
      · simpa [hsampled, hequation, hreport] using ih
      · cases hkept : sampled.hasSample with
        | false => simpa [hsampled, hequation, hreport, hkept, hid] using
            List.perm_middle.trans (ih.cons (.noSample f.id))
        | true =>
            unfold Program.segmentDiagnostics at ih ⊢
            by_cases hrun : drawableSegments sampled.points = []
            · rw [← List.append_assoc] at ih ⊢
              simpa [hsampled, hequation, hreport, hkept, hid, hrun] using
                List.perm_middle.trans (ih.cons (.noSegment f.id))
            · simpa [hsampled, hequation, hreport, hkept, hrun] using ih

/-- What is to be reported of the shapes, in their order. -/
def shapeReports (shapes : List Shape) : List Diagnostic :=
  shapes.zipIdx.filterMap fun (shape, index) => shape.report? index

/-- The diagnostics before they are sorted: shapes, then functions without
samples, then those without a strip. -/
theorem diagnostics_synthesize (shapes : List Shape) (sampled : List SampledFunction) :
    (synthesize shapes sampled).diagnostics = shapeReports shapes ++
      ((sampled.filter (!·.hasSample)).map (Diagnostic.noSample ·.id) ++
        Program.segmentDiagnostics (sampled.filter SampledFunction.hasSample)) := by
  simp [synthesize, shapeReports, List.filterMap_eq_flatMap_toList, Shape.shapeDiagnostics_eq]

/-- What is collected, before it is sorted, is what is to be reported. -/
theorem perm_reports (s : Scene) :
    (s.sampleAll.diagnostics ++ (synthesize s.shapes s.sampleAll.functions).diagnostics).Perm
      (shapeReports s.shapes ++
        if s.viewport.IsValid then s.visibleFunctions.filterMap (PlotFunction.report? s.viewport)
        else [.badViewport s.viewport]) := by
  rw [diagnostics_synthesize]
  by_cases hvalid : s.viewport.IsValid
  · have hfunctions := perm_functionReports s.viewport s.visibleFunctions
    simpa [sampleAll, hvalid] using
      List.perm_append_comm_assoc _ _ _ |>.trans (hfunctions.append_left _)
  · have hlast :=
      @List.perm_append_comm _ [Diagnostic.badViewport s.viewport] (shapeReports s.shapes)
    simpa [sampleAll, hvalid, Program.segmentDiagnostics] using hlast

/-! ## The order -/

section Order

variable {s : Scene}

/-- Shapes rank first, in their order. -/
theorem rank_of_mem_shapeReports {d : Diagnostic} (h : d ∈ shapeReports s.shapes) :
    ∃ index, s.rank d = (0, index) := by
  obtain ⟨⟨shape, index⟩, -, hreport⟩ := List.mem_filterMap.1 h
  exact ⟨index, by rw [rank, Shape.subject_of_report? hreport]⟩

/-- Shapes are reported by increasing index. -/
theorem pairwise_shapeReports (s : Scene) :
    (shapeReports s.shapes).Pairwise fun d d' => RankLt (s.rank d) (s.rank d') := by
  have hindices : s.shapes.zipIdx.Pairwise fun p q => p.2 < q.2 := by
    rw [← List.pairwise_map, List.zipIdx_map_snd]
    exact List.pairwise_lt_range'
  refine hindices.filterMap _ fun p q hlt d hd d' hd' => ?_
  rw [rank, Shape.subject_of_report? hd, rank, Shape.subject_of_report? hd']
  exact ⟨by simp [rankLe, Nat.le_of_lt hlt], by simp [Nat.ne_of_lt hlt]⟩

/-- A function stands where its id says. -/
theorem rank_of_report? {v : Viewport} {f : PlotFunction} {d : Diagnostic}
    (h : f.report? v = some d) : s.rank d = (2, (s.position? f.id).getD s.functions.length) := by
  rw [rank, PlotFunction.subject_of_report? h]

/-- Functions are reported in the order of the list. -/
theorem pairwise_functionReports (hids : s.ids.Nodup) (v : Viewport) :
    (s.visibleFunctions.filterMap (PlotFunction.report? v)).Pairwise
      fun d d' => RankLt (s.rank d) (s.rank d') := by
  have hplace : ∀ i (hi : i < s.functions.length), s.position? s.functions[i].id = some i := by
    intro i hi
    rw [position?_eq_some_iff hids, ids, List.getElem?_map, List.getElem?_eq_getElem hi]
    rfl
  have hplaces : s.functions.Pairwise fun f g =>
      ∃ i j, i < j ∧ s.position? f.id = some i ∧ s.position? g.id = some j :=
    List.pairwise_iff_getElem.2 fun i j hi hj hij => ⟨i, j, hij, hplace i hi, hplace j hj⟩
  refine (hplaces.filter _).filterMap _ fun f g hplace d hd d' hd' => ?_
  obtain ⟨i, j, hij, hi, hj⟩ := hplace
  rw [rank_of_report? hd, rank_of_report? hd', hi, hj]
  exact ⟨by simp [rankLe, Nat.le_of_lt hij], by simp [Nat.ne_of_lt hij]⟩

/-- **All diagnostics**: a scene reports shapes by index, then the window if it
is not valid, and otherwise the visible functions in the order of the list. -/
theorem diagnostics_eq (hids : s.ids.Nodup) :
    s.recompute.diagnostics = shapeReports s.shapes ++
      if s.viewport.IsValid then s.visibleFunctions.filterMap (PlotFunction.report? s.viewport)
      else [.badViewport s.viewport] := by
  refine sortDiagnostics_eq_of_perm s.perm_reports (List.pairwise_append.2 ?_)
  refine ⟨pairwise_shapeReports s, ?_, ?_⟩
  · split
    · exact pairwise_functionReports hids _
    · exact List.pairwise_singleton _ _
  · intro d hd d' hd'
    obtain ⟨index, hrank⟩ := rank_of_mem_shapeReports hd
    rw [hrank]
    split at hd'
    · obtain ⟨f, -, hreport⟩ := List.mem_filterMap.1 hd'
      rw [rank_of_report? hreport]
      exact ⟨by simp [rankLe], by simp⟩
    · rw [List.mem_singleton.1 hd']
      exact ⟨by simp [rankLe, rank, Diagnostic.subject], by simp [rank, Diagnostic.subject]⟩

/-- What is reported of a scene, whatever its ids are. -/
theorem mem_diagnostics_iff {d : Diagnostic} :
    d ∈ s.recompute.diagnostics ↔ d ∈ shapeReports s.shapes ∨
      d ∈ if s.viewport.IsValid then s.visibleFunctions.filterMap (PlotFunction.report? s.viewport)
        else [.badViewport s.viewport] := by
  rw [← List.mem_append]
  exact ((List.mergeSort_perm _ _).trans s.perm_reports).mem_iff

/-- Only a visible function is reported, under its own id. -/
theorem exists_of_mem_diagnostics {d : Diagnostic} {id : FunctionId}
    (hd : d ∈ s.recompute.diagnostics) (hsubject : d.subject = .function id) :
    s.viewport.IsValid ∧ ∃ f ∈ s.visibleFunctions, f.id = id ∧ f.report? s.viewport = some d := by
  rcases mem_diagnostics_iff.1 hd with hd | hd
  · obtain ⟨⟨shape, index⟩, -, hreport⟩ := List.mem_filterMap.1 hd
    rw [Shape.subject_of_report? hreport] at hsubject
    cases hsubject
  · split at hd
    · next hvalid =>
      obtain ⟨f, hf, hreport⟩ := List.mem_filterMap.1 hd
      rw [PlotFunction.subject_of_report? hreport] at hsubject
      exact ⟨hvalid, f, hf, by simpa using hsubject, hreport⟩
    · rw [List.mem_singleton.1 hd] at hsubject
      cases hsubject

/-- What is to be reported of a visible function is reported, if the window is
valid. -/
theorem mem_diagnostics_of_report? (hvalid : s.viewport.IsValid) {f : PlotFunction}
    (hf : f ∈ s.visibleFunctions) {d : Diagnostic} (h : f.report? s.viewport = some d) :
    d ∈ s.recompute.diagnostics := by
  rw [mem_diagnostics_iff, if_pos hvalid]
  exact .inr (List.mem_filterMap.2 ⟨f, hf, h⟩)

/-- Two functions of one id are the same. -/
theorem eq_of_id_eq (hids : s.ids.Nodup) {f g : PlotFunction} (hf : f ∈ s.functions)
    (hg : g ∈ s.functions) (hid : f.id = g.id) : f = g :=
  List.inj_on_of_nodup_map hids hf hg hid

/-- A visible function is a function of the scene. -/
theorem visible_of_mem {f : PlotFunction} (h : f ∈ s.visibleFunctions) :
    f ∈ s.functions ∧ f.visible := by
  simpa [visibleFunctions] using h

/-- In a valid window a visible function has no diagnostic exactly if it has no
report. -/
theorem notMem_subjects_iff (hids : s.ids.Nodup) (hvalid : s.viewport.IsValid) {f : PlotFunction}
    (hf : f ∈ s.visibleFunctions) :
    (∀ d ∈ s.recompute.diagnostics, d.subject ≠ .function f.id) ↔
      f.report? s.viewport = none := by
  constructor
  · intro hnone
    by_contra hreport
    obtain ⟨d, hd⟩ := Option.ne_none_iff_exists'.1 hreport
    exact hnone d (mem_diagnostics_of_report? hvalid hf hd) (PlotFunction.subject_of_report? hd)
  · intro hreport d hd hsubject
    obtain ⟨-, g, hg, hid, hgreport⟩ := exists_of_mem_diagnostics hd hsubject
    rw [eq_of_id_eq hids (visible_of_mem hg).1 (visible_of_mem hf).1 hid, hreport] at hgreport
    cases hgreport

end Order

/-! ## What is drawn -/

/-- The functions that are sampled draw their strips, and the others have
none. -/
theorem flatMap_functionBlocks_sampled (v : Viewport) (fs : List PlotFunction) :
    (fs.filterMap (sampled? v)).flatMap Program.functionBlocks = fs.flatMap (·.strips v) := by
  induction fs with
  | nil => rfl
  | cons f fs ih =>
      obtain ⟨d, hsampled, -, -, hstrips⟩ | ⟨sampled, hsampled, -, -, hstrips, -⟩ :=
        f.sample_cases v
      · simp [hsampled, hstrips, ih]
      · simp [hsampled, hstrips, ih]

/-- The blocks of the program of a scene with a valid window. -/
theorem readBody?_recompute {s : Scene} (hvalid : s.viewport.IsValid) :
    Program.readBody? (Program.bodyText s.recompute.body) =
      some (s.shapes.flatMap Program.shapeBlocks ++
        s.visibleFunctions.flatMap (·.strips s.viewport)) := by
  have hsampled : s.sampleAll.functions = s.visibleFunctions.filterMap (sampled? s.viewport) := by
    simp [sampleAll, hvalid]
  have hbody : s.recompute.body = (synthesize s.shapes s.sampleAll.functions).body := rfl
  rw [hbody, Program.readBody?_bodyText _ (Program.onLines_body _ _), Program.blocks_body, hsampled,
    flatMap_functionBlocks_sampled]

/-- **Drawn or reported**: every entry of a scene with distinct ids is drawn or
reported, once and in order: the shapes that have the wrong number of points,
then the window if it is not valid, and otherwise the visible functions of which
nothing can be drawn.  Hidden functions are never reported, and a visible one is
reported exactly if the program has no line strip of it. -/
theorem drawn_or_reported (s : Scene) (hids : s.ids.Nodup) :
    s.recompute.diagnostics = shapeReports s.shapes ++
        (if s.viewport.IsValid then s.visibleFunctions.filterMap (PlotFunction.report? s.viewport)
        else [.badViewport s.viewport]) ∧
      (∀ f ∈ s.functions, f.visible = false →
        ∀ d ∈ s.recompute.diagnostics, d.subject ≠ .function f.id) ∧
      (s.viewport.IsValid →
        (∃ body, s.recompute.program = Program.header ++ body ++ Program.footer ∧
          Program.readBody? body = some (s.shapes.flatMap Program.shapeBlocks ++
            s.visibleFunctions.flatMap (·.strips s.viewport))) ∧
        ∀ f ∈ s.visibleFunctions, (∀ d ∈ s.recompute.diagnostics, d.subject ≠ .function f.id) ↔
          f.strips s.viewport ≠ []) := by
  refine ⟨diagnostics_eq hids, ?_, fun hvalid => ⟨⟨_, rfl, readBody?_recompute hvalid⟩, ?_⟩⟩
  · intro f hf hhidden d hd hsubject
    obtain ⟨-, g, hg, hid, -⟩ := exists_of_mem_diagnostics hd hsubject
    have hvisible := (visible_of_mem hg).2
    rw [eq_of_id_eq hids (visible_of_mem hg).1 hf hid, hhidden] at hvisible
    cases hvisible
  · intro f hf
    rw [notMem_subjects_iff hids hvalid hf, PlotFunction.report?_eq_none_iff]

/-- A triangle of one point, an equation without an end, a hidden one, and a
vertical line. -/
def mixed : Scene where
  shapes := [⟨.figure .point [⟨600, 350⟩], .default⟩, ⟨.figure .triangle [⟨0, 0⟩], .default⟩]
  functions := [⟨⟨4⟩, "1 +", "#FF0000", true⟩, ⟨⟨2⟩, "sin(", "#00AA00", false⟩,
    ⟨⟨7⟩, "x = 3", "#0000FF", true⟩]
  viewport := .default

/-- The triangle and the first equation are reported, and nothing else. -/
theorem diagnostics_mixed :
    mixed.ids.Nodup ∧ mixed.recompute.diagnostics =
      [.pointCount 1 ⟨.figure .triangle, 1⟩,
        .badEquation ⟨4⟩ ⟨.missingExpression none, ⟨3, 3⟩⟩] := by
  have hids : mixed.ids.Nodup := by decide
  refine ⟨hids, (drawn_or_reported mixed hids).1.trans ?_⟩
  decide +kernel

end Scene

end GlutSketch
