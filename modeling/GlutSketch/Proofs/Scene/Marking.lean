import GlutSketch.Command.Run
import GlutSketch.Proofs.Scene.Diagnostics
import GlutSketch.Proofs.Scene.RoundTrip

/-!
# GlutSketch.Proofs.Scene.Marking

Where a warning puts its carets.  A diagnostic knows its function only by its
id, and the line above the carets is the equation of the first function that has
the id.  So the carets are right as long as that function is refused in the same
way, as it is where ids are distinct.  A scene file may repeat an id.

* `Scene.warning_badEquation` -- the line in which a refused equation is marked.
* `Scene.marks_first_of_id` -- which function is marked, and when it is the one
  that is refused.
* `Scene.not_marksFault_twins` -- carets under an equation without a fault.
-/

namespace GlutSketch

/-- Both lines are refused, with the same message and at the same place. -/
def Equation.RefusedAlike (source other : String) : Prop :=
  ∃ e e', classify source = .error e ∧ classify other = .error e' ∧
    e'.display = e.display ∧ e'.span = e.span

namespace Scene

/-- What a diagnostic marks is what is wrong: the function that is looked up by
the id is refused with the message and at the place of the diagnostic. -/
def MarksFault (s : Scene) (d : Diagnostic) : Prop :=
  ∀ id span, d.subject = .function id → d.span = some span →
    ∃ f e, s.function? id = some f ∧ Equation.classify f.expression = .error e ∧
      e.display = d.message ∧ e.span = span

section

variable {s : Scene} {d : Diagnostic} {f g : PlotFunction} {e : Equation.Error} {id : FunctionId}
  {span : Equation.Span}

/-- An expression that is refused is reported with its own error. -/
theorem report?_of_error (v : Viewport) (h : Equation.classify f.expression = .error e) :
    f.report? v = some (.badEquation f.id e) := by
  rw [PlotFunction.report?, h]

/-- Only the diagnostic of a refused equation has a place. -/
theorem eq_badEquation_of_span {v : Viewport} (h : f.report? v = some d)
    (hspan : d.span = some span) :
    ∃ e, Equation.classify f.expression = .error e ∧ d = .badEquation f.id e ∧ e.span = span := by
  unfold PlotFunction.report? at h
  split at h
  · next e hclassify =>
    cases h
    exact ⟨e, hclassify, rfl, by simpa [Diagnostic.span] using hspan⟩
  · split at h
    · cases h
      cases hspan
    · split at h
      · cases h
        cases hspan
      · cases h

/-- A function of a scene is looked up as the first one of its id. -/
theorem exists_function? (hf : f ∈ s.functions) : ∃ g, s.function? f.id = some g := by
  have hfound : (s.function? f.id).isSome := by
    rw [function?, List.find?_isSome]
    exact ⟨f, hf, by simp⟩
  exact Option.isSome_iff_exists.1 hfound

/-- The first function of an id is the one that is found. -/
theorem function?_eq_some_iff :
    s.function? id = some g ↔ g.id = id ∧
      ∃ before after, s.functions = before ++ g :: after ∧ ∀ h ∈ before, h.id ≠ id := by
  simp [function?, List.find?_eq_some_iff_append]

/-- The warning of a refused equation shows the equation that is looked up by
the id. -/
theorem warning_badEquation (h : s.function? id = some g) :
    Command.warning s (.badEquation id e) =
      ["warning: " ++ (Diagnostic.badEquation id e).display, e.span.underline g.expression] := by
  simp [Command.warning, Diagnostic.subject, Diagnostic.span, h]

/-- A refused expression is marked rightly if the function that is found for it
is refused alike. -/
theorem marksFault_badEquation_iff (hclassify : Equation.classify f.expression = .error e) :
    s.MarksFault (.badEquation f.id e) ↔
      ∃ g, s.function? f.id = some g ∧ Equation.RefusedAlike f.expression g.expression := by
  constructor
  · intro h
    obtain ⟨g, e', hg, hclassify', hdisplay, hspan⟩ := h f.id e.span rfl rfl
    exact ⟨g, hg, e, e', hclassify, hclassify', hdisplay, hspan⟩
  · rintro ⟨g, hg, e₀, e', he₀, hclassify', hdisplay, hspan⟩ id span hid hspan'
    cases hid
    cases hspan'
    cases hclassify.symm.trans he₀
    exact ⟨g, e', hg, hclassify', hdisplay, hspan⟩

/-- A diagnostic with a place is about a visible function that is refused. -/
theorem exists_of_span (hd : d ∈ s.recompute.diagnostics) (hsubject : d.subject = .function id)
    (hspan : d.span = some span) :
    s.viewport.IsValid ∧ ∃ f ∈ s.visibleFunctions, ∃ e, f.id = id ∧
      Equation.classify f.expression = .error e ∧ d = .badEquation id e ∧ e.span = span := by
  obtain ⟨hvalid, f, hf, rfl, hreport⟩ := exists_of_mem_diagnostics hd hsubject
  obtain ⟨e, he⟩ := eq_badEquation_of_span hreport hspan
  exact ⟨hvalid, f, hf, e, rfl, he⟩

/-- The warning of a diagnostic with a place shows the equation of the first
function of its id. -/
theorem exists_of_warning (hd : d ∈ s.recompute.diagnostics) (hsubject : d.subject = .function id)
    (hspan : d.span = some span) :
    ∃ before g after, s.functions = before ++ g :: after ∧ g.id = id ∧ (∀ h ∈ before, h.id ≠ id) ∧
      Command.warning s d = ["warning: " ++ d.display, span.underline g.expression] := by
  obtain ⟨-, f, hf, e, rfl, -, rfl, rfl⟩ := exists_of_span hd hsubject hspan
  obtain ⟨g, hg⟩ := exists_function? (visible_of_mem hf).1
  obtain ⟨hid, before, after, hsplit, hfirst⟩ := function?_eq_some_iff.1 hg
  exact ⟨before, g, after, hsplit, hid, hfirst, warning_badEquation hg⟩

/-- In a valid window every visible function that is refused is reported, and
nothing else that has a place. -/
theorem marksFault_iff (s : Scene) :
    (∀ d ∈ s.recompute.diagnostics, s.MarksFault d) ↔
      (s.viewport.IsValid → ∀ f ∈ s.visibleFunctions, ∀ e,
        Equation.classify f.expression = .error e →
        ∃ g, s.function? f.id = some g ∧ Equation.RefusedAlike f.expression g.expression) := by
  constructor
  · intro hmarks hvalid f hf e hclassify
    have hd := mem_diagnostics_of_report? hvalid hf (report?_of_error s.viewport hclassify)
    exact (marksFault_badEquation_iff hclassify).1 (hmarks _ hd)
  · intro halike d hd id span hsubject hspan
    obtain ⟨hvalid, f, hf, e, rfl, hclassify, rfl, -⟩ := exists_of_span hd hsubject hspan
    have hmarks := (marksFault_badEquation_iff hclassify).2 (halike hvalid f hf e hclassify)
    exact hmarks _ _ hsubject hspan

/-- Where ids are distinct, a function is looked up as itself. -/
theorem function?_of_nodup (hids : s.ids.Nodup) (hf : f ∈ s.functions) :
    s.function? f.id = some f := by
  obtain ⟨g, hg⟩ := exists_function? hf
  have hmem : g ∈ s.functions := List.mem_of_find?_eq_some hg
  rw [hg, eq_of_id_eq hids hmem hf (function?_eq_some_iff.1 hg).1]

/-- **Marks**: a diagnostic with a place is about a visible function that is
refused there, and its warning puts the carets under the equation of the first
function of the same id.  They are right for all diagnostics exactly if, in a
valid window, the first function of the id of every visible function that is
refused is refused alike.  Where ids are distinct they always are. -/
theorem marks_first_of_id (s : Scene) :
    (∀ d ∈ s.recompute.diagnostics, ∀ id span, d.subject = .function id → d.span = some span →
      (∃ f ∈ s.visibleFunctions, ∃ e, f.id = id ∧ Equation.classify f.expression = .error e ∧
        d = .badEquation id e ∧ e.span = span) ∧
      ∃ before g after, s.functions = before ++ g :: after ∧ g.id = id ∧ (∀ h ∈ before, h.id ≠ id) ∧
        Command.warning s d = ["warning: " ++ d.display, span.underline g.expression]) ∧
    ((∀ d ∈ s.recompute.diagnostics, s.MarksFault d) ↔
      (s.viewport.IsValid → ∀ f ∈ s.visibleFunctions, ∀ e,
        Equation.classify f.expression = .error e →
        ∃ g, s.function? f.id = some g ∧ Equation.RefusedAlike f.expression g.expression)) ∧
    (s.ids.Nodup → ∀ d ∈ s.recompute.diagnostics, s.MarksFault d) := by
  refine ⟨fun d hd id span hsubject hspan => ⟨?_, exists_of_warning hd hsubject hspan⟩,
    marksFault_iff s, fun hids => (marksFault_iff s).2 fun _ f hf e hclassify => ?_⟩
  · exact (exists_of_span hd hsubject hspan).2
  · exact ⟨f, function?_of_nodup hids (visible_of_mem hf).1, e, e, hclassify, hclassify, rfl, rfl⟩

end

/-- Two functions of one id, of which the second has no end. -/
def twins : Scene :=
  ⟨[], [⟨⟨1⟩, "x = 3", "#FF0000", true⟩, ⟨⟨1⟩, "1 +", "#00FF00", true⟩], .default⟩

/-- The scene is loaded, and the fault of the second equation is marked in the
first one, which has none. -/
theorem not_marksFault_twins :
    load? twins.save = some twins ∧
      ∃ d ∈ twins.recompute.diagnostics, ¬twins.MarksFault d ∧
        Command.warning twins d =
          ["warning: function #1: ParseError at 3: expected expression, found end of input",
            "  x = 3\n     ^"] := by
  have hload : load? twins.save = some twins :=
    load?_save_of_hasExactSpelling (by decide +kernel)
  have hreport : PlotFunction.report? .default ⟨⟨1⟩, "1 +", "#00FF00", true⟩ =
      some (.badEquation ⟨1⟩ ⟨.missingExpression none, ⟨3, 3⟩⟩) := by
    decide +kernel
  have hd : _ ∈ twins.recompute.diagnostics :=
    mem_diagnostics_of_report? (by decide +kernel) (by decide) hreport
  refine ⟨hload, _, hd, fun hmarks => ?_, by decide +kernel⟩
  obtain ⟨f, e, hf, hrefused, -⟩ := hmarks ⟨1⟩ ⟨3, 3⟩ rfl rfl
  cases hf
  have haccepted : (Equation.classify "x = 3").toOption.isSome = true := by decide +kernel
  rw [hrefused] at haccepted
  cases haccepted

end Scene

end GlutSketch
