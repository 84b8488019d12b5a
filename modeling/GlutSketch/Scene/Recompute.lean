import GlutSketch.Plot.Sampling
import GlutSketch.Program.Synthesis
import GlutSketch.Scene

/-!
# GlutSketch.Scene.Recompute

From a scene to its drawing program.  Every visible function is sampled across
the window of the scene; the diagnostics come in the order of the scene: shapes,
the window, functions.
-/

namespace GlutSketch

/-- The sampled functions of a scene, and what is wrong with the others. -/
structure Samples where
  functions : List SampledFunction
  diagnostics : List Diagnostic
deriving DecidableEq

namespace Scene

/-- The visible functions of a scene. -/
def visibleFunctions (s : Scene) : List PlotFunction := s.functions.filter (·.visible)

/-- A function after sampling, if its equation is accepted. -/
def sampled? (v : Viewport) (f : PlotFunction) : Option SampledFunction := (f.sample v).toOption

/-- What is wrong with the equation of a function. -/
def equationDiagnostic? (v : Viewport) (f : PlotFunction) : Option Diagnostic :=
  match f.sample v with
  | .ok _ => none
  | .error e => some (.badEquation f.id e)

/-- Samples the visible functions, in the order of the list.  If the window is
not valid there is nothing to sample. -/
def sampleAll (s : Scene) : Samples :=
  if s.viewport.IsValid then
    { functions := s.visibleFunctions.filterMap (sampled? s.viewport)
      diagnostics := s.visibleFunctions.filterMap (equationDiagnostic? s.viewport) }
  else ⟨[], [.badViewport s.viewport]⟩

/-- The place of a diagnostic: shapes by index, then the window, then functions
by their place in the list. -/
def rank (s : Scene) (d : Diagnostic) : Nat × Nat :=
  match d.subject with
  | .shape index _ => (0, index)
  | .viewport => (1, 0)
  | .function id => (2, (s.position? id).getD s.functions.length)

/-- A rank comes before another or is equal to it. -/
def rankLe (a b : Nat × Nat) : Bool := a.1 < b.1 || (a.1 == b.1 && a.2 ≤ b.2)

/-- Sorts diagnostics by their place; those with the same place stay in
order. -/
def sortDiagnostics (s : Scene) (ds : List Diagnostic) : List Diagnostic :=
  ds.mergeSort fun a b => rankLe (s.rank a) (s.rank b)

/-- The drawing program of a scene, with all that it had to leave out. -/
def recompute (s : Scene) : Synthesis :=
  let samples := s.sampleAll
  let synthesis := synthesize s.shapes samples.functions
  { synthesis with
    diagnostics := s.sortDiagnostics (samples.diagnostics ++ synthesis.diagnostics) }

end Scene

end GlutSketch
