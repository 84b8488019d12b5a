import GlutSketch.Proofs.Command.Effects
import GlutSketch.Proofs.Json.Finite
import GlutSketch.Proofs.Scene.RoundTrip

/-!
# GlutSketch.Proofs.Command.Init

What is read of a new scene.  The scene is written as a text, and later commands
read the same text, whatever else they do first.  It is the scene that was
written as far as the edges of its window are read as they were written; the
settings may have edges that are not, and even edges that JSON cannot hold, in
which case the new scene is not read at all.

* `read?_settingsOn` -- reading the settings changes no text that can be read.
* `load?_save_starter` -- what the text of a new scene is read as.
* `init_reads_back` -- a new scene, and a command that reads it.
* `init_not_loaded` -- a new scene that no command reads.
-/

namespace GlutSketch

open Json (reread?)

/-! ## The text of a new scene -/

/-- JSON has no word for a double that is not finite. -/
theorem Json.reread?_of_not_isFinite {x : Float} (h : x.isFinite = false) : reread? x = none := by
  have hvalue : ∀ negative m, Binary64.ofFloat x ≠ .finite negative m := fun negative m hfinite =>
    Bool.false_ne_true (h.symm.trans (Real64.isFinite_iff_ofFloat.2 ⟨negative, m, hfinite⟩))
  unfold reread? ofFloat
  split
  · next negative m hfinite => exact absurd hfinite (hvalue negative m)
  · rfl

/-- A change of the numbers of a window fails if it fails for one of them. -/
theorem Viewport.mapNumbers?_eq_none_iff {f : Float → Option Float} {v : Viewport} :
    v.mapNumbers? f = none ↔ ∃ x ∈ v.numbers, f x = none := by
  obtain ⟨xMin, xMax, yMin, yMax⟩ := v
  simp only [mapNumbers?, numbers]
  cases h₁ : f xMin <;> cases h₂ : f xMax <;> cases h₃ : f yMin <;> cases h₄ : f yMax <;>
    simp [h₁, h₂, h₃, h₄]

/-- A new scene has no numbers but the edges of its window. -/
theorem Scene.load?_save_starter (v : Viewport) :
    load? (starter v).save = (v.mapNumbers? reread?).map starter := by
  rw [load?_save, starter, mapNumbers?]
  dsimp only
  cases v.mapNumbers? reread? <;> rfl

namespace Command

/-! ## Reading after writing -/

section

variable {base : Option String} {args : List String} {t : FileTree} {path text : String}

/-- Reading the settings changes no text that can be read: they are made only
where there is none. -/
theorem read?_settingsOn (base : Option String) (h : t.read? path = some text) :
    (settingsOn base t).2.read? path = some text := by
  obtain ⟨hgrows, hfiles⟩ := settingsOn_effect base t
  refine hgrows.read? h fun l hplace => Decidable.byContradiction fun hchanged => ?_
  have hnew := hfiles l hchanged
  obtain ⟨l', hplace', htext | ⟨-, s, hspecial, -⟩⟩ := FileTree.read?_eq_some_iff.1 h
  · cases hplace.symm.trans hplace'
    exact hnew.notText text htext
  · cases hplace.symm.trans hplace'
    rw [hnew.notSpecial] at hspecial
    cases hspecial

/-- **New files**: a new scene that was written to a file is read there. -/
theorem read?_of_init {force : Bool} (hargs : readArguments args = .ok (.init path force))
    (hexit : (runOn base args t).1.exitCode = 0)
    (hfile : ∀ l, (runOn base args t).2.locate? path = some l →
      (runOn base args t).2.special? l = none) :
    (runOn base args t).2.read? path =
      some (Scene.starter (settingsOn base t).1.viewport).save := by
  rw [runOn_of_request hargs, Request.run, init, run_bind, run_isThere] at hexit hfile ⊢
  dsimp only at hexit hfile ⊢
  split at hexit
  · cases hexit
  · next hfree =>
    rw [if_neg hfree, run_finish] at hfile ⊢
    rw [run_finish] at hexit
    cases hwrite : FileTree.write? (settingsOn base t).2 path
        (.text (Scene.starter (settingsOn base t).1.viewport).save) with
    | none =>
        rw [hwrite] at hexit
        cases hexit
    | some t' =>
        rw [hwrite] at hfile
        have hgrows := FileTree.grows_write? hwrite
        refine FileTree.read?_of_write? hwrite fun l hplace => ?_
        rw [← hgrows.special?_eq]
        exact hfile l (hgrows.locate? hplace)

/-- The scene at a path as a command finds it, which reads its settings
first. -/
def loadedOn (base : Option String) (path : String) (t : FileTree) : Except Failure Scene :=
  ((loadScene (m := StateM FileTree) path).run (settingsOn base t).2).1

/-- What is loaded from a path is decided by the text that is read there. -/
theorem loadedOn_of_read? (base : Option String) (h : t.read? path = some text) :
    loadedOn base path t =
      match Scene.load? text with
      | none => .error (.parsing path)
      | some s => .ok s := by
  have hread := read?_settingsOn base h
  rw [loadedOn, run_loadScene]
  cases hload : Scene.load? text <;> simp [hread, hload]

/-- **New scenes**: a new scene is read by later commands with each edge of its
window replaced by the number its spelling is read as.  It is the scene that was
written exactly if every edge is read as itself, and it is not accepted exactly
if some edge is not read, as is the case for one that is not finite. -/
theorem init_reads_back {force : Bool} (hargs : readArguments args = .ok (.init path force))
    (hexit : (runOn base args t).1.exitCode = 0)
    (hfile : ∀ l, (runOn base args t).2.locate? path = some l →
      (runOn base args t).2.special? l = none) (base' : Option String) :
    let v := (settingsOn base t).1.viewport
    let loaded := loadedOn base' path (runOn base args t).2
    (runOn base args t).2.read? path = some (Scene.starter v).save ∧
      (∀ v', loaded = .ok (Scene.starter v') ↔ v.mapNumbers? reread? = some v') ∧
      (loaded = .ok (Scene.starter v) ↔ ∀ x ∈ v.numbers, reread? x = some x) ∧
      (loaded = .error (.parsing path) ↔ ∃ x ∈ v.numbers, reread? x = none) ∧
      ∀ x ∈ v.numbers, x.isFinite = false → loaded = .error (.parsing path) := by
  intro v loaded
  have hread := read?_of_init hargs hexit hfile
  have hloaded := loadedOn_of_read? base' hread
  rw [Scene.load?_save_starter] at hloaded
  have hok : ∀ v', loaded = .ok (Scene.starter v') ↔ v.mapNumbers? reread? = some v' := by
    intro v'
    simp only [loaded, hloaded]
    cases v.mapNumbers? reread? <;> simp [Scene.starter]
  have herror : loaded = .error (.parsing path) ↔ ∃ x ∈ v.numbers, reread? x = none := by
    rw [← Viewport.mapNumbers?_eq_none_iff]
    simp only [loaded, hloaded]
    cases v.mapNumbers? reread? <;> simp
  refine ⟨hread, hok, (hok v).trans Viewport.mapNumbers?_eq_some_self_iff, herror, ?_⟩
  intro x hx hfinite
  exact herror.2 ⟨x, hx, Json.reread?_of_not_isFinite hfinite⟩

end

/-- Settings with a window of their own. -/
def narrow : FileTree :=
  .system [("config/vectorgl/config.toml",
    "[viewport]\nx_min = -2.0\nx_max = 2\ny_min = -1.5\ny_max = 0.75\n")]

/-- A new scene has the window of the settings, and is read as it was
written. -/
theorem init_reads_back_narrow :
    (runOn (some "config") ["init", "s.json"] narrow).1.exitCode = 0 ∧
      loadedOn (some "config") "s.json" (runOn (some "config") ["init", "s.json"] narrow).2 =
        .ok (Scene.starter ⟨-2, 2, -1.5, 0.75⟩) := by
  have hargs : readArguments ["init", "s.json"] = .ok (.init "s.json" false) := rfl
  obtain ⟨hexit, hfile⟩ : (runOn (some "config") ["init", "s.json"] narrow).1.exitCode = 0 ∧
      ∀ l ∈ (runOn (some "config") ["init", "s.json"] narrow).2.locate? "s.json",
        (runOn (some "config") ["init", "s.json"] narrow).2.special? l = none := by
    decide +kernel
  have hviewport : (settingsOn (some "config") narrow).1.viewport = ⟨-2, 2, -1.5, 0.75⟩ := by
    decide +kernel
  have hexact : ∀ x ∈ (⟨-2, 2, -1.5, 0.75⟩ : Viewport).numbers, Json.HasExactSpelling x := by
    decide +kernel
  have hback := (init_reads_back hargs hexit hfile (some "config")).2.2.1
  rw [hviewport] at hback
  exact ⟨hexit, hback.2 fun x hx => Json.reread?_of_hasExactSpelling (hexact x hx)⟩

/-- Settings in which a new scene has a window without an end. -/
def endless : FileTree :=
  .system [("config/vectorgl/config.toml",
    "[viewport]\nx_min = -10.0\nx_max = inf\ny_min = -10.0\ny_max = 10.0\n")]

/-- The new scene is written, and is not accepted afterwards. -/
theorem init_not_loaded :
    (runOn (some "config") ["init", "s.json"] endless).1.exitCode = 0 ∧
      (settingsOn (some "config") endless).1.viewport = ⟨-10, Real64.infinity, -10, 10⟩ ∧
      loadedOn (some "config") "s.json" (runOn (some "config") ["init", "s.json"] endless).2 =
        .error (.parsing "s.json") := by
  have hargs : readArguments ["init", "s.json"] = .ok (.init "s.json" false) := rfl
  obtain ⟨hexit, hfile⟩ : (runOn (some "config") ["init", "s.json"] endless).1.exitCode = 0 ∧
      ∀ l ∈ (runOn (some "config") ["init", "s.json"] endless).2.locate? "s.json",
        (runOn (some "config") ["init", "s.json"] endless).2.special? l = none := by
    decide +kernel
  have hviewport : (settingsOn (some "config") endless).1.viewport =
      ⟨-10, Real64.infinity, -10, 10⟩ := by
    decide +kernel
  refine ⟨hexit, hviewport, ?_⟩
  have hnone : Viewport.mapNumbers? reread? ⟨-10, Real64.infinity, -10, 10⟩ = none := by
    have hinfinity := Json.reread?_of_not_isFinite (x := Real64.infinity) rfl
    exact Viewport.mapNumbers?_eq_none_iff.2 ⟨_, by simp [Viewport.numbers], hinfinity⟩
  have hread := read?_of_init hargs hexit hfile
  rw [loadedOn_of_read? _ hread, Scene.load?_save_starter, hviewport, hnone]
  rfl

end Command

end GlutSketch
