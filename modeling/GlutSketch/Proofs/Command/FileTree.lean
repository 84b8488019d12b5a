import GlutSketch.Command.FileTree

/-!
# GlutSketch.Proofs.Command.FileTree

What changes to a tree of files leave alone.  A tree only grows: a folder stays
a folder, and a path that leads to a place goes on to lead there.  A write
changes one file, which holds afterwards what was written.

* `FileTree.Grows` -- the second tree has all places of the first.
* `FileTree.write?_eq_some_iff` -- what a write does.
* `FileTree.read?_of_write?` -- a text that is written to a file is read there.
-/

namespace GlutSketch

namespace FileTree

variable {t t' t'' : FileTree} {l place : Location} {path : String} {content : FileContent}
  {text : String}

/-! ## Files -/

/-- A file that is set is there. -/
theorem file?_setFile_self (t : FileTree) (l : Location) (content : FileContent) :
    (t.setFile l content).file? l = some content := by
  simp [setFile, file?]

/-- Every other file stays as it was. -/
theorem file?_setFile_of_ne (t : FileTree) (content : FileContent) (h : place ≠ l) :
    (t.setFile l content).file? place = t.file? place := by
  have hlookup : ∀ files : List (Location × FileContent),
      (files.filter fun file => file.1 != l).lookup place = files.lookup place := by
    intro files
    induction files with
    | nil => rfl
    | cons entry files ih =>
        obtain ⟨other, kept⟩ := entry
        by_cases hother : other = l
        · subst hother
          simpa [List.lookup_cons, beq_false_of_ne h] using ih
        · simp [List.lookup_cons, hother, ih]
  simpa [setFile, file?, List.lookup_cons, beq_false_of_ne h] using hlookup t.files

/-! ## Growing -/

/-- Whatever there is of folders and special places in a tree there is in the
other. -/
structure Grows (t t' : FileTree) : Prop where
  workingFolder : t'.workingFolder = t.workingFolder
  specials : t'.specials = t.specials
  isFolder : ∀ l, t.isFolder l → t'.isFolder l

theorem Grows.refl (t : FileTree) : t.Grows t := ⟨rfl, rfl, fun _ h => h⟩

theorem Grows.trans (h : t.Grows t') (h' : t'.Grows t'') : t.Grows t'' where
  workingFolder := h'.workingFolder.trans h.workingFolder
  specials := h'.specials.trans h.specials
  isFolder l hl := h'.isFolder l (h.isFolder l hl)

/-- A tree whose files and folders have all places of the other one's. -/
theorem Grows.of_places (hworking : t'.workingFolder = t.workingFolder)
    (hspecials : t'.specials = t.specials) (hfolders : t.folders ⊆ t'.folders)
    (hfiles : ∀ file ∈ t.files, file.1 ∈ t'.files.map Prod.fst) : t.Grows t' := by
  refine ⟨hworking, hspecials, fun l hl => ?_⟩
  simp only [FileTree.isFolder, Bool.or_eq_true, decide_eq_true_eq, List.any_eq_true] at hl ⊢
  rcases hl with ((hroot | ⟨folder, hfolder, hl⟩) | ⟨file, hfile, hl⟩) | hspecial
  · exact .inl (.inl (.inl hroot))
  · exact .inl (.inl (.inr ⟨folder, hfolders hfolder, hl⟩))
  · obtain ⟨file', hfile', hplace⟩ := List.mem_map.1 (hfiles file hfile)
    exact .inl (.inr ⟨file', hfile', hplace ▸ hl⟩)
  · exact .inr (hspecials ▸ hspecial)

/-- Setting a file takes no folder and no special place away. -/
theorem grows_setFile (t : FileTree) (l : Location) (content : FileContent) :
    t.Grows (t.setFile l content) := by
  refine .of_places rfl rfl (List.Subset.refl _) fun file hfile => ?_
  by_cases hplace : file.1 = l
  · simp [setFile, hplace]
  · have hkept : file ∈ t.files.filter fun file => file.1 != l := by
      simpa using ⟨hfile, hplace⟩
    exact List.mem_map_of_mem (List.mem_cons_of_mem _ hkept)

section

variable (h : t.Grows t')
include h

theorem Grows.special?_eq (l : Location) : t'.special? l = t.special? l := by
  rw [special?, h.specials, special?]

/-- A path that leads somewhere still leads there. -/
theorem Grows.follow? {parts : List (List Char)} (hl : t.follow? place parts = some l) :
    t'.follow? place parts = some l := by
  fun_induction t.follow? place parts with
  | case1 => exact hl
  | case2 place part rest hstay ih => simpa [FileTree.follow?, hstay] using ih hl
  | case3 place rest hstay ih => simpa [FileTree.follow?, hstay] using ih hl
  | case4 place part hstay hup next => simpa [FileTree.follow?, hstay, hup] using hl
  | case5 place part rest hstay hup next hlast hfolder ih =>
      have hfolder' : t'.isFolder (place ++ [part]) = true := h.isFolder _ hfolder
      simpa [FileTree.follow?, hstay, hup, hlast, hfolder'] using ih hl
  | case6 => cases hl

/-- A path that leads to a place goes on to lead there. -/
theorem Grows.locate? (hl : t.locate? path = some l) : t'.locate? path = some l := by
  have hstart : t'.start path = t.start path := by rw [start, h.workingFolder, start]
  unfold FileTree.locate? at hl ⊢
  split at hl
  · next husable =>
    rw [if_pos husable, hstart]
    exact h.follow? hl
  · cases hl

end

/-! ## Reading -/

/-- A text is read from a file that holds it, or from a special place that gives
it. -/
theorem read?_eq_some_iff :
    t.read? path = some text ↔ ∃ l, t.locate? path = some l ∧
      (t.file? l = some (.text text) ∨ t.file? l = none ∧
        ∃ s, t.special? l = some s ∧ s.text = some text) := by
  unfold read?
  cases t.locate? path with
  | none => simp
  | some l =>
      cases hfile : t.file? l with
      | none => simp [hfile, Option.bind_eq_some_iff]
      | some content => cases content <;> simp [hfile]

/-- A text is read as before as long as its file stays as it was. -/
theorem Grows.read? (h : t.Grows t') (hread : t.read? path = some text)
    (hfile : ∀ l, t.locate? path = some l → t'.file? l = t.file? l) :
    t'.read? path = some text := by
  obtain ⟨l, hl, htext⟩ := read?_eq_some_iff.1 hread
  refine read?_eq_some_iff.2 ⟨l, h.locate? hl, ?_⟩
  rwa [hfile l hl, h.special?_eq]

/-! ## Changes -/

/-- A special place keeps nothing that is written to it. -/
theorem feed?_eq_some {sink : Sink} (h : t.feed? content sink = some t') :
    t'.files = t.files ∧ t'.folders = t.folders ∧ t'.specials = t.specials ∧
      t'.workingFolder = t.workingFolder := by
  cases sink <;> cases h <;> exact ⟨rfl, rfl, rfl, rfl⟩

/-- **Writes**: a write sets the file at its path, unless there is a special
place. -/
theorem write?_eq_some_iff :
    t.write? path content = some t' ↔ ∃ l, t.locate? path = some l ∧ t.isFolder l = false ∧
      ((t.special? l = none ∧ t' = t.setFile l content) ∨
        ∃ s, t.special? l = some s ∧ t.feed? content s.sink = some t') := by
  unfold write?
  cases t.locate? path with
  | none => simp
  | some l =>
      cases hfolder : t.isFolder l with
      | true => simp [hfolder]
      | false => cases hspecial : t.special? l <;> simp [hfolder, hspecial, eq_comm (b := t')]

/-- A write keeps what there is of folders and special places. -/
theorem grows_write? (h : t.write? path content = some t') : t.Grows t' := by
  obtain ⟨l, -, -, ⟨-, rfl⟩ | ⟨s, -, hfeed⟩⟩ := write?_eq_some_iff.1 h
  · exact t.grows_setFile l content
  · obtain ⟨hfiles, hfolders, hspecials, hworking⟩ := feed?_eq_some hfeed
    exact .of_places hworking hspecials (hfolders ▸ List.Subset.refl _) fun file hfile =>
      List.mem_map_of_mem (hfiles ▸ hfile)

/-- The only file that a write changes is the one at its path, where there has
been no folder and is no special place. -/
theorem file?_write? (h : t.write? path content = some t') (hchanged : t'.file? l ≠ t.file? l) :
    t.locate? path = some l ∧ t.isFolder l = false ∧ t.special? l = none ∧
      t'.file? l = some content := by
  obtain ⟨place, hplace, hfolder, ⟨hspecial, rfl⟩ | ⟨s, -, hfeed⟩⟩ := write?_eq_some_iff.1 h
  · by_cases hl : l = place
    · subst hl
      exact ⟨hplace, hfolder, hspecial, t.file?_setFile_self l content⟩
    · exact absurd (t.file?_setFile_of_ne content hl) hchanged
  · exact absurd (by rw [file?, (feed?_eq_some hfeed).1, file?]) hchanged

/-- A text that is written to a file is read there. -/
theorem read?_of_write? (h : t.write? path (.text text) = some t')
    (hspecial : ∀ l, t.locate? path = some l → t.special? l = none) :
    t'.read? path = some text := by
  obtain ⟨l, hl, -, ⟨-, rfl⟩ | ⟨s, hs, -⟩⟩ := write?_eq_some_iff.1 h
  · have hfile := t.file?_setFile_self l (.text text)
    exact read?_eq_some_iff.2 ⟨l, (t.grows_setFile l _).locate? hl, .inl hfile⟩
  · rw [hspecial l hl] at hs
    cases hs

/-- A new folder changes no file. -/
theorem makeFolder?_eq_some (h : t.makeFolder? path = some t') :
    t.Grows t' ∧ ∀ l, t'.file? l = t.file? l := by
  unfold makeFolder? at h
  simp only at h
  split at h
  · cases h
  · cases h
    refine ⟨.of_places rfl rfl (List.subset_append_left _ _) fun file hfile => ?_, fun _ => rfl⟩
    exact List.mem_map_of_mem hfile

end FileTree

end GlutSketch
