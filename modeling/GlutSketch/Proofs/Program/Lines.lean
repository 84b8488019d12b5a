import GlutSketch.Proofs.Program.ReadBack

/-!
# GlutSketch.Proofs.Program.Lines

The lines of a whole program.  What is collected from them line by line comes
from the items of the body alone, if it is of a kind that the fixed lines before
and after the body do not have: a comment, or a call that takes a number for
drawing.

* `splitLines?_program` -- the lines around the body and those of its items.
* `quiet_scaffold` -- what the lines around the body do not have.
* `collect_program` -- what is collected from a program.
* `readLine?_passLines` -- every line of a pass is a call.
-/

namespace GlutSketch.Program

/-! ## The lines around the body -/

/-- The calls that draw or that set how something is drawn. -/
def drawingCalls : List String := ["glColor3f", "glLineWidth", "glPointSize", "glBegin",
  "glVertex2f", "glEnd"]

/-- A line that is no comment and no call that draws; it may not be a line of a
body at all. -/
def IsQuiet (cs : List Char) : Prop :=
  match readLine? cs with
  | some (.comment _) => False
  | some (.call _ name _) => name ∉ drawingCalls
  | _ => True

instance (cs : List Char) : Decidable (IsQuiet cs) := by
  unfold IsQuiet
  split <;> infer_instance

/-- A property of the characters of some lines, one line after the other. -/
theorem forall_mem_ofList_cons {P : List Char → Prop} {cs : List Char} {lines : List String}
    (h : P cs) (hlines : ∀ line ∈ lines, P line.toList) :
    ∀ line ∈ String.ofList cs :: lines, P line.toList := by
  intro line hline
  cases List.mem_cons.1 hline with
  | inl heq =>
      rw [heq, String.toList_ofList]
      exact h
  | inr hmem => exact hlines line hmem

/-- The lines around the body draw nothing and are no comments. -/
theorem quiet_scaffold : ∀ line ∈ headerLines ++ footerLines,
    '\n' ∉ line.toList ∧ IsQuiet line.toList := by
  -- each line is spelled out as a list of characters, which is quick to
  -- evaluate
  repeat
    refine forall_mem_ofList_cons (P := fun cs => '\n' ∉ cs ∧ IsQuiet cs) (by decide +kernel) ?_
  intro line hline
  cases hline

/-- A program is its lines, each with an end. -/
theorem program_eq_unlines (items : List Item) :
    header ++ bodyText items ++ footer =
      unlines (headerLines ++ items.flatMap Item.lines ++ footerLines) := by
  simp [header, bodyText, footer, unlines, String.join_append, String.append_assoc]

/-- The lines of a program. -/
theorem splitLines?_program {items : List Item} (h : ∀ item ∈ items, item.OnLines) :
    splitLines? (header ++ bodyText items ++ footer).toList =
      some ((headerLines ++ items.flatMap Item.lines ++ footerLines).map String.toList) := by
  have hlines : ∀ line ∈ headerLines ++ items.flatMap Item.lines ++ footerLines,
      '\n' ∉ line.toList := by
    intro line hline
    simp only [List.mem_append] at hline
    obtain (hheader | hbody) | hfooter := hline
    · exact (quiet_scaffold line (List.mem_append_left _ hheader)).1
    · exact newline_notMem_lines h line hbody
    · exact (quiet_scaffold line (List.mem_append_right _ hfooter)).1
  rw [program_eq_unlines, splitLines?_unlines _ hlines]

/-- What is collected from the lines of a program comes from its items. -/
theorem collect_program {α : Type} {f : List Char → List α} (hf : ∀ cs, IsQuiet cs → f cs = [])
    {items : List Item} (h : ∀ item ∈ items, item.OnLines) :
    (splitLines? (header ++ bodyText items ++ footer).toList).map (·.flatMap f) =
      some (items.flatMap fun item => item.lines.flatMap (f ·.toList)) := by
  have hscaffold : ∀ line ∈ headerLines ++ footerLines, f line.toList = [] := fun line hline =>
    hf _ (quiet_scaffold line hline).2
  have hheader : headerLines.flatMap (f ·.toList) = [] :=
    List.flatMap_eq_nil_iff.2 fun line hline => hscaffold line (List.mem_append_left _ hline)
  have hfooter : footerLines.flatMap (f ·.toList) = [] :=
    List.flatMap_eq_nil_iff.2 fun line hline => hscaffold line (List.mem_append_right _ hline)
  rw [splitLines?_program h]
  simp [List.flatMap_map, List.flatMap_append, hheader, hfooter, List.flatMap_assoc]

/-! ## The lines of passes -/

/-- The line of a pen is a call that draws. -/
theorem readLine?_penLine (pen : Pen) : ∃ name, name ∈ drawingCalls ∧
    ∃ size, readLine? (penLine pen).toList = some (.call 4 name [size]) := by
  cases pen with
  | lineWidth width =>
      exact ⟨"glLineWidth", by decide, _, readLine?_callLine (by decide) (by simp [penText_isWord])⟩
  | pointSize size =>
      exact ⟨"glPointSize", by decide, _, readLine?_callLine (by decide) (by simp [penText_isWord])⟩

/-- Every line of a pass is a call. -/
theorem readLine?_passLines {p : Pass} {line : String} (h : line ∈ passLines p) :
    ∃ indentation name args, readLine? line.toList = some (.call indentation name args) := by
  simp only [passLines, blockLines, List.mem_cons, List.mem_append, List.mem_map,
    Option.mem_toList, List.not_mem_nil, or_false] at h
  obtain rfl | ⟨pen, -, rfl⟩ | rfl | ⟨v, -, rfl⟩ | rfl := h
  · exact ⟨_, _, _, readLine?_colorLine _⟩
  · obtain ⟨name, -, size, hread⟩ := readLine?_penLine pen
    exact ⟨_, _, _, hread⟩
  · exact ⟨_, _, _, readLine?_callLine (by decide) (by simp [Primitive.constant_isWord])⟩
  · exact ⟨_, _, _, readLine?_vertexLine v⟩
  · exact ⟨_, _, _, readLine?_callLine (by decide) (by simp)⟩

end GlutSketch.Program
