import GlutSketch.Program.Synthesis

/-!
# GlutSketch.Proofs.Program.Sections

The text of a program, section by section.  Every shape has a section of its
own, a heading with its number and below it what is drawn of it; the graphs come
after the last of them.  Only the heading depends on the place of the shape.

* `Program.sections` -- the sections of shapes that are numbered in a row.
* `Program.sections_insertIdx` -- one section more, and what comes after it is
  renumbered.
* `synthesize_program` -- the whole text.
-/

namespace GlutSketch

namespace Program

/-- The text of a body is put together item by item. -/
theorem bodyText_append (items items' : List Item) :
    bodyText (items ++ items') = bodyText items ++ bodyText items' := by
  simp [bodyText, unlines, String.join_append]

theorem bodyText_cons (item : Item) (items : List Item) :
    bodyText (item :: items) = bodyText [item] ++ bodyText items :=
  bodyText_append [item] items

theorem bodyText_comment (text : String) : bodyText [.comment text] = commentLine text ++ "\n" := by
  simp [bodyText, unlines, Item.lines]

/-! ## Shapes -/

/-- The line above a shape. -/
def heading (number : Nat) (kind : ShapeKind) : String :=
  commentLine ("Shape " ++ toString number ++ ": " ++ kind.name) ++ "\n"

/-- The heading of a shape, written out. -/
theorem heading_eq (number : Nat) (kind : ShapeKind) :
    heading number kind = "    // Shape " ++ toString number ++ ": " ++ kind.name ++ "\n" := by
  have hfront : "    // Shape " = indent ++ "// " ++ "Shape " := by decide
  rw [heading, commentLine, hfront]
  simp only [String.append_assoc]

/-- The text below the heading of a shape: its passes, if it can be drawn, and a
blank line. -/
def drawing (s : Shape) : String :=
  match s.tessellate with
  | .error _ => "\n"
  | .ok t =>
      bodyText ((t.fill.toList.flatMap fun p => [.pass p, .blank]) ++
          t.stroke.toList.map Item.pass) ++
        "\n"

/-- The sections of shapes, the first of which has a number. -/
def sections (number : Nat) : List Shape → String
  | [] => ""
  | s :: shapes => heading number s.kind ++ drawing s ++ sections (number + 1) shapes

/-- A shape is its heading and what is drawn of it. -/
theorem bodyText_shapeItems (index : Nat) (s : Shape) :
    bodyText (shapeItems index s) = heading (index + 1) s.kind ++ drawing s := by
  have hblank : bodyText [.blank] = "\n" := by decide
  rw [shapeItems, bodyText_cons, bodyText_comment, ← heading, bodyText_append, hblank, drawing]
  cases s.tessellate with
  | error e => rfl
  | ok t => rfl

/-- The text of the shapes is that of their sections. -/
theorem bodyText_shapes (index : Nat) (shapes : List Shape) :
    bodyText ((shapes.zipIdx index).flatMap fun (s, index) => shapeItems index s) =
      sections (index + 1) shapes := by
  induction shapes generalizing index with
  | nil => rfl
  | cons s shapes ih =>
      rw [List.zipIdx_cons, List.flatMap_cons, bodyText_append, bodyText_shapeItems, ih, sections]

/-- Shapes after others go on with the numbers. -/
theorem sections_append (number : Nat) (shapes shapes' : List Shape) :
    sections number (shapes ++ shapes') =
      sections number shapes ++ sections (number + shapes.length) shapes' := by
  induction shapes generalizing number with
  | nil => simp [sections]
  | cons s shapes ih => simp [sections, ih, String.append_assoc, Nat.add_comm, Nat.add_left_comm]

/-- The sections before a place and after it. -/
theorem sections_take_drop {shapes : List Shape} {i : Nat} (hi : i ≤ shapes.length) (number : Nat) :
    sections number shapes =
      sections number (shapes.take i) ++ sections (number + i) (shapes.drop i) := by
  have happend := sections_append number (shapes.take i) (shapes.drop i)
  rwa [List.take_append_drop, List.length_take_of_le hi] at happend

/-- A shape more is a section more, and the numbers after it go up by one. -/
theorem sections_insertIdx {shapes : List Shape} {i : Nat} (hi : i ≤ shapes.length) (number : Nat)
    (s : Shape) :
    sections number (shapes.insertIdx i s) =
      sections number (shapes.take i) ++ (heading (number + i) s.kind ++ drawing s) ++
        sections (number + i + 1) (shapes.drop i) := by
  induction shapes generalizing i number with
  | nil =>
      obtain rfl : i = 0 := by simpa using hi
      rfl
  | cons first shapes ih =>
      cases i with
      | zero => simp [sections, String.append_assoc]
      | succ i =>
          have hrest := ih (Nat.le_of_succ_le_succ hi) (number + 1)
          have hnumber : number + (i + 1) = number + 1 + i := by omega
          simp [sections, hrest, hnumber, String.append_assoc]

/-- Without the right number of points there is nothing below the heading. -/
theorem drawing_of_error {s : Shape} {e : PointCountError} (h : s.tessellate = .error e) :
    drawing s = "\n" := by
  rw [drawing, h]

end Program

/-! ## The whole program -/

/-- The fixed lines before the body, the shapes, the graphs, and the fixed lines
after it. -/
theorem synthesize_program (shapes : List Shape) (sampled : List SampledFunction) :
    (synthesize shapes sampled).program =
      Program.header ++ (Program.sections 1 shapes ++
        Program.bodyText (Program.graphItems (sampled.filter SampledFunction.hasSample))) ++
      Program.footer := by
  rw [Synthesis.program, synthesize, Program.bodyText_append, Program.bodyText_shapes]

end GlutSketch
