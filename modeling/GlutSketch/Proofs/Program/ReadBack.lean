import GlutSketch.Program.Synthesis
import GlutSketch.Proofs.Plot.Samples
import GlutSketch.Proofs.Program.Reading

/-!
# GlutSketch.Proofs.Program.ReadBack

A program can be read back: between the fixed lines before and after it, the
body is read as the blocks of what was to be drawn, in order and with nothing in
between but comments and blank lines.

* `readBody?_bodyText` -- the text of items without line ends in their comments.
* `shapeBlocks`, `functionBlocks` -- what is to be drawn, stated without items.
* `synthesize_reads_back` -- the whole program.
-/

namespace GlutSketch

namespace Program

/-! ## One line for each line -/

theorem newline_notMem_callLine {name : String} {args : List String} (hname : IsWord name.toList)
    (hargs : ∀ w ∈ args, IsWord w.toList) : '\n' ∉ (callLine name args).toList := by
  have hchars := notMem_argumentChars (c := '\n') (by decide) (by decide) (by decide) args hargs
  have hname' : '\n' ∉ name.toList := fun hmem => absurd (hname.2 _ hmem) (by decide)
  rw [callLine_toList]
  simp [hchars, hname']

theorem newline_notMem_commentLine {text : String} (h : '\n' ∉ text.toList) :
    '\n' ∉ (commentLine text).toList := by
  simp [commentLine, indent, h]

/-- A pass has no line end but those between its lines. -/
theorem newline_notMem_passLines (p : Pass) : ∀ line ∈ passLines p, '\n' ∉ line.toList := by
  intro line hline
  simp only [passLines, blockLines, List.mem_cons, List.mem_append, List.mem_map,
    Option.mem_toList, List.not_mem_nil, or_false] at hline
  obtain rfl | ⟨pen, -, rfl⟩ | rfl | ⟨v, -, rfl⟩ | rfl := hline
  · exact newline_notMem_callLine (by decide) (by simp [fixed3_isWord])
  · cases pen with
    | lineWidth width => exact newline_notMem_callLine (by decide) (by simp [penText_isWord])
    | pointSize size => exact newline_notMem_callLine (by decide) (by simp [penText_isWord])
  · exact newline_notMem_callLine (by decide) (by simp [Primitive.constant_isWord])
  · have hname : IsWord "glVertex2f".toList := by decide
    have hargs : ∀ w ∈ [fixed3 v.x, fixed3 v.y], IsWord w.toList := by simp [fixed3_isWord]
    simp [vertexLine, indent, newline_notMem_callLine hname hargs]
  · exact newline_notMem_callLine (by decide) (by simp)

/-- The comment of an item stays on its line. -/
def Item.OnLines : Item → Prop
  | .comment text => '\n' ∉ text.toList
  | _ => True

/-- No item is broken across lines that it does not know of. -/
theorem newline_notMem_lines {items : List Item} (h : ∀ item ∈ items, item.OnLines) :
    ∀ line ∈ items.flatMap Item.lines, '\n' ∉ line.toList := by
  intro line hline
  obtain ⟨item, hitem, hmem⟩ := List.mem_flatMap.1 hline
  have honLines := h item hitem
  cases item with
  | comment text =>
      rw [List.mem_singleton.1 hmem]
      exact newline_notMem_commentLine honLines
  | blank =>
      rw [List.mem_singleton.1 hmem]
      decide
  | pass p => exact newline_notMem_passLines p line hmem

/-- **Bodies read back**: the text of items is read back as their blocks. -/
theorem readBody?_bodyText (items : List Item) (h : ∀ item ∈ items, item.OnLines) :
    readBody? (bodyText items) = some (items.filterMap Item.block?) := by
  rw [readBody?, bodyText, splitLines?_unlines _ (newline_notMem_lines h)]
  exact readBlocks?_items items

/-- Numbered entries draw the same blocks whatever their numbers are. -/
theorem blocks_zipIdx {α : Type} {items : Nat → α → List Item} {blocks : α → List Block}
    (h : ∀ index a, (items index a).filterMap Item.block? = blocks a) (entries : List α) (n : Nat) :
    ((entries.zipIdx n).flatMap fun (a, index) => items index a).filterMap Item.block? =
      entries.flatMap blocks := by
  induction entries generalizing n with
  | nil => rfl
  | cons a entries ih =>
      rw [List.zipIdx_cons, List.flatMap_cons, List.filterMap_append, ih, h, List.flatMap_cons]

/-! ## Shapes -/

/-- The blocks of a shape: its fill and its stroke, each if there is one; none
if the shape cannot be drawn. -/
def shapeBlocks (s : Shape) : List Block :=
  match s.tessellate with
  | .error _ => []
  | .ok t => t.fill.toList.map Block.ofPass ++ t.stroke.toList.map Block.ofPass

/-- The blocks that are read from a shape are the passes that draw it. -/
theorem blocks_shapeItems (index : Nat) (s : Shape) :
    (shapeItems index s).filterMap Item.block? = shapeBlocks s := by
  unfold shapeItems shapeBlocks
  cases s.tessellate with
  | error e => rfl
  | ok t =>
      obtain ⟨fill, stroke⟩ := t
      cases fill with
      | none => cases stroke <;> rfl
      | some fill => cases stroke <;> rfl

theorem newline_notMem_toDigits (n : Nat) : '\n' ∉ Nat.toDigits 10 n := by
  intro hmem
  have hdigit : Char.isDigit '\n' :=
    Nat.isDigit_of_mem_toDigits (b := 10) (by decide) (by decide) hmem
  exact absurd hdigit (by decide)

theorem newline_notMem_name (k : ShapeKind) : '\n' ∉ k.name.toList := by
  cases k with
  | figure f => cases f <;> decide
  | arc => decide

/-- The items of a shape keep to their lines. -/
theorem onLines_shapeItems (index : Nat) (s : Shape) :
    ∀ item ∈ shapeItems index s, item.OnLines := by
  intro item hitem
  simp only [shapeItems, List.mem_cons, List.mem_append] at hitem
  cases item with
  | comment text =>
      have htext : text = "Shape " ++ toString (index + 1) ++ ": " ++ s.kind.name := by
        cases ht : s.tessellate <;> simp_all
      rw [htext]
      simp [Item.OnLines, newline_notMem_toDigits, newline_notMem_name]
  | blank => trivial
  | pass p => trivial

/-! ## Functions -/

/-- The line strip through a run of samples. -/
def stripBlock (color : Channels) (run : List Point) : Block where
  color := (fixed3 color.red, fixed3 color.green, fixed3 color.blue)
  pen := some (.lineWidth "2.0f")
  primitive := "GL_LINE_STRIP"
  vertices := run.map fun p =>
    (fixed3 (p.normalize .plotting).x, fixed3 (p.normalize .plotting).y)

/-- The blocks of a function: a line strip for each run of two samples or
more. -/
def functionBlocks (f : SampledFunction) : List Block :=
  ((gapParts f.points).filter (2 ≤ ·.length)).map (stripBlock (Color.ofText f.color).channels)

theorem penText_graphLineWidth : penText graphLineWidth = "2.0f" := by decide +kernel

/-- A run is drawn as one line strip of the color of its function. -/
theorem ofPass_graphPass (color : Channels) (run : List Point) :
    Block.ofPass (graphPass color run) = stripBlock color run := by
  simp [Block.ofPass, BlockPen.ofPen, graphPass, stripBlock, penText_graphLineWidth,
    Primitive.constant, Function.comp_def]

/-- The blocks of a function are its strips. -/
theorem blocks_functionItems (index : Nat) (f : SampledFunction) :
    (functionItems index f).filterMap Item.block? = functionBlocks f := by
  unfold functionItems functionBlocks
  rw [drawableSegments_eq]
  induction (gapParts f.points).filter (2 ≤ ·.length) with
  | nil => rfl
  | cons run runs ih =>
      rw [List.flatMap_cons, List.filterMap_append, ih, List.map_cons, ← ofPass_graphPass]
      rfl

/-- A function without a sample has nothing to draw. -/
theorem functionBlocks_of_not_hasSample {f : SampledFunction} (h : f.hasSample = false) :
    functionBlocks f = [] := by
  have hsegments : splitSegments f.points = [] := SampledFunction.hasSample_eq_false_iff.1 h
  rw [functionBlocks, ← drawableSegments_eq, drawableSegments, hsegments]
  rfl

/-- The blocks of the graphs are those of the functions in order. -/
theorem blocks_graphItems (plotted : List SampledFunction) :
    (graphItems plotted).filterMap Item.block? = plotted.flatMap functionBlocks := by
  unfold graphItems
  cases plotted with
  | nil => rfl
  | cons f plotted => exact blocks_zipIdx blocks_functionItems (f :: plotted) 0

/-- Leaving out the functions without a sample changes no block. -/
theorem flatMap_functionBlocks_filter (sampled : List SampledFunction) :
    (sampled.filter SampledFunction.hasSample).flatMap functionBlocks =
      sampled.flatMap functionBlocks := by
  induction sampled with
  | nil => rfl
  | cons f sampled ih =>
      cases hf : f.hasSample with
      | false =>
          rw [List.filter_cons_of_neg (by simp [hf]), List.flatMap_cons, ih,
            functionBlocks_of_not_hasSample hf, List.nil_append]
      | true => rw [List.filter_cons_of_pos hf, List.flatMap_cons, List.flatMap_cons, ih]

/-- The items of a function keep to their lines. -/
theorem onLines_functionItems (index : Nat) (f : SampledFunction) :
    ∀ item ∈ functionItems index f, item.OnLines := by
  intro item hitem
  obtain ⟨run, -, hmem⟩ := List.mem_flatMap.1 hitem
  simp only [List.mem_cons, List.not_mem_nil, or_false] at hmem
  obtain rfl | rfl | rfl := hmem
  · simp [Item.OnLines, newline_notMem_toDigits]
  · trivial
  · trivial

theorem onLines_graphItems (plotted : List SampledFunction) :
    ∀ item ∈ graphItems plotted, item.OnLines := by
  intro item hitem
  unfold graphItems at hitem
  split at hitem
  · exact absurd hitem List.not_mem_nil
  · cases List.mem_cons.1 hitem with
    | inl h =>
        rw [h]
        simp [Item.OnLines]
    | inr h =>
        obtain ⟨⟨f, index⟩, -, hmem⟩ := List.mem_flatMap.1 h
        exact onLines_functionItems index f item hmem

/-! ## The whole program -/

/-- The blocks of a whole body. -/
theorem blocks_body (shapes : List Shape) (sampled : List SampledFunction) :
    (synthesize shapes sampled).body.filterMap Item.block? =
      shapes.flatMap shapeBlocks ++ sampled.flatMap functionBlocks := by
  unfold synthesize
  rw [List.filterMap_append, blocks_zipIdx blocks_shapeItems, blocks_graphItems,
    flatMap_functionBlocks_filter]

theorem onLines_body (shapes : List Shape) (sampled : List SampledFunction) :
    ∀ item ∈ (synthesize shapes sampled).body, item.OnLines := by
  intro item hitem
  unfold synthesize at hitem
  cases List.mem_append.1 hitem with
  | inl h =>
      obtain ⟨⟨s, index⟩, -, hmem⟩ := List.mem_flatMap.1 h
      exact onLines_shapeItems index s item hmem
  | inr h => exact onLines_graphItems _ item h

end Program

/-- Only a stroke sets a pen, and every stroke does. -/
theorem Outline.tessellate_pen (style : Style) (outline : Outline) :
    (∀ p ∈ (outline.tessellate style).fill, p.pen = none) ∧
      ∀ p ∈ (outline.tessellate style).stroke, p.pen.isSome := by
  have hfill : ∀ inside vertices, ∀ p ∈ style.fillPass inside vertices, p.pen = none := by
    intro inside vertices p hp
    unfold Style.fillPass at hp
    split at hp
    · cases hp
      rfl
    · cases hp
  have hstroke : ∀ edge vertices, ∀ p ∈ style.strokePass edge vertices, p.pen.isSome := by
    intro edge vertices p hp
    unfold Style.strokePass at hp
    split at hp
    · cases hp
      rfl
    · cases hp
  have hnone : ∀ p ∈ (none : Option Pass), p.pen = none := fun p hp => by cases hp
  cases outline with
  | area inside corners => exact ⟨hfill inside corners, hstroke .lineLoop corners⟩
  | sector center edge rim => exact ⟨hfill .triangleFan (center :: rim), hstroke edge rim⟩
  | path vertices => exact ⟨hnone, hstroke .lineStrip vertices⟩
  | segment a b =>
      refine ⟨hnone, fun p hp => ?_⟩
      cases hp
      rfl
  | dots vertices =>
      refine ⟨hnone, fun p hp => ?_⟩
      cases hp
      rfl

/-- **Programs read back**: a program is the fixed lines before its body, a
body, and the fixed lines after it.  Line by line, the body is made of comments,
blank lines and whole blocks, and the blocks are in order those of the shapes,
the fill of each before its stroke, and those of the functions.  A fill sets no
pen and a stroke does. -/
theorem synthesize_reads_back (shapes : List Shape) (sampled : List SampledFunction) :
    ∃ body, (synthesize shapes sampled).program = Program.header ++ body ++ Program.footer ∧
      Program.readBody? body =
        some (shapes.flatMap Program.shapeBlocks ++ sampled.flatMap Program.functionBlocks) ∧
      ∀ s ∈ shapes, ∀ t, s.tessellate = .ok t →
        (∀ p ∈ t.fill, p.pen = none) ∧ ∀ p ∈ t.stroke, p.pen.isSome := by
  refine ⟨Program.bodyText (synthesize shapes sampled).body, rfl, ?_, ?_⟩
  · rw [Program.readBody?_bodyText _ (Program.onLines_body shapes sampled),
      Program.blocks_body]
  · intro s _ t ht
    unfold Shape.tessellate at ht
    cases houtline : s.geometry.outline? with
    | none =>
        rw [houtline] at ht
        cases ht
    | some outline =>
        rw [houtline] at ht
        cases ht
        exact outline.tessellate_pen s.style

end GlutSketch
