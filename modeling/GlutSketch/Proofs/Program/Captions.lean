import GlutSketch.Proofs.Program.Lines

/-!
# GlutSketch.Proofs.Program.Captions

The comments of a program and what is drawn under each of them.  A body is read
as a list of captions, each with the blocks between it and the next one; the
comments of the whole program are these captions and no others.

* `captions?` -- the captions of a body, with their blocks.
* `comments?` -- the comments of a text.
* `rank` -- the number of a function in its captions.
* `synthesize_captions` -- the captions of a program.
-/

namespace GlutSketch

namespace Program

/-! ## Reading captions -/

/-- The text of a line that is a comment. -/
def comment? (cs : List Char) : Option String :=
  match readLine? cs with
  | some (.comment text) => some text
  | _ => none

/-- The comments of a text. -/
def comments? (text : String) : Option (List String) :=
  (splitLines? text.toList).map (·.flatMap fun cs => (comment? cs).toList)

/-- The lines before the first comment, and each comment with the lines up to
the next one. -/
def underComments : List (List Char) → List (List Char) × List (String × List (List Char))
  | [] => ([], [])
  | cs :: rest =>
      match comment? cs with
      | some text => ([], (text, (underComments rest).1) :: (underComments rest).2)
      | none => (cs :: (underComments rest).1, (underComments rest).2)

/-- The comments of a body, each with the blocks up to the next one; no block
stands before the first. -/
def captions? (text : String) : Option (List (String × List Block)) := do
  let lines ← splitLines? text.toList
  match underComments lines with
  | ([], sections) =>
      sections.mapM fun (caption, below) => (readBlocks? .outside below).map (caption, ·)
  | _ => none

/-! ## Items under captions -/

/-- A caption and the items below it. -/
structure Captioned where
  caption : String
  items : List Item

/-- The caption is written as a comment. -/
def Captioned.toItems (s : Captioned) : List Item := .comment s.caption :: s.items

/-- What is read of a caption and the items below it. -/
def Captioned.read (s : Captioned) : String × List Block :=
  (s.caption, s.items.filterMap Item.block?)

/-- An item that is no comment. -/
def Item.IsBelow : Item → Prop
  | .comment _ => False
  | _ => True

/-- A comment is read back. -/
theorem comment?_commentLine (text : String) : comment? (commentLine text).toList = some text := by
  rw [comment?, readLine?_commentLine]

/-- Nothing below a caption is a comment. -/
theorem comment?_lines {item : Item} (h : item.IsBelow) :
    ∀ line ∈ item.lines, comment? line.toList = none := by
  intro line hline
  cases item with
  | comment text => cases h
  | blank =>
      rw [List.mem_singleton.1 hline]
      decide
  | pass p =>
      obtain ⟨indentation, name, args, hread⟩ := readLine?_passLines hline
      rw [comment?, hread]

/-- Lines that are no comments stay in front. -/
theorem underComments_append {lines : List (List Char)} (h : ∀ cs ∈ lines, comment? cs = none)
    (rest : List (List Char)) :
    underComments (lines ++ rest) = (lines ++ (underComments rest).1, (underComments rest).2) := by
  induction lines with
  | nil => rfl
  | cons cs lines ih => simp_all [underComments]

/-- The lines of items, as they are read. -/
def itemLines (items : List Item) : List (List Char) := (items.flatMap Item.lines).map String.toList

theorem itemLines_append (items items' : List Item) :
    itemLines (items ++ items') = itemLines items ++ itemLines items' := by
  simp [itemLines]

/-- A captioned part is its comment and the lines of its items. -/
theorem itemLines_toItems (s : Captioned) :
    itemLines s.toItems = (commentLine s.caption).toList :: itemLines s.items := by
  simp [itemLines, Captioned.toItems, Item.lines]

/-- Captioned parts in a row are found under their captions. -/
theorem underComments_itemLines {parts : List Captioned}
    (h : ∀ s ∈ parts, ∀ item ∈ s.items, item.IsBelow) :
    underComments (itemLines (parts.flatMap Captioned.toItems)) =
      ([], parts.map fun s => (s.caption, itemLines s.items)) := by
  induction parts with
  | nil => rfl
  | cons s parts ih =>
      have hs : ∀ cs ∈ itemLines s.items, comment? cs = none := by
        intro cs hcs
        obtain ⟨line, hline, rfl⟩ := List.mem_map.1 hcs
        obtain ⟨item, hitem, hmem⟩ := List.mem_flatMap.1 hline
        exact comment?_lines (h s List.mem_cons_self item hitem) line hmem
      have hparts := ih fun s' hs' => h s' (List.mem_cons_of_mem s hs')
      simp [itemLines_append, itemLines_toItems, underComments, comment?_commentLine,
        underComments_append hs, hparts]

/-- **Captions read back**: items under captions are read as captions with
blocks. -/
theorem captions?_bodyText {parts : List Captioned}
    (hbelow : ∀ s ∈ parts, ∀ item ∈ s.items, item.IsBelow)
    (hlines : ∀ item ∈ parts.flatMap Captioned.toItems, item.OnLines) :
    captions? (bodyText (parts.flatMap Captioned.toItems)) = some (parts.map Captioned.read) := by
  have hsplit : splitLines? (bodyText (parts.flatMap Captioned.toItems)).toList =
      some (itemLines (parts.flatMap Captioned.toItems)) :=
    splitLines?_unlines _ (newline_notMem_lines hlines)
  have hread : ∀ s : Captioned, readBlocks? .outside (itemLines s.items) =
      some (s.items.filterMap Item.block?) := fun s => readBlocks?_items s.items
  rw [captions?, hsplit, Option.bind_eq_bind, Option.bind_some, underComments_itemLines hbelow]
  simp only [List.mapM_map, Function.comp_def, hread, Option.map_some]
  exact List.mapM_pure

/-- The comments of an item. -/
def Item.comments : Item → List String
  | .comment text => [text]
  | _ => []

theorem comments_lines (item : Item) :
    item.lines.flatMap (fun line => (comment? line.toList).toList) = item.comments := by
  cases item with
  | comment text => simp [Item.lines, Item.comments, comment?_commentLine]
  | blank => rfl
  | pass p =>
      have hnone : ∀ line ∈ passLines p, comment? line.toList = none :=
        @comment?_lines (.pass p) trivial
      exact List.flatMap_eq_nil_iff.2 fun line hline => by rw [hnone line hline]; rfl

/-- The comments of captioned parts are their captions. -/
theorem comments_toItems {parts : List Captioned}
    (h : ∀ s ∈ parts, ∀ item ∈ s.items, item.IsBelow) :
    (parts.flatMap Captioned.toItems).flatMap Item.comments =
      (parts.map Captioned.read).map Prod.fst := by
  induction parts with
  | nil => rfl
  | cons s parts ih =>
      have hparts := ih fun s' hs' => h s' (List.mem_cons_of_mem s hs')
      have hs : s.items.flatMap Item.comments = [] := by
        refine List.flatMap_eq_nil_iff.2 fun item hitem => ?_
        have hbelow := h s List.mem_cons_self item hitem
        cases item <;> simp_all [Item.IsBelow, Item.comments]
      simp [Captioned.toItems, Captioned.read, Item.comments, hs, ← hparts]

/-- The comments of a program are those of its items. -/
theorem comments?_program {items : List Item} (h : ∀ item ∈ items, item.OnLines) :
    comments? (header ++ bodyText items ++ footer) = some (items.flatMap Item.comments) := by
  have hquiet : ∀ cs, IsQuiet cs → (comment? cs).toList = [] := by
    intro cs hcs
    unfold IsQuiet at hcs
    unfold comment?
    split at hcs <;> simp_all
  have hcollect := collect_program hquiet h
  simp only [comments_lines] at hcollect
  exact hcollect

/-! ## Shapes -/

/-- The part of a body that belongs to a shape. -/
def shapePart (index : Nat) (s : Shape) : Captioned where
  caption := "Shape " ++ toString (index + 1) ++ ": " ++ s.kind.name
  items := (shapeItems index s).tail

/-- A shape is a captioned part. -/
theorem toItems_shapePart (index : Nat) (s : Shape) :
    (shapePart index s).toItems = shapeItems index s := rfl

theorem isBelow_shapePart (index : Nat) (s : Shape) :
    ∀ item ∈ (shapePart index s).items, item.IsBelow := by
  intro item hitem
  cases item with
  | comment text => cases ht : s.tessellate <;> simp [shapePart, shapeItems, ht] at hitem
  | blank => trivial
  | pass p => trivial

/-- The caption of a shape has its number and its kind. -/
theorem read_shapePart (index : Nat) (s : Shape) :
    (shapePart index s).read =
      ("Shape " ++ toString (index + 1) ++ ": " ++ s.kind.name, shapeBlocks s) := by
  rw [← blocks_shapeItems index]
  rfl

/-! ## Functions -/

/-- The part of a body that belongs to a run of a function. -/
def runPart (index : Nat) (f : SampledFunction) (run : List Point) : Captioned where
  caption :=
    "Graph function " ++ toString (index + 1) ++ " - " ++ toString run.length ++ " vertices"
  items := [.pass (graphPass (Color.ofText f.color).channels run), .blank]

theorem isBelow_runPart (index : Nat) (f : SampledFunction) (run : List Point) :
    ∀ item ∈ (runPart index f run).items, item.IsBelow := by
  have hitems : (runPart index f run).items =
      [.pass (graphPass (Color.ofText f.color).channels run), .blank] := rfl
  simp [hitems, Item.IsBelow]

/-- The parts of a body that belong to a function. -/
def functionParts (index : Nat) (f : SampledFunction) : List Captioned :=
  (drawableSegments f.points).map (runPart index f)

/-- A function is a captioned part for each of its strips. -/
theorem toItems_functionParts (index : Nat) (f : SampledFunction) :
    (functionParts index f).flatMap Captioned.toItems = functionItems index f := by
  rw [functionParts, List.flatMap_map]
  rfl

/-- The caption of a line strip of the function of a number. -/
def stripCaption (number : Nat) (b : Block) : String × List Block :=
  ("Graph function " ++ toString number ++ " - " ++ toString b.vertices.length ++ " vertices", [b])

/-- The caption of a strip has the number of its function and that of its
vertices. -/
theorem read_functionParts (index : Nat) (f : SampledFunction) :
    (functionParts index f).map Captioned.read =
      (functionBlocks f).map (stripCaption (index + 1)) := by
  have hrun : ∀ run, (runPart index f run).read =
      stripCaption (index + 1) (stripBlock (Color.ofText f.color).channels run) := by
    intro run
    have hblock : (runPart index f run).items.filterMap Item.block? =
        [stripBlock (Color.ofText f.color).channels run] := by
      rw [← ofPass_graphPass]
      rfl
    have hlength : (stripBlock (Color.ofText f.color).channels run).vertices.length =
        run.length := List.length_map ..
    unfold Captioned.read stripCaption
    rw [hblock, hlength]
    rfl
  simp only [functionParts, functionBlocks, ← drawableSegments_eq, List.map_map,
    Function.comp_def, hrun]

/-- The part of a body that is the heading of the functions, if there are
any. -/
def titleParts (plotted : List SampledFunction) : List Captioned :=
  if plotted.isEmpty then [] else [⟨"Graph plots from mathematical functions", []⟩]

/-! ## Bodies -/

/-- The parts of a body. -/
def bodyParts (shapes : List Shape) (plotted : List SampledFunction) : List Captioned :=
  (shapes.zipIdx.map fun (s, index) => shapePart index s) ++ titleParts plotted ++
    plotted.zipIdx.flatMap fun (f, index) => functionParts index f

/-- A body is made of captioned parts and nothing else. -/
theorem toItems_bodyParts (shapes : List Shape) (sampled : List SampledFunction) :
    (bodyParts shapes (sampled.filter SampledFunction.hasSample)).flatMap Captioned.toItems =
      (synthesize shapes sampled).body := by
  generalize hplotted : sampled.filter SampledFunction.hasSample = plotted
  have hfunctions : (titleParts plotted).flatMap Captioned.toItems ++
      (plotted.zipIdx.flatMap fun (f, index) => functionItems index f) = graphItems plotted := by
    cases plotted <;> rfl
  simp only [bodyParts, synthesize, hplotted, List.flatMap_append, List.flatMap_map,
    List.flatMap_assoc, toItems_shapePart, toItems_functionParts, List.append_assoc, hfunctions]

/-- No part holds a comment but its caption. -/
theorem isBelow_bodyParts (shapes : List Shape) (plotted : List SampledFunction) :
    ∀ part ∈ bodyParts shapes plotted, ∀ item ∈ part.items, item.IsBelow := by
  intro part hpart item hitem
  simp only [bodyParts, titleParts, functionParts, List.mem_append, List.mem_map,
    List.mem_flatMap] at hpart
  obtain (⟨⟨s, index⟩, -, rfl⟩ | htitle) | ⟨⟨f, index⟩, -, run, -, rfl⟩ := hpart
  · exact isBelow_shapePart index s item hitem
  · cases plotted <;> simp_all
  · exact isBelow_runPart index f run item hitem

/-! ## Numbers of functions -/

/-- The number of a function in its captions: how many functions up to it have a
sample. -/
def rank (sampled : List SampledFunction) (index : Nat) : Nat :=
  (sampled.take (index + 1)).countP SampledFunction.hasSample

/-- The captions of shapes. -/
def shapeCaptions (shapes : List Shape) : List (String × List Block) :=
  (shapes.zipIdx 1).map fun (s, number) =>
    ("Shape " ++ toString number ++ ": " ++ s.kind.name, shapeBlocks s)

/-- The caption above all functions. -/
def graphCaption (sampled : List SampledFunction) : List (String × List Block) :=
  if sampled.any SampledFunction.hasSample then [("Graph plots from mathematical functions", [])]
  else []

/-- The captions of functions, one for each line strip. -/
def functionCaptions (sampled : List SampledFunction) : List (String × List Block) :=
  sampled.zipIdx.flatMap fun (f, index) =>
    (functionBlocks f).map (stripCaption (rank sampled index))

/-- The captions of a program. -/
def captions (shapes : List Shape) (sampled : List SampledFunction) : List (String × List Block) :=
  shapeCaptions shapes ++ graphCaption sampled ++ functionCaptions sampled

/-- Counting those with a property up to each entry numbers those entries in a
row. -/
theorem flatMap_zipIdx_rank {α β : Type} {p : α → Bool} {g : Nat → α → List β}
    (hg : ∀ n a, p a = false → g n a = []) (before rest : List α) :
    ((rest.zipIdx before.length).flatMap fun (a, index) =>
        g (((before ++ rest).take (index + 1)).countP p) a) =
      ((rest.filter p).zipIdx (before.countP p)).flatMap fun (a, index) => g (index + 1) a := by
  induction rest generalizing before with
  | nil => rfl
  | cons a rest ih =>
      have hrest := ih (before ++ [a])
      have htake : (before ++ a :: rest).take (before.length + 1) = before ++ [a] := by
        simp [List.take_append, List.take_of_length_le]
      simp only [List.append_assoc, List.singleton_append, List.length_append,
        List.length_singleton, List.countP_append, List.countP_singleton] at hrest
      simp only [List.zipIdx_cons, List.flatMap_cons, hrest, htake, List.countP_append,
        List.countP_singleton]
      cases ha : p a with
      | false => simp [ha, hg]
      | true => simp [ha, List.zipIdx_cons]

/-- The graphs have a title exactly if there is one. -/
theorem read_titleParts (sampled : List SampledFunction) :
    (titleParts (sampled.filter SampledFunction.hasSample)).map Captioned.read =
      graphCaption sampled := by
  unfold titleParts graphCaption
  by_cases h : sampled.any SampledFunction.hasSample
  · have hplotted : (sampled.filter SampledFunction.hasSample).isEmpty = false := by
      simpa [List.isEmpty_eq_false_iff] using h
    rw [hplotted, if_pos h]
    rfl
  · have hplotted : (sampled.filter SampledFunction.hasSample).isEmpty := by simpa using h
    rw [hplotted, if_neg h]
    rfl

/-- What is read of the parts of a body. -/
theorem read_bodyParts (shapes : List Shape) (sampled : List SampledFunction) :
    (bodyParts shapes (sampled.filter SampledFunction.hasSample)).map Captioned.read =
      captions shapes sampled := by
  have hshapes : (shapes.zipIdx.map fun (s, index) => (shapePart index s).read) =
      shapeCaptions shapes := by
    rw [shapeCaptions, List.zipIdx_succ, List.map_map]
    simp only [read_shapePart, Function.comp_def]
  have hfunctions : functionCaptions sampled =
      (sampled.filter SampledFunction.hasSample).zipIdx.flatMap
        fun (f, index) => (functionBlocks f).map (stripCaption (index + 1)) :=
    flatMap_zipIdx_rank (g := fun number f => (functionBlocks f).map (stripCaption number))
      (fun _ _ h => by rw [functionBlocks_of_not_hasSample h]; rfl) [] sampled
  simp only [bodyParts, List.map_append, List.map_map, List.map_flatMap, Function.comp_def,
    read_functionParts, captions, ← hshapes, ← read_titleParts, hfunctions]

end Program

/-- **Captions**: a program has one caption for each shape, numbered in a row,
with what is drawn of it; one above all functions if one of them has a sample;
and one for each line strip of a function, with the number of the function among
those that have a sample and with the number of vertices of the strip, which is
the one block below it. -/
theorem synthesize_captions (shapes : List Shape) (sampled : List SampledFunction) :
    ∃ body, (synthesize shapes sampled).program = Program.header ++ body ++ Program.footer ∧
      Program.captions? body = some (Program.captions shapes sampled) ∧
      Program.comments? (synthesize shapes sampled).program =
        some ((Program.captions shapes sampled).map Prod.fst) := by
  have hlines := Program.onLines_body shapes sampled
  have hbelow := Program.isBelow_bodyParts shapes (sampled.filter SampledFunction.hasSample)
  rw [← Program.read_bodyParts]
  refine ⟨Program.bodyText (synthesize shapes sampled).body, rfl, ?_, ?_⟩
  · rw [← Program.toItems_bodyParts] at hlines ⊢
    exact Program.captions?_bodyText hbelow hlines
  · rw [Synthesis.program, Program.comments?_program hlines, ← Program.toItems_bodyParts,
      Program.comments_toItems hbelow]

/-- A function without samples takes no number, and one with a single sample
takes one without a caption. -/
example : (Program.functionCaptions
    [⟨⟨1⟩, "", [none]⟩, ⟨⟨2⟩, "", [some ⟨0, 0⟩]⟩,
      ⟨⟨3⟩, "", [some ⟨0, 0⟩, some ⟨8, 6⟩]⟩]).map Prod.fst =
      ["Graph function 2 - 2 vertices"] := by
  decide +kernel

end GlutSketch
