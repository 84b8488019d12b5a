import GlutSketch.Plot.Segments
import GlutSketch.Proofs.Program.Number

/-!
# GlutSketch.Proofs.Program.Reading

A reader for the body of a program.  It takes a text apart into lines, every
line into a statement with its arguments, and the statements into blocks; it
accepts nothing but comments, blank lines and complete blocks.

* `readLine?` -- a line is blank, a comment, or a call with word arguments.
* `step?` -- what a line does to the block that is being read.
* `readBody?` -- the blocks of a whole body, in order.
* `readBody?_bodyText` -- every body that is written is read back.
-/

namespace GlutSketch.Program

/-! ## Lines of a text -/

/-- The lines of a text, each of them ended. -/
def splitLines? : List Char → Option (List (List Char))
  | [] => some []
  | '\n' :: cs => (splitLines? cs).map ([] :: ·)
  | c :: cs =>
      match splitLines? cs with
      | some (line :: lines) => some ((c :: line) :: lines)
      | _ => none

/-- A line is cut off at its end. -/
theorem splitLines?_append_line {line : List Char} (h : '\n' ∉ line) (rest : List Char) :
    splitLines? (line ++ '\n' :: rest) = (splitLines? rest).map (line :: ·) := by
  induction line with
  | nil => rfl
  | cons c cs ih =>
      have hc : c ≠ '\n' := fun e => h (e ▸ List.mem_cons_self)
      have hcs : '\n' ∉ cs := fun m => h (List.mem_cons_of_mem c m)
      rw [List.cons_append, splitLines?, ih hcs]
      · cases splitLines? rest with
        | none => rfl
        | some lines => rfl
      · exact hc

/-- Lines that are written one after the other are found again. -/
theorem splitLines?_unlines (lines : List String) (h : ∀ line ∈ lines, '\n' ∉ line.toList) :
    splitLines? (unlines lines).toList = some (lines.map String.toList) := by
  induction lines with
  | nil => rfl
  | cons line lines ih =>
      have hline : (unlines (line :: lines)).toList =
          line.toList ++ '\n' :: (unlines lines).toList := by
        simp [unlines, String.toList_join]
      rw [hline, splitLines?_append_line (h line List.mem_cons_self),
        ih fun l hl => h l (List.mem_cons_of_mem line hl)]
      rfl

/-! ## Arguments -/

/-- The parts between the commas, each comma with the blank after it. -/
def splitArguments : List Char → List (List Char)
  | [] => [[]]
  | ',' :: ' ' :: cs => [] :: splitArguments cs
  | c :: cs => extendFirst c (splitArguments cs)

/-- The arguments between two brackets. -/
def readArguments : List Char → List String
  | [] => []
  | c :: cs => (splitArguments (c :: cs)).map String.ofList

theorem splitArguments_cons {c : Char} (h : c ≠ ',') (cs : List Char) :
    splitArguments (c :: cs) = extendFirst c (splitArguments cs) := by
  rw [splitArguments]
  intro cs' hc
  exact absurd hc h

theorem splitArguments_word {cs : List Char} (h : ∀ c ∈ cs, isWordChar c) :
    splitArguments cs = [cs] := by
  induction cs with
  | nil => rfl
  | cons c cs ih =>
      have hc : c ≠ ',' := by
        rintro rfl
        exact absurd (h ',' List.mem_cons_self) (by decide)
      rw [splitArguments_cons hc, ih fun d hd => h d (List.mem_cons_of_mem c hd)]
      rfl

/-- An argument is cut off at its comma. -/
theorem splitArguments_word_append {cs : List Char} (h : ∀ c ∈ cs, isWordChar c)
    (rest : List Char) :
    splitArguments (cs ++ ',' :: ' ' :: rest) = cs :: splitArguments rest := by
  induction cs with
  | nil => rfl
  | cons c cs ih =>
      have hc : c ≠ ',' := by
        rintro rfl
        exact absurd (h ',' List.mem_cons_self) (by decide)
      rw [List.cons_append, splitArguments_cons hc,
        ih fun d hd => h d (List.mem_cons_of_mem c hd)]
      rfl

/-- The characters of arguments with a comma and a blank between each two. -/
def argumentChars (args : List String) : List Char := (", ".intercalate args).toList

theorem argumentChars_cons_cons (a b : String) (args : List String) :
    argumentChars (a :: b :: args) = a.toList ++ ',' :: ' ' :: argumentChars (b :: args) := by
  simp [argumentChars, String.intercalate_cons_cons]

/-- Words are found again between their commas. -/
theorem splitArguments_argumentChars (a : String) (args : List String)
    (h : ∀ w ∈ a :: args, IsWord w.toList) :
    splitArguments (argumentChars (a :: args)) = (a :: args).map String.toList := by
  induction args generalizing a with
  | nil => simpa [argumentChars] using splitArguments_word (h a List.mem_cons_self).2
  | cons b args ih =>
      rw [argumentChars_cons_cons, splitArguments_word_append (h a List.mem_cons_self).2,
        ih b fun w hw => h w (List.mem_cons_of_mem a hw)]
      rfl

/-- The arguments of a call are read back. -/
theorem readArguments_argumentChars (args : List String) (h : ∀ w ∈ args, IsWord w.toList) :
    readArguments (argumentChars args) = args := by
  cases args with
  | nil => rfl
  | cons a args =>
      have hsplit := splitArguments_argumentChars a args h
      cases hchars : argumentChars (a :: args) with
      | nil =>
          rw [hchars] at hsplit
          have ha : a.toList = [] := (List.cons.inj hsplit).1.symm
          exact absurd ha (h a List.mem_cons_self).1
      | cons c cs =>
          rw [hchars] at hsplit
          rw [readArguments, hsplit, List.map_map]
          simp [Function.comp_def]

/-- Between the brackets of a call stand only words, commas and blanks. -/
theorem notMem_argumentChars {c : Char} (hword : ¬ isWordChar c) (hcomma : c ≠ ',')
    (hblank : c ≠ ' ') (args : List String) (h : ∀ w ∈ args, IsWord w.toList) :
    c ∉ argumentChars args := by
  induction args with
  | nil => simp [argumentChars]
  | cons a args ih =>
      have ha : c ∉ a.toList := fun hmem => hword ((h a List.mem_cons_self).2 c hmem)
      cases args with
      | nil => simpa [argumentChars] using ha
      | cons b args =>
          have hrest := ih fun w hw => h w (List.mem_cons_of_mem a hw)
          rw [argumentChars_cons_cons]
          simp [ha, hcomma, hblank, hrest]

/-! ## Lines -/

/-- A line, as it is read: a call has its indentation, its name and its
arguments. -/
inductive Line where
  | blank
  | comment (text : String)
  | call (indentation : Nat) (name : String) (args : List String)
deriving DecidableEq, Repr

/-- A call: a name, arguments in brackets, and a semicolon. -/
def readCall? (indentation : Nat) (code : List Char) : Option Line :=
  match code.dropWhile isWordChar with
  | '(' :: rest =>
      if rest.dropWhile (· ≠ ')') = [')', ';'] then
        some (.call indentation (String.ofList (code.takeWhile isWordChar))
          (readArguments (rest.takeWhile (· ≠ ')'))))
      else none
  | _ => none

/-- What follows the indentation of a line. -/
def readCode? (indentation : Nat) : List Char → Option Line
  | [] => if indentation = 0 then some .blank else none
  | '/' :: '/' :: ' ' :: text => some (.comment (String.ofList text))
  | code => readCall? indentation code

/-- Reads a line, without its end. -/
def readLine? (cs : List Char) : Option Line :=
  readCode? (cs.takeWhile (· = ' ')).length (cs.dropWhile (· = ' '))

theorem readLine?_blank : readLine? "".toList = some .blank := by decide

/-- A comment is read back. -/
theorem readLine?_commentLine (text : String) :
    readLine? (commentLine text).toList = some (.comment text) := by
  simp [readLine?, readCode?, commentLine, indent]

/-- The longest front of one kind ends at the first character of another. -/
theorem span_append {p : Char → Bool} {cs : List Char} (h : ∀ c ∈ cs, p c) {d : Char}
    (hd : p d = false) (rest : List Char) :
    (cs ++ d :: rest).takeWhile p = cs ∧ (cs ++ d :: rest).dropWhile p = d :: rest := by
  rw [List.takeWhile_append_of_pos h, List.dropWhile_append_of_pos h]
  simp [hd]

/-- The characters of a call after its indentation. -/
theorem callLine_toList (name : String) (args : List String) :
    (callLine name args).toList =
      ' ' :: ' ' :: ' ' :: ' ' :: (name.toList ++ '(' :: (argumentChars args ++ [')', ';'])) := by
  simp [callLine, indent, argumentChars]

/-- A call is read back without its indentation. -/
theorem readCall?_call (indentation : Nat) {name : String} {args : List String}
    (hname : IsWord name.toList) (hargs : ∀ w ∈ args, IsWord w.toList) :
    readCall? indentation (name.toList ++ '(' :: (argumentChars args ++ [')', ';'])) =
      some (.call indentation name args) := by
  obtain ⟨hbefore, hafter⟩ := span_append (d := '(') hname.2 (by decide)
    (argumentChars args ++ [')', ';'])
  have hinside : ∀ c ∈ argumentChars args, decide (c ≠ ')') = true := by
    intro c hc
    rw [decide_eq_true_eq]
    rintro rfl
    exact notMem_argumentChars (by decide) (by decide) (by decide) args hargs hc
  obtain ⟨hinner, hclose⟩ := span_append (d := ')') hinside (by decide) [';']
  unfold readCall?
  rw [hafter, hbefore]
  simp only
  rw [hinner, hclose, if_pos rfl, String.ofList_toList, readArguments_argumentChars args hargs]

/-- What does not begin with a slash is a call. -/
theorem readCode?_of_ne {c : Char} (h : c ≠ '/') (indentation : Nat) (cs : List Char) :
    readCode? indentation (c :: cs) = readCall? indentation (c :: cs) := by
  rw [readCode?]
  · simp
  · intro text hc
    exact absurd (List.cons.inj hc).1 h

/-- A call is read with its indentation, since a word begins neither with a
blank nor with a slash. -/
theorem readLine?_code {name : String} {args : List String} (hname : IsWord name.toList)
    (hargs : ∀ w ∈ args, IsWord w.toList) (n : Nat) :
    readLine? (List.replicate n ' ' ++ (name.toList ++ '(' :: (argumentChars args ++ [')', ';']))) =
      some (.call n name args) := by
  have hread := readCall?_call n hname hargs
  obtain ⟨hne, hword⟩ := hname
  cases hchars : name.toList with
  | nil => exact absurd hchars hne
  | cons c cs =>
      rw [hchars] at hread hword
      have hc : isWordChar c := hword c List.mem_cons_self
      have hblank : c ≠ ' ' := by
        rintro rfl
        exact absurd hc (by decide)
      have hslash : c ≠ '/' := by
        rintro rfl
        exact absurd hc (by decide)
      have hblanks : ∀ d ∈ List.replicate n ' ', decide (d = ' ') = true := by
        intro d hd
        rw [List.eq_of_mem_replicate hd]
        rfl
      obtain ⟨hbefore, hafter⟩ := span_append hblanks (by simpa using hblank)
        (cs ++ '(' :: (argumentChars args ++ [')', ';']))
      rw [readLine?, List.cons_append, hbefore, hafter, List.length_replicate,
        readCode?_of_ne hslash, ← List.cons_append, hread]

/-! ## Blocks -/

/-- A pen, as it is spelled. -/
inductive BlockPen where
  | lineWidth (text : String)
  | pointSize (text : String)
deriving DecidableEq, Repr

/-- A block, as it is spelled: its color, its pen if it sets one, its primitive
and its vertices. -/
structure Block where
  color : String × String × String
  pen : Option BlockPen
  primitive : String
  vertices : List (String × String)
deriving DecidableEq, Repr

/-- How far a block has been read. -/
inductive Progress where
  /-- Between blocks. -/
  | outside
  /-- After the color and, if there is one, the pen. -/
  | opened (color : String × String × String) (pen : Option BlockPen)
  /-- Among the vertices. -/
  | inside (block : Block)
deriving DecidableEq, Repr

/-- What a line does; the block is given when its last line is read. -/
def step? : Progress → Line → Option (Progress × Option Block)
  | .outside, .blank => some (.outside, none)
  | .outside, .comment _ => some (.outside, none)
  | .outside, .call 4 "glColor3f" [r, g, b] => some (.opened (r, g, b) none, none)
  | .opened color none, .call 4 "glLineWidth" [w] =>
      some (.opened color (some (.lineWidth w)), none)
  | .opened color none, .call 4 "glPointSize" [s] =>
      some (.opened color (some (.pointSize s)), none)
  | .opened color pen, .call 4 "glBegin" [p] => some (.inside ⟨color, pen, p, []⟩, none)
  | .inside block, .call 8 "glVertex2f" [x, y] =>
      some (.inside { block with vertices := block.vertices ++ [(x, y)] }, none)
  | .inside block, .call 4 "glEnd" [] => some (.outside, some block)
  | _, _ => none

/-- The blocks of some lines; the last line ends the last block. -/
def readBlocks? : Progress → List (List Char) → Option (List Block)
  | .outside, [] => some []
  | _, [] => none
  | progress, cs :: rest => do
      let line ← readLine? cs
      let (next, block?) ← step? progress line
      let blocks ← readBlocks? next rest
      return block?.toList ++ blocks

/-- The blocks of the text of a body. -/
def readBody? (text : String) : Option (List Block) := do
  let lines ← splitLines? text.toList
  readBlocks? .outside lines

/-- A line inside a block or between blocks. -/
theorem readBlocks?_line {progress next : Progress} {cs : List Char} {line : Line}
    (hline : readLine? cs = some line) (hstep : step? progress line = some (next, none))
    (rest : List (List Char)) :
    readBlocks? progress (cs :: rest) = readBlocks? next rest := by
  rw [readBlocks?, hline]
  simp only [Option.bind_eq_bind, Option.bind_some, hstep]
  cases readBlocks? next rest with
  | none => rfl
  | some blocks => rfl

/-- The last line of a block. -/
theorem readBlocks?_last {progress next : Progress} {cs : List Char} {line : Line} {block : Block}
    (hline : readLine? cs = some line) (hstep : step? progress line = some (next, some block))
    (rest : List (List Char)) :
    readBlocks? progress (cs :: rest) = (readBlocks? next rest).map (block :: ·) := by
  rw [readBlocks?, hline]
  simp only [Option.bind_eq_bind, Option.bind_some, hstep]
  cases readBlocks? next rest with
  | none => rfl
  | some blocks => rfl

/-! ## What is written is read -/

/-- The spelling of a pen. -/
def BlockPen.ofPen : Pen → BlockPen
  | .lineWidth width => .lineWidth (penText width)
  | .pointSize size => .pointSize (penText size)

/-- The block of a pass. -/
def Block.ofPass (p : Pass) : Block where
  color := (fixed3 p.color.red, fixed3 p.color.green, fixed3 p.color.blue)
  pen := p.pen.map BlockPen.ofPen
  primitive := p.primitive.constant
  vertices := p.vertices.map fun v => (fixed3 v.x, fixed3 v.y)

/-- The line of a call is read back. -/
theorem readLine?_callLine {name : String} {args : List String} (hname : IsWord name.toList)
    (hargs : ∀ w ∈ args, IsWord w.toList) :
    readLine? (callLine name args).toList = some (.call 4 name args) := by
  rw [callLine_toList]
  exact readLine?_code hname hargs 4

/-- The line of a color is read back. -/
theorem readLine?_colorLine (c : Channels) :
    readLine? (colorLine c).toList =
      some (.call 4 "glColor3f" [fixed3 c.red, fixed3 c.green, fixed3 c.blue]) :=
  readLine?_callLine (by decide) (by simp [fixed3_isWord])

/-- The line of a vertex is read back. -/
theorem readLine?_vertexLine (v : Ndc) :
    readLine? (vertexLine v).toList = some (.call 8 "glVertex2f" [fixed3 v.x, fixed3 v.y]) := by
  have hargs : ∀ w ∈ [fixed3 v.x, fixed3 v.y], IsWord w.toList := by simp [fixed3_isWord]
  have hname : IsWord "glVertex2f".toList := by decide
  have hread := readLine?_code hname hargs 8
  rw [vertexLine, String.toList_append, callLine_toList]
  exact hread

/-- The primitives are spelled in words. -/
theorem Primitive.constant_isWord (p : Primitive) : IsWord p.constant.toList := by
  cases p <;> decide

/-- Vertices are added to the block that is open. -/
theorem readBlocks?_vertices (block : Block) (vertices : List Ndc) (rest : List (List Char)) :
    readBlocks? (.inside block) (vertices.map (fun v => (vertexLine v).toList) ++ rest) =
      readBlocks? (.inside { block with
        vertices := block.vertices ++ vertices.map fun v => (fixed3 v.x, fixed3 v.y) }) rest := by
  induction vertices generalizing block with
  | nil => simp
  | cons v vertices ih =>
      rw [List.map_cons, List.cons_append, readBlocks?_line (readLine?_vertexLine v) rfl, ih]
      simp

/-- After the color and the pen comes a block of vertices. -/
theorem readBlocks?_blockLines (color : String × String × String) (pen : Option BlockPen)
    (primitive : Primitive) (vertices : List Ndc) (rest : List (List Char)) :
    readBlocks? (.opened color pen)
        ((blockLines primitive vertices).map String.toList ++ rest) =
      (readBlocks? .outside rest).map
        (⟨color, pen, primitive.constant,
          vertices.map fun v => (fixed3 v.x, fixed3 v.y)⟩ :: ·) := by
  have hbegin : readLine? (callLine "glBegin" [primitive.constant]).toList =
      some (.call 4 "glBegin" [primitive.constant]) :=
    readLine?_callLine (by decide) (by simp [Primitive.constant_isWord])
  have hend : readLine? (callLine "glEnd" []).toList = some (.call 4 "glEnd" []) :=
    readLine?_callLine (by decide) (by simp)
  have hstep : step? (.opened color pen) (.call 4 "glBegin" [primitive.constant]) =
      some (.inside ⟨color, pen, primitive.constant, []⟩, none) := by
    cases pen <;> rfl
  simp only [blockLines, List.map_cons, List.map_append, List.map_map, List.map_nil,
    List.cons_append, List.append_assoc, List.nil_append]
  rw [readBlocks?_line hbegin hstep]
  exact (readBlocks?_vertices _ vertices _).trans (readBlocks?_last hend rfl rest)

/-- The line of a pen is read where no pen is set. -/
theorem readBlocks?_penLine (color : String × String × String) (pen : Pen)
    (rest : List (List Char)) :
    readBlocks? (.opened color none) ((penLine pen).toList :: rest) =
      readBlocks? (.opened color (some (.ofPen pen))) rest := by
  cases pen with
  | lineWidth width =>
      have hline : readLine? (penLine (.lineWidth width)).toList =
          some (.call 4 "glLineWidth" [penText width]) :=
        readLine?_callLine (by decide) (by simp [penText_isWord])
      rw [readBlocks?_line hline rfl]
      rfl
  | pointSize size =>
      have hline : readLine? (penLine (.pointSize size)).toList =
          some (.call 4 "glPointSize" [penText size]) :=
        readLine?_callLine (by decide) (by simp [penText_isWord])
      rw [readBlocks?_line hline rfl]
      rfl

/-- A pass is read as its block. -/
theorem readBlocks?_passLines (p : Pass) (rest : List (List Char)) :
    readBlocks? .outside ((passLines p).map String.toList ++ rest) =
      (readBlocks? .outside rest).map (Block.ofPass p :: ·) := by
  obtain ⟨primitive, color, pen, vertices⟩ := p
  rw [passLines, List.map_cons, List.cons_append, readBlocks?_line (readLine?_colorLine color) rfl]
  cases pen with
  | none => exact readBlocks?_blockLines _ none primitive vertices rest
  | some pen =>
      simp only [Option.toList_some, List.map_cons, List.map_nil, List.cons_append,
        List.nil_append]
      rw [readBlocks?_penLine]
      exact readBlocks?_blockLines _ (some (.ofPen pen)) primitive vertices rest

/-! ## Bodies -/

/-- The block of an item, if it draws. -/
def Item.block? : Item → Option Block
  | .pass p => some (Block.ofPass p)
  | _ => none

/-- The lines of items are read as their blocks. -/
theorem readBlocks?_items (items : List Item) :
    readBlocks? .outside ((items.flatMap Item.lines).map String.toList) =
      some (items.filterMap Item.block?) := by
  induction items with
  | nil => rfl
  | cons item items ih =>
      rw [List.flatMap_cons, List.map_append]
      cases item with
      | comment text =>
          rw [Item.lines, List.map_cons, List.map_nil, List.cons_append, List.nil_append,
            readBlocks?_line (readLine?_commentLine text) rfl, ih]
          rfl
      | blank =>
          rw [Item.lines, List.map_cons, List.map_nil, List.cons_append, List.nil_append,
            readBlocks?_line readLine?_blank rfl, ih]
          rfl
      | pass p =>
          rw [Item.lines, readBlocks?_passLines, ih]
          rfl

end GlutSketch.Program
