import GlutSketch.Proofs.Equation.Spans

/-!
# GlutSketch.Proofs.Equation.Carets

Where the carets of an error stand.  A rendered error is its message, the
source, and a line of carets that is indented by as many places as the source
has before the error.  A place of the source is counted from its beginning, but
a column from the last line feed before it.

* `Error.toList_render` -- the parts of a rendered error;
* `isBelow_carets_iff` -- the carets stand under the text they are about exactly
  if the source is a single line.
-/

namespace GlutSketch.Equation

/-! ## Lines and columns -/

/-- The line feeds before a place of a text. -/
def lineNumber (text : List Char) (place : Nat) : Nat := (text.take place).count '\n'

/-- The characters between a place of a text and the last line feed before
it. -/
def column (text : List Char) (place : Nat) : Nat :=
  ((text.take place).reverse.takeWhile (· != '\n')).length

/-- The second place is on the line after that of the first, in the same
column. -/
structure IsBelow (text : List Char) (place below : Nat) : Prop where
  nextLine : lineNumber text below = lineNumber text place + 1
  sameColumn : column text below = column text place

section

variable {text front line : List Char} {place : Nat}

/-- A text with a line feed has a last line. -/
theorem exists_lastLine (h : '\n' ∈ text) :
    ∃ front line, text = front ++ '\n' :: line ∧ '\n' ∉ line := by
  obtain ⟨after, before, heq, hafter⟩ := List.eq_append_cons_of_mem (List.mem_reverse.2 h)
  refine ⟨before.reverse, after.reverse, ?_, by simpa using hafter⟩
  rw [← List.reverse_reverse text, heq]
  simp

/-- The column is the length of the last line before the place. -/
theorem column_of_line (h : text.take place = front ++ '\n' :: line) (hline : '\n' ∉ line) :
    column text place = line.length := by
  have hkeep : ∀ c ∈ line.reverse, (c != '\n') = true := by
    intro c hc
    have hne : c ≠ '\n' := fun heq => hline (heq ▸ List.mem_reverse.1 hc)
    simpa using hne
  rw [column, h, List.reverse_append, List.reverse_cons, List.append_assoc,
    List.takeWhile_append_of_pos hkeep]
  simp

end

/-! ## Rendered errors -/

namespace Error

/-- What stands before the source: the message on a line of its own, and the
margin of the source. -/
def heading (e : Error) : List Char := e.display.toList ++ ['\n', ' ', ' ']

/-- The place in a rendered error that shows the character at the beginning of
the span, or where it would be if the span begins at the end of the source. -/
def shownAt (e : Error) : Nat := e.heading.length + e.span.start

/-- The place in a rendered error of the first caret. -/
def caretsAt (e : Error) (source : String) : Nat :=
  e.heading.length + source.length + 3 + e.span.start

/-- The carets below a span. -/
def carets (e : Error) : List Char := List.replicate (max (e.span.stop - e.span.start) 1) '^'

/-- A message is a heading, the source, and below it the carets, indented by two
places and the offset in the source. -/
theorem toList_render (e : Error) (source : String) :
    (e.render source).toList = e.heading ++ source.toList ++
      '\n' :: (List.replicate (2 + e.span.start) ' ' ++ e.carets) := by
  rw [Nat.add_comm 2]
  simp [render, Span.underline, heading, carets, List.replicate_succ]

/-- What stands before the carets is as long as `caretsAt` says. -/
theorem length_before_carets (e : Error) (source : String) :
    (e.heading ++ source.toList ++ '\n' :: List.replicate (2 + e.span.start) ' ').length =
      e.caretsAt source := by
  rw [List.length_append, List.length_append, List.length_cons, List.length_replicate,
    String.length_toList, caretsAt]
  omega

end Error

section

variable {source : String} {err : Error}

/-- What a rendered error has before the place of its span. -/
theorem take_shownAt (h : err.span.start ≤ source.length) :
    (err.render source).toList.take err.shownAt =
      err.heading ++ source.toList.take err.span.start := by
  rw [← String.length_toList] at h
  rw [err.toList_render, Error.shownAt, List.append_assoc, List.take_length_add_append,
    List.take_append_of_le_length h]

/-- What a rendered error has before its carets. -/
theorem take_caretsAt :
    (err.render source).toList.take (err.caretsAt source) =
      err.heading ++ source.toList ++ '\n' :: List.replicate (2 + err.span.start) ' ' := by
  rw [err.toList_render, ← List.cons_append, ← List.append_assoc]
  exact List.take_left' (err.length_before_carets source)

/-- The carets are the end of the message. -/
theorem drop_caretsAt :
    (err.render source).toList.drop (err.caretsAt source) = err.carets := by
  rw [err.toList_render, ← List.cons_append, ← List.append_assoc]
  exact List.drop_left' (err.length_before_carets source)

/-- Above the line of carets, the place of the span is in the last line of the
source exactly if no line feed comes after it. -/
theorem lineNumber_caretsAt_iff (h : err.span.start ≤ source.length) :
    lineNumber (err.render source).toList (err.caretsAt source) =
        lineNumber (err.render source).toList err.shownAt + 1 ↔
      '\n' ∉ source.toList.drop err.span.start := by
  have hsource : source.toList.count '\n' = (source.toList.take err.span.start).count '\n' +
      (source.toList.drop err.span.start).count '\n' := by
    rw [← List.count_append, List.take_append_drop]
  rw [lineNumber, lineNumber, take_caretsAt, take_shownAt h, ← List.count_eq_zero]
  simp [List.count_append, List.count_replicate, hsource]
  omega

/-- The carets are in the column of the span exactly if the span is in the first
line. -/
theorem column_caretsAt_iff (h : err.span.start ≤ source.length) :
    column (err.render source).toList (err.caretsAt source) =
        column (err.render source).toList err.shownAt ↔
      '\n' ∉ source.toList.take err.span.start := by
  have hlength : (source.toList.take err.span.start).length = err.span.start := by
    rw [List.length_take, String.length_toList, Nat.min_eq_left h]
  have hcarets := column_of_line (@take_caretsAt source err) (by simp [List.mem_replicate])
  rw [hcarets, List.length_replicate]
  have hshown := take_shownAt h
  constructor
  · intro heq hbreak
    -- the column of the span is counted from a line feed after its first line
    obtain ⟨front, line, hsplit, hline⟩ := exists_lastLine hbreak
    rw [hsplit, ← List.append_assoc] at hshown
    rw [column_of_line hshown hline] at heq
    have hlonger := congrArg List.length hsplit
    rw [hlength, List.length_append, List.length_cons] at hlonger
    omega
  · intro hbreak
    rw [Error.heading, List.append_assoc, List.cons_append] at hshown
    rw [column_of_line hshown (by simpa using hbreak)]
    simp [hlength]
    omega

/-- **Carets**: a rendered error shows the source below its message, and below
it as many carets as its span has characters, at least one.  They stand under
the text of the span, or just after the source if the span is its end, exactly
if the source has no line feed. -/
theorem isBelow_carets_iff (h : classify source = .error err) :
    (err.render source).toList = err.heading ++ source.toList ++
        '\n' :: (List.replicate (2 + err.span.start) ' ' ++ err.carets) ∧
      (err.render source).toList.drop (err.caretsAt source) = err.carets ∧
      (IsBelow (err.render source).toList err.shownAt (err.caretsAt source) ↔
        '\n' ∉ source.toList) := by
  obtain ⟨hstart, hstop, -⟩ := span_of_classify_eq_error h
  have hle : err.span.start ≤ source.length := Nat.le_trans hstart hstop
  refine ⟨err.toList_render source, drop_caretsAt, ?_⟩
  have hline := lineNumber_caretsAt_iff hle
  have hcolumn := column_caretsAt_iff hle
  have hsplit : '\n' ∉ source.toList ↔ '\n' ∉ source.toList.take err.span.start ∧
      '\n' ∉ source.toList.drop err.span.start := by
    rw [← not_or, ← List.mem_append, List.take_append_drop]
  rw [hsplit]
  constructor
  · intro hbelow
    exact ⟨hcolumn.1 hbelow.sameColumn, hline.1 hbelow.nextLine⟩
  · rintro ⟨hbefore, hafter⟩
    exact ⟨hline.2 hafter, hcolumn.2 hbefore⟩

/-- The carets under an unknown name at the end of a line. -/
theorem isBelow_carets_unknownName :
    ∃ err, classify "x + q" = .error err ∧
      err.render "x + q" =
        "NameError at 4: unknown identifier 'q' (the only variable is x)\n  x + q\n      ^" ∧
      (err.render "x + q").toList.drop (err.caretsAt "x + q") = ['^'] ∧
      IsBelow (err.render "x + q").toList err.shownAt (err.caretsAt "x + q") := by
  have hrefused : classify "x + q" = .error ⟨.unknownIdentifier "q", ⟨4, 5⟩⟩ := by decide +kernel
  obtain ⟨-, hcarets, hbelow⟩ := isBelow_carets_iff hrefused
  exact ⟨_, hrefused, by decide +kernel, hcarets, hbelow.2 (by decide)⟩

/-- In the second of two lines the carets stand where the text would be if the
lines were one. -/
theorem not_isBelow_carets_secondLine :
    ∃ err, classify "x +\n)" = .error err ∧
      err.render "x +\n)" =
        "ParseError at 4: expected expression, found ')'\n  x +\n)\n      ^" ∧
      column (err.render "x +\n)").toList err.shownAt = 0 ∧
      column (err.render "x +\n)").toList (err.caretsAt "x +\n)") = 6 ∧
      ¬ IsBelow (err.render "x +\n)").toList err.shownAt (err.caretsAt "x +\n)") := by
  have hrefused : classify "x +\n)" = .error ⟨.missingExpression (some .rightParen), ⟨4, 5⟩⟩ := by
    decide +kernel
  refine ⟨_, hrefused, by decide +kernel, by decide +kernel, by decide +kernel, ?_⟩
  rintro ⟨-, hcolumn⟩
  revert hcolumn
  decide +kernel

end

end GlutSketch.Equation
