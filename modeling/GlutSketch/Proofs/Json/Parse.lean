import GlutSketch.Proofs.Json.Scalar

/-!
# GlutSketch.Proofs.Json.Parse

A value that is written is read back as the value.  The automaton goes through
the text of a value from the state in which a value has to come to the state in
which this value is complete; what is open around it and what follows it do not
matter.

* `IsWritable` -- the strings are texts, and the numbers are spelled as they
  have to be.
* `run?_pretty` -- one value, inside open containers.
* `parse?_print` -- a whole text.
-/

namespace GlutSketch.Json

/-! ## Writable values -/

mutual

/-- A value that can be written: its strings and names are texts, and its
numbers are spelled as they have to be. -/
def IsWritable : Json → Prop
  | null => True
  | bool _ => True
  | number n => n.IsSpelled
  | string text => text.isSome
  | array elements => AreWritable elements
  | object members => AreWritableMembers members

/-- All elements of an array can be written. -/
def AreWritable : List Json → Prop
  | [] => True
  | v :: rest => v.IsWritable ∧ AreWritable rest

/-- All members of an object can be written. -/
def AreWritableMembers : List (Option String × Json) → Prop
  | [] => True
  | (name, v) :: rest => name.isSome ∧ v.IsWritable ∧ AreWritableMembers rest

end

/-! ## Steps -/

namespace State

theorem run?_nil (s : State) : s.run? [] = some s := by
  rw [run?]

/-- White space between tokens is passed. -/
theorem run?_blank (s : State) {c : Char} (h : isBlank c) (rest : List Char) :
    s.run? (c :: rest) = s.run? rest := by
  rw [run?, if_pos h]

/-- A token at the front is a step. -/
theorem run?_token {s next : State} {c : Char} {cs after : List Char} {t : Token}
    (hblank : isBlank c = false) (hscan : scan? (c :: cs) = some (t, after))
    (hstep : s.step? t = some next) : s.run? (c :: cs) = next.run? after := by
  rw [run?, if_neg (by rw [hblank]; decide)]
  split
  · next hnone =>
      rw [hscan] at hnone
      cases hnone
  · next t' after' hsome =>
      rw [hscan] at hsome
      cases hsome
      rw [hstep]

/-- Two states go on alike if they make the same step. -/
theorem run?_congr {s s' : State} {c : Char} {cs : List Char} (hblank : isBlank c = false)
    (h : ∀ t after, scan? (c :: cs) = some (t, after) → s.step? t = s'.step? t) :
    s.run? (c :: cs) = s'.run? (c :: cs) := by
  rw [run?, run?, if_neg (by rw [hblank]; decide), if_neg (by rw [hblank]; decide)]
  split
  · rfl
  · next t after hscan => rw [h t after hscan]

theorem run?_newLine (s : State) (depth : Nat) (rest : List Char) :
    s.run? (newLine depth ++ rest) = s.run? rest := by
  have hblanks : ∀ k, s.run? (List.replicate k ' ' ++ rest) = s.run? rest := by
    intro k
    induction k with
    | zero => rfl
    | succ k ih => rw [List.replicate_succ, List.cons_append, run?_blank s (by decide), ih]
  rw [newLine, List.cons_append, run?_blank s (by decide), hblanks]

end State

/-- In a written text every value is followed by a comma, by a new line, or by
nothing. -/
def EndsValue (cs : List Char) : Prop := ∀ c ∈ cs.head?, c = ',' ∨ c = '\n'

theorem EndsValue.endsNumber {cs : List Char} (h : EndsValue cs) : EndsNumber cs := by
  intro c hc
  cases h c hc with
  | inl h => rw [h]; decide
  | inr h => rw [h]; decide

theorem endsValue_comma (cs : List Char) : EndsValue (',' :: cs) := by
  intro c hc
  cases hc
  exact .inl rfl

theorem endsValue_newLine (depth : Nat) (cs : List Char) : EndsValue (newLine depth ++ cs) := by
  intro c hc
  cases hc
  exact .inr rfl

/-! ## The first character of a value -/

/-- What a value begins with: no blank, and no bracket that closes an array. -/
def StartsValue (cs : List Char) : Prop :=
  ∃ c rest, cs = c :: rest ∧ isBlank c = false ∧ c ≠ ']'

theorem bracketed_cons (opening closing : Char) (depth : Nat) (items : List (List Char)) :
    ∃ rest, bracketed opening closing depth items = opening :: rest := by
  cases items with
  | nil => exact ⟨_, rfl⟩
  | cons item items => exact ⟨_, rfl⟩

/-- A written value begins with a character that begins a value. -/
theorem startsValue_pretty {v : Json} (h : v.IsWritable) (depth : Nat) :
    StartsValue (v.pretty depth) := by
  cases v with
  | null => exact ⟨'n', _, by rw [pretty], by decide, by decide⟩
  | bool value =>
      cases value with
      | false => exact ⟨'f', _, by rw [pretty], by decide, by decide⟩
      | true => exact ⟨'t', _, by rw [pretty], by decide, by decide⟩
  | number n =>
      obtain ⟨c, cs, htext, hc⟩ := Number.IsSpelled.text_cons (by simpa [IsWritable] using h)
      have hne : ∀ d : Char, ¬ (d.isDigit ∨ d = '-') → c ≠ d := by
        rintro d hd rfl
        exact hd hc
      refine ⟨c, cs, by rw [pretty, htext], ?_, hne ']' (by decide)⟩
      simp [isBlank, hne ' ' (by decide), hne '\t' (by decide), hne '\n' (by decide),
        hne '\r' (by decide)]
  | string text => exact ⟨'"', _, by rw [pretty, quote], by decide, by decide⟩
  | array elements =>
      obtain ⟨rest, hrest⟩ := bracketed_cons '[' ']' depth (prettyElements (depth + 1) elements)
      exact ⟨'[', rest, by rw [pretty, hrest], by decide, by decide⟩
  | object members =>
      obtain ⟨rest, hrest⟩ := bracketed_cons '{' '}' depth (prettyMembers (depth + 1) members)
      exact ⟨'{', rest, by rw [pretty, hrest], by decide, by decide⟩

/-- Only a bracket is scanned as a bracket. -/
theorem scan?_eq_rightBracket {c : Char} {cs after : List Char}
    (h : scan? (c :: cs) = some (.rightBracket, after)) : c = ']' := by
  unfold scan? at h
  split at h
  all_goals simp_all

/-! ## The lines of a container -/

/-- The lines between the brackets of a container. -/
def itemLines (depth : Nat) (items : List (List Char)) : List Char :=
  [','].intercalate (items.map (newLine depth ++ ·))

theorem itemLines_singleton (depth : Nat) (item : List Char) :
    itemLines depth [item] = newLine depth ++ item := by
  simp [itemLines]

/-- Every item but the last is followed by a comma. -/
theorem itemLines_cons_cons (depth : Nat) (item next : List Char) (items : List (List Char)) :
    itemLines depth (item :: next :: items) =
      newLine depth ++ (item ++ ',' :: itemLines depth (next :: items)) := by
  simp [itemLines]

/-- Items in brackets stand on lines of their own. -/
theorem bracketed_eq (opening closing : Char) (depth : Nat) (item : List Char)
    (items : List (List Char)) :
    bracketed opening closing depth (item :: items) =
      opening :: (itemLines (depth + 1) (item :: items) ++ (newLine depth ++ [closing])) := by
  simp [bracketed, itemLines]

/-- The first element of an array is read like any other. -/
theorem run?_opened (frames : List Frame) {item : List Char} (h : StartsValue item) (depth : Nat)
    (items : List (List Char)) (rest : List Char) :
    (State.opened frames).run? (itemLines depth (item :: items) ++ rest) =
      (State.value (.elements [] :: frames)).run? (itemLines depth (item :: items) ++ rest) := by
  obtain ⟨c, cs, rfl, hblank, hbracket⟩ := h
  have hlines : ∃ more, itemLines depth ((c :: cs) :: items) ++ rest =
      newLine depth ++ (c :: (cs ++ more)) := by
    cases items with
    | nil => exact ⟨rest, by simp [itemLines_singleton]⟩
    | cons next items =>
        exact ⟨',' :: (itemLines depth (next :: items) ++ rest), by simp [itemLines_cons_cons]⟩
  obtain ⟨more, hmore⟩ := hlines
  rw [hmore, State.run?_newLine, State.run?_newLine]
  refine State.run?_congr hblank fun t after hscan => ?_
  cases t with
  | rightBracket => exact absurd (scan?_eq_rightBracket hscan) hbracket
  | _ => rfl

/-! ## Values -/

/-- A string is scanned in one step. -/
theorem run?_quote {s next : State} {text : List Char}
    (hstep : s.step? (.scalar (ofString (String.ofList text))) = some next) (rest : List Char) :
    s.run? (quote text ++ rest) = next.run? rest := by
  have hscan := scan?_quote text rest
  rw [quote, List.cons_append] at hscan ⊢
  exact State.run?_token (by decide) hscan hstep

/-- A name and the colon after it. -/
theorem run?_name {s : State} {name : String} {frames : List Frame}
    {before : List (Option String × Json)}
    (hstep : s.step? (.scalar (ofString name)) = some (.colon frames before (some name)))
    (rest : List Char) :
    s.run? (quote name.toList ++ (':' :: ' ' :: rest)) =
      (State.value (.members before (some name) :: frames)).run? rest := by
  rw [run?_quote (by rw [String.ofList_toList]; exact hstep), State.run?_token (by decide) rfl rfl,
    State.run?_blank _ (by decide)]

mutual

/-- **Written values**: from the state in which a value has to come, its text
leads to the state in which it is complete. -/
theorem run?_pretty (v : Json) (h : v.IsWritable) (depth : Nat) (frames : List Frame)
    {rest : List Char} (hrest : EndsValue rest) :
    (State.value frames).run? (v.pretty depth ++ rest) = (State.complete frames v).run? rest := by
  match v with
  | null =>
      rw [pretty]
      exact State.run?_token (by decide) rfl rfl
  | bool false =>
      rw [pretty]
      exact State.run?_token (by decide) rfl rfl
  | bool true =>
      rw [pretty]
      exact State.run?_token (by decide) rfl rfl
  | number n =>
      rw [IsWritable] at h
      have hscan := scan?_text h hrest.endsNumber
      obtain ⟨c, cs, htext, hblank, -⟩ := startsValue_pretty (v := number n) h depth
      rw [pretty] at htext ⊢
      rw [htext, List.cons_append] at hscan ⊢
      exact State.run?_token hblank hscan rfl
  | string text =>
      rw [IsWritable] at h
      obtain ⟨text, rfl⟩ := Option.isSome_iff_exists.1 h
      rw [pretty, Option.getD_some]
      exact run?_quote (by rw [String.ofList_toList]; rfl) rest
  | array [] =>
      rw [pretty, prettyElements, bracketed, List.cons_append,
        State.run?_token (by decide) rfl rfl]
      exact State.run?_token (by decide) rfl rfl
  | array (v :: elements) =>
      rw [IsWritable] at h
      have hlines := run?_elements (v :: elements) h (List.cons_ne_nil _ _) depth [] frames rest
      rw [AreWritable] at h
      rw [prettyElements] at hlines
      rw [pretty, prettyElements, bracketed_eq, List.cons_append,
        State.run?_token (by decide) rfl rfl, List.append_assoc, List.append_assoc,
        run?_opened frames (startsValue_pretty h.1 _)]
      exact hlines
  | object [] =>
      rw [pretty, prettyMembers, bracketed, List.cons_append,
        State.run?_token (by decide) rfl rfl]
      exact State.run?_token (by decide) rfl rfl
  | object ((name, v) :: members) =>
      rw [IsWritable] at h
      have hlines := run?_members ((name, v) :: members) h (List.cons_ne_nil _ _) depth [] frames
        rest (s := .name frames) (fun text => rfl)
      rw [prettyMembers] at hlines
      rw [pretty, prettyMembers, bracketed_eq, List.cons_append,
        State.run?_token (by decide) rfl rfl, List.append_assoc, List.append_assoc]
      exact hlines

/-- The lines of the elements, and the end of the array. -/
theorem run?_elements (elements : List Json) (h : AreWritable elements) (hne : elements ≠ [])
    (depth : Nat) (before : List Json) (frames : List Frame) (rest : List Char) :
    (State.value (.elements before :: frames)).run?
        (itemLines (depth + 1) (prettyElements (depth + 1) elements) ++
          (newLine depth ++ ']' :: rest)) =
      (State.complete frames (.array (before.reverse ++ elements))).run? rest := by
  match elements with
  | [] => exact absurd rfl hne
  | [v] =>
      rw [AreWritable] at h
      rw [prettyElements, prettyElements, itemLines_singleton, List.append_assoc,
        State.run?_newLine, run?_pretty v h.1 (depth + 1) _ (endsValue_newLine depth _),
        State.run?_newLine, State.run?_token (by decide) rfl rfl]
      simp
  | v :: next :: elements =>
      rw [AreWritable] at h
      have ih := run?_elements (next :: elements) h.2 (List.cons_ne_nil _ _) depth (v :: before)
        frames rest
      rw [prettyElements] at ih
      rw [prettyElements, prettyElements, itemLines_cons_cons, List.append_assoc,
        State.run?_newLine, List.append_assoc, List.cons_append,
        run?_pretty v h.1 (depth + 1) _ (endsValue_comma _), State.run?_token (by decide) rfl rfl,
        ih]
      simp

/-- The lines of the members, and the end of the object. -/
theorem run?_members (members : List (Option String × Json)) (h : AreWritableMembers members)
    (hne : members ≠ []) (depth : Nat) (before : List (Option String × Json))
    (frames : List Frame) (rest : List Char) {s : State}
    (hs : ∀ text, s.step? (.scalar (.string text)) = some (.colon frames before text)) :
    s.run? (itemLines (depth + 1) (prettyMembers (depth + 1) members) ++
        (newLine depth ++ '}' :: rest)) =
      (State.complete frames (.object (before.reverse ++ members))).run? rest := by
  match members with
  | [] => exact absurd rfl hne
  | [(name, v)] =>
      rw [AreWritableMembers] at h
      obtain ⟨name, rfl⟩ := Option.isSome_iff_exists.1 h.1
      rw [prettyMembers, prettyMembers, itemLines_singleton, List.append_assoc, State.run?_newLine,
        List.append_assoc, Option.getD_some, List.cons_append, List.cons_append,
        run?_name (hs (some name)),
        run?_pretty v h.2.1 (depth + 1) _ (endsValue_newLine depth _),
        State.run?_newLine, State.run?_token (by decide) rfl rfl]
      simp
  | (name, v) :: next :: members =>
      rw [AreWritableMembers] at h
      obtain ⟨name, rfl⟩ := Option.isSome_iff_exists.1 h.1
      have ih := run?_members (next :: members) h.2.2 (List.cons_ne_nil _ _) depth
        ((some name, v) :: before) frames rest (s := .nextName frames ((some name, v) :: before))
        (fun text => rfl)
      rw [prettyMembers] at ih
      rw [prettyMembers, prettyMembers, itemLines_cons_cons, List.append_assoc,
        State.run?_newLine, List.append_assoc, List.append_assoc, Option.getD_some,
        List.cons_append, List.cons_append, run?_name (hs (some name)), List.cons_append,
        run?_pretty v h.2.1 (depth + 1) _ (endsValue_comma _),
        State.run?_token (by decide) rfl rfl, ih]
      simp

end

/-- Every value that can be written is read back from its text. -/
theorem parse?_print {v : Json} (h : v.IsWritable) : parse? v.print.toList = some v := by
  have hnothing : EndsValue [] := fun c hc => by cases hc
  have hread := run?_pretty v h 0 [] hnothing
  rw [List.append_nil, State.run?_nil] at hread
  rw [parse?, print, String.toList_ofList, hread]
  rfl

end GlutSketch.Json
