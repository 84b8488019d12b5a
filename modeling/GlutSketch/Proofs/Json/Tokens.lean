import GlutSketch.Proofs.Json.Parse

/-!
# GlutSketch.Proofs.Json.Tokens

A text is read as a value exactly if its tokens are those of the value: the
reader adds nothing to the grammar of arrays and objects, and nothing of a text
counts but its tokens.

* `tokens` -- the tokens of a value, with brackets, commas and colons.
* `textTokens?` -- the tokens of a text.
* `State.step?_read` -- a state of the automaton tells all the tokens that led
  to it.
* `parse?_eq_some_iff` -- whole texts.
-/

namespace GlutSketch.Json

/-! ## Tokens of a value -/

mutual

/-- The tokens of a value. -/
def tokens : Json → List Token
  | null => [.scalar null]
  | bool value => [.scalar (bool value)]
  | number n => [.scalar (number n)]
  | string text => [.scalar (string text)]
  | array elements => .leftBracket :: (elementTokens elements ++ [.rightBracket])
  | object members => .leftBrace :: (memberTokens members ++ [.rightBrace])

/-- The tokens of the elements of an array, with commas between them. -/
def elementTokens : List Json → List Token
  | [] => []
  | [v] => v.tokens
  | v :: next :: elements => v.tokens ++ .comma :: elementTokens (next :: elements)

/-- The tokens of the members of an object, with commas between them. -/
def memberTokens : List (Option String × Json) → List Token
  | [] => []
  | [(name, v)] => .scalar (.string name) :: .colon :: v.tokens
  | (name, v) :: next :: members =>
      .scalar (.string name) :: .colon :: (v.tokens ++ .comma :: memberTokens (next :: members))

end

/-- The tokens of a text, without the blanks between them. -/
def textTokens? (cs : List Char) : Option (List Token) :=
  match cs with
  | [] => some []
  | c :: rest =>
      if isBlank c then textTokens? rest
      else match _h : scan? (c :: rest) with
        | none => none
        | some (t, after) => (textTokens? after).map (t :: ·)
termination_by cs.length
decreasing_by
  · exact Nat.lt_succ_self _
  · exact length_scan? _h

/-- The text spells the value. -/
def IsSpelledBy (v : Json) (text : String) : Prop := textTokens? text.toList = some v.tokens

/-- The value of a token is no container. -/
def Token.IsSimple : Token → Prop
  | scalar v => v.tokens = [scalar v]
  | _ => True

theorem scan?_isSimple {cs rest : List Char} {t : Token} (h : scan? cs = some (t, rest)) :
    t.IsSimple := by
  fun_cases scan? cs with
  | case7 r =>
      simp only [scan?, Option.map_eq_some_iff, Prod.exists, Prod.mk.injEq] at h
      obtain ⟨units, after, -, rfl, -⟩ := h
      rw [Token.IsSimple, tokens]
  | case11 =>
      simp_all only [scan?, Option.map_eq_some_iff, Prod.exists, Prod.mk.injEq]
      obtain ⟨n, after, -, rfl, -⟩ := h
      rw [Token.IsSimple, tokens]
  | _ =>
      simp only [scan?, Option.some.injEq, Prod.mk.injEq] at h
      rw [← h.1]
      simp [Token.IsSimple, tokens]

/-- A text never gives a container as one token. -/
theorem forall_isSimple_of_textTokens? {cs : List Char} {ts : List Token}
    (h : textTokens? cs = some ts) : ∀ t ∈ ts, t.IsSimple := by
  fun_induction textTokens? cs generalizing ts with
  | case1 =>
      cases h
      simp
  | case2 c rest hblank ih => exact ih h
  | case3 => cases h
  | case4 c rest hblank t after hscan ih =>
      obtain ⟨more, hmore, rfl⟩ := Option.map_eq_some_iff.1 h
      exact List.forall_mem_cons.2 ⟨scan?_isSimple hscan, ih hmore⟩

/-- White space gives no token. -/
theorem textTokens?_blank {c : Char} {rest : List Char} (hblank : isBlank c) :
    textTokens? (c :: rest) = textTokens? rest := by
  rw [textTokens?, if_pos hblank]

/-- Everything else gives the token at the front, and those after it. -/
theorem textTokens?_token {c : Char} {rest after : List Char} {t : Token}
    (hblank : ¬ isBlank c) (hscan : scan? (c :: rest) = some (t, after)) :
    textTokens? (c :: rest) = (textTokens? after).map (t :: ·) := by
  rw [textTokens?, if_neg hblank]
  split <;> simp_all

theorem textTokens?_of_scan?_eq_none {c : Char} {rest : List Char} (hblank : ¬ isBlank c)
    (hscan : scan? (c :: rest) = none) : textTokens? (c :: rest) = none := by
  rw [textTokens?, if_neg hblank]
  split <;> simp_all

/-- A run over a text is a run over its tokens. -/
theorem State.run?_eq (s : State) (cs : List Char) :
    s.run? cs = (textTokens? cs).bind (·.foldlM State.step? s) := by
  fun_induction State.run? s cs with
  | case1 s => rw [textTokens?]; rfl
  | case2 s c rest hblank ih => rw [textTokens?_blank hblank, ih]
  | case3 s c rest hblank hscan => rw [textTokens?_of_scan?_eq_none hblank hscan]; rfl
  | case4 s c rest hblank t after hscan hstep =>
      rw [textTokens?_token hblank hscan]
      cases textTokens? after <;> simp [hstep]
  | case5 s c rest hblank t after hscan next hstep ih =>
      rw [textTokens?_token hblank hscan, ih]
      cases textTokens? after <;> simp [hstep]

/-! ## From a value to its tokens and back -/

/-- What a value begins with is no bracket that closes an array. -/
theorem tokens_cons (v : Json) : ∃ t ts, v.tokens = t :: ts ∧ t ≠ .rightBracket := by
  cases v <;> exact ⟨_, _, by rw [tokens], by simp⟩

theorem elementTokens_cons (v : Json) (elements : List Json) :
    ∃ more, elementTokens (v :: elements) = v.tokens ++ more := by
  cases elements with
  | nil => exact ⟨[], by rw [elementTokens, List.append_nil]⟩
  | cons next elements => exact ⟨_, by rw [elementTokens]⟩

/-- The first element of an array is read like any other. -/
theorem foldlM_opened (frames : List Frame) {v : Json} {elements : List Json} {rest : List Token} :
    (elementTokens (v :: elements) ++ rest).foldlM State.step? (.opened frames) =
      (elementTokens (v :: elements) ++ rest).foldlM State.step?
        (.value (.elements [] :: frames)) := by
  obtain ⟨more, hmore⟩ := elementTokens_cons v elements
  obtain ⟨t, ts, htokens, hne⟩ := v.tokens_cons
  rw [hmore, htokens, List.cons_append, List.cons_append, List.foldlM_cons, List.foldlM_cons]
  cases t with
  | rightBracket => exact absurd rfl hne
  | _ => rfl

mutual

/-- From the state in which a value has to come, its tokens lead to the state in
which it is complete. -/
theorem foldlM_tokens (v : Json) (frames : List Frame) (rest : List Token) :
    (v.tokens ++ rest).foldlM State.step? (.value frames) =
      rest.foldlM State.step? (.complete frames v) := by
  match v with
  | null | bool _ | number _ | string _ =>
      rw [tokens]
      rfl
  | array [] =>
      rw [tokens, elementTokens]
      rfl
  | array (v :: elements) =>
      have helements := foldlM_elements (v :: elements) (List.cons_ne_nil _ _) [] frames rest
      rw [tokens, List.cons_append, List.append_assoc, List.foldlM_cons]
      exact (foldlM_opened frames).trans helements
  | object [] =>
      rw [tokens, memberTokens]
      rfl
  | object ((name, v) :: members) =>
      have hmembers := foldlM_members ((name, v) :: members) (List.cons_ne_nil _ _) [] frames rest
        (s := .name frames) (fun text => rfl)
      rw [tokens, List.cons_append, List.append_assoc, List.foldlM_cons]
      exact hmembers

/-- The elements of an array are taken one by one until its bracket closes
it. -/
theorem foldlM_elements (elements : List Json) (hne : elements ≠ []) (before : List Json)
    (frames : List Frame) (rest : List Token) :
    (elementTokens elements ++ ([Token.rightBracket] ++ rest)).foldlM State.step?
        (.value (.elements before :: frames)) =
      rest.foldlM State.step? (.complete frames (.array (before.reverse ++ elements))) := by
  match elements with
  | [] => exact absurd rfl hne
  | [v] =>
      rw [elementTokens, foldlM_tokens v, List.singleton_append, List.foldlM_cons]
      simp [State.step?]
  | v :: next :: elements =>
      have ih := foldlM_elements (next :: elements) (List.cons_ne_nil _ _) (v :: before) frames rest
      rw [elementTokens, List.append_assoc, foldlM_tokens v, List.cons_append, List.foldlM_cons]
      simp only [List.reverse_cons, List.append_assoc, List.singleton_append] at ih
      exact ih

/-- The members of an object are taken one by one until its brace closes it. -/
theorem foldlM_members (members : List (Option String × Json)) (hne : members ≠ [])
    (before : List (Option String × Json)) (frames : List Frame) (rest : List Token) {s : State}
    (hs : ∀ text, s.step? (.scalar (.string text)) = some (.colon frames before text)) :
    (memberTokens members ++ ([Token.rightBrace] ++ rest)).foldlM State.step? s =
      rest.foldlM State.step? (.complete frames (.object (before.reverse ++ members))) := by
  match members with
  | [] => exact absurd rfl hne
  | [(name, v)] =>
      rw [memberTokens, List.cons_append, List.foldlM_cons, hs]
      show (v.tokens ++ ([Token.rightBrace] ++ rest)).foldlM State.step?
        (.value (.members before name :: frames)) = _
      rw [foldlM_tokens v, List.singleton_append, List.foldlM_cons]
      simp [State.step?]
  | (name, v) :: next :: members =>
      have ih := foldlM_members (next :: members) (List.cons_ne_nil _ _)
        ((name, v) :: before) frames rest (s := .nextName frames ((name, v) :: before))
        (fun text => rfl)
      rw [memberTokens, List.cons_append, List.foldlM_cons, hs]
      show (v.tokens ++ (Token.comma :: memberTokens (next :: members)) ++
        ([Token.rightBrace] ++ rest)).foldlM State.step?
          (.value (.members before name :: frames)) = _
      rw [List.append_assoc, foldlM_tokens v, List.cons_append, List.foldlM_cons]
      simp only [List.reverse_cons, List.append_assoc, List.singleton_append] at ih
      exact ih

end

/-! ## What a state has read -/

/-- The tokens of an open container so far. -/
def Frame.read : Frame → List Token
  | elements before => .leftBracket :: before.reverse.flatMap fun v => v.tokens ++ [.comma]
  | members before name =>
      .leftBrace :: (before.reverse.flatMap fun m => memberTokens [m] ++ [.comma]) ++
        [.scalar (.string name), .colon]

/-- The tokens of the open containers, the innermost of which comes first. -/
def framesRead : List Frame → List Token
  | [] => []
  | frame :: frames => framesRead frames ++ frame.read

/-- The tokens that lead to a state. -/
def State.read : State → List Token
  | value frames => framesRead frames
  | opened frames => framesRead frames ++ [.leftBracket]
  | name frames => framesRead frames ++ [.leftBrace]
  | nextName frames before =>
      framesRead frames ++
        .leftBrace :: before.reverse.flatMap fun m => memberTokens [m] ++ [.comma]
  | colon frames before text =>
      framesRead frames ++
        .leftBrace :: (before.reverse.flatMap fun m => memberTokens [m] ++ [.comma]) ++
          [.scalar (.string text)]
  | complete frames v => framesRead frames ++ v.tokens

theorem elementTokens_append (before : List Json) (v : Json) :
    elementTokens (before ++ [v]) = (before.flatMap fun v => v.tokens ++ [.comma]) ++ v.tokens := by
  induction before with
  | nil => simp [elementTokens]
  | cons w before ih =>
      cases before with
      | nil => simp [elementTokens]
      | cons next before =>
          simp only [List.cons_append, elementTokens] at ih ⊢
          simp [ih]

theorem memberTokens_append (before : List (Option String × Json)) (m : Option String × Json) :
    memberTokens (before ++ [m]) =
      (before.flatMap fun m => memberTokens [m] ++ [.comma]) ++ memberTokens [m] := by
  induction before with
  | nil => simp
  | cons w before ih =>
      cases before with
      | nil => simp [memberTokens]
      | cons next before =>
          simp only [List.cons_append, memberTokens] at ih ⊢
          simp [ih]

/-- A step reads one token. -/
theorem State.step?_read {s next : State} {t : Token} (h : s.step? t = some next)
    (ht : t.IsSimple) : next.read = s.read ++ [t] := by
  have hvalue {frames : List Frame} (h : stepValue? frames t = some next) :
      next.read = framesRead frames ++ [t] := by
    unfold stepValue? at h
    split at h <;> cases h
    · rfl
    · rfl
    · rw [State.read, ht]
  unfold State.step? at h
  split at h <;> try cases h
  · exact hvalue h
  · simp [State.read, tokens, elementTokens]
  · rw [hvalue h]
    simp [State.read, framesRead, Frame.read]
  all_goals simp [State.read, framesRead, Frame.read, tokens, memberTokens, memberTokens_append,
    elementTokens_append]

/-- **Nothing is lost**: a state has read exactly the tokens that led to it. -/
theorem State.read_of_foldlM {s last : State} {ts : List Token}
    (h : ts.foldlM State.step? s = some last) (hts : ∀ t ∈ ts, t.IsSimple) :
    last.read = s.read ++ ts := by
  induction ts generalizing s with
  | nil => cases h; simp
  | cons t ts ih =>
      obtain ⟨next, hstep, hrun⟩ := Option.bind_eq_some_iff.1 h
      obtain ⟨ht, hts⟩ := List.forall_mem_cons.1 hts
      rw [ih hrun hts, step?_read hstep ht, List.append_assoc]
      rfl

/-- A text is read as a value exactly if it spells it. -/
theorem parse?_eq_some_iff {text : String} {v : Json} :
    parse? text.toList = some v ↔ v.IsSpelledBy text := by
  rw [parse?, State.run?_eq, IsSpelledBy]
  constructor
  · intro h
    obtain ⟨last, hrun, hlast⟩ := Option.bind_eq_some_iff.1 h
    obtain ⟨ts, hts, hrun⟩ := Option.bind_eq_some_iff.1 hrun
    have hread := State.read_of_foldlM hrun (forall_isSimple_of_textTokens? hts)
    unfold State.result? at hlast
    split at hlast
    · cases hlast
      rw [hts]
      simpa [State.read, framesRead] using hread.symm
    · cases hlast
  · intro h
    have hrun := foldlM_tokens v [] []
    rw [List.append_nil] at hrun
    rw [h, Option.bind_some, hrun]
    rfl

end GlutSketch.Json
