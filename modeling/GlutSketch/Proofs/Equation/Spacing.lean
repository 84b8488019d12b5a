import GlutSketch.Proofs.Equation.Cutting
import GlutSketch.Proofs.Equation.Relocation

/-!
# GlutSketch.Proofs.Equation.Spacing

White space between tokens does not matter.  It may be put in wherever no token
is torn, and a run of it may be replaced by another one (`Respaced`): the tokens
stay the same but for their places.

* `tokensFrom_append` -- where no token is torn, a text is cut in front and
  behind on its own, and the front is cut alike before any white space;
* `classify_respaced` -- the line that comes out is classified alike, with
  errors at the same tokens.
-/

namespace GlutSketch.Equation

/-! ## Other white space -/

/-- White space, at least one character of it. -/
def IsBlank (cs : List Char) : Prop := cs ≠ [] ∧ ∀ c ∈ cs, isWhiteSpace c

instance (cs : List Char) : Decidable (IsBlank cs) :=
  decidable_of_iff (cs ≠ [] ∧ cs.all isWhiteSpace) (by simp [IsBlank])

/-- Before the first token, after the last or between two: no token holds
characters of both sides. -/
def BetweenTokens (front back : String) : Prop :=
  ∀ ts, tokenize (front ++ back) = .ok ts →
    ∀ t ∈ ts, ¬ (t.span.start < front.length ∧ front.length < t.span.stop)

/-- The lines that differ from `source` by white space between the tokens
only. -/
inductive Respaced (source : String) : String → Prop
  | refl : Respaced source source
  | insert (front blank back : String) (h : Respaced source (front ++ back))
      (hbetween : BetweenTokens front back) (hblank : IsBlank blank.toList) :
      Respaced source (front ++ blank ++ back)
  | replace (front blank back other : String) (h : Respaced source (front ++ blank ++ back))
      (hblank : IsBlank blank.toList) (hother : IsBlank other.toList) :
      Respaced source (front ++ other ++ back)

/-! ## Cutting on both sides of a place -/

/-- The text is over or goes on with white space. -/
def EndsWord (cs : List Char) : Prop := ∀ c ∈ cs.head?, isWhiteSpace c

section

variable {start start' size : Nat} {c : Char} {cs word front back blank other tail : List Char}
  {kind : TokenKind} {ts : List Token}

theorem IsBlank.endsWord_append (h : IsBlank blank) : EndsWord (blank ++ back) := by
  obtain ⟨hne, hall⟩ := h
  cases blank with
  | nil => exact absurd rfl hne
  | cons c blank =>
      intro d hd
      rw [List.cons_append, List.head?_cons, Option.mem_some_iff] at hd
      exact hd ▸ hall c List.mem_cons_self

/-- A lexeme does not go on through white space. -/
theorem IsLexeme.isPrefix_of_append (h : IsLexeme word kind) (htail : EndsWord tail)
    (hword : word <+: front ++ tail) : word <+: front := by
  rcases List.prefix_or_prefix_of_prefix hword (List.prefix_append front tail) with hle | hle
  · exact hle
  · obtain ⟨more, rfl⟩ := hle
    cases more with
    | nil => exact (List.append_nil front).symm ▸ List.prefix_refl front
    | cons c more =>
        obtain ⟨rest, rfl⟩ := (List.prefix_append_right_inj front).1 hword
        have hspace := h.isWhiteSpace_eq_false c (by simp)
        rw [htail c rfl] at hspace
        cases hspace

/-- Whether a lexeme at the front is the longest does not depend on what stands
after white space, or on what it is followed by if it is the longest before
that. -/
theorem IsLongest.before (h : IsLongest (front ++ back) kind size) (hsize : size ≤ front.length)
    (htail : EndsWord tail) : IsLongest (front ++ tail) kind size where
  lexeme_iff := by
    have htake (rest : List Char) : (front ++ rest).take size = front.take size :=
      List.take_append_of_le_length hsize
    rw [htake, ← htake back]
    exact h.lexeme_iff
  size_le := by
    rw [List.length_append]
    exact Nat.le_add_right_of_le hsize
  longest := fun word kind' hword hfront =>
    h.longest word kind' hword
      ((hword.isPrefix_of_append htail hfront).trans (List.prefix_append front back))

/-- Blanks before a text only move its tokens. -/
theorem tokensFrom_blank_append (hblank : ∀ c ∈ blank, isWhiteSpace c) :
    tokensFrom start (blank ++ back) = tokensFrom (start + blank.length) back := by
  induction blank generalizing start with
  | nil => rfl
  | cons c blank ih =>
      rw [List.cons_append, tokensFrom_blank (hblank c List.mem_cons_self),
        ih fun d hd => hblank d (List.mem_cons_of_mem c hd), List.length_cons]
      congr 1
      omega

/-- Where a text stands does not matter for the kinds of its tokens. -/
theorem exists_tokensFrom (h : tokensFrom start cs = .ok ts) (start' : Nat) :
    ∃ ts', tokensFrom start' cs = .ok ts' ∧ kinds ts' = kinds ts := by
  induction start, cs using tokensFrom_induction generalizing ts start' with
  | nil start =>
      rw [tokensFrom_nil] at h
      cases h
      exact ⟨[], tokensFrom_nil start', rfl⟩
  | blank start c cs hspace ih =>
      rw [tokensFrom_blank hspace] at h ⊢
      exact ih h (start' + 1)
  | stuck start c cs hspace hnone =>
      rw [tokensFrom_stuck hspace hnone] at h
      cases h
  | token start c cs kind size hspace hsome ih =>
      rw [tokensFrom_token hspace hsome, Except.map_eq_ok_iff] at h
      obtain ⟨rest, hrest, rfl⟩ := h
      obtain ⟨rest', hrest', hkinds⟩ := ih hrest (start' + size)
      rw [tokensFrom_token hspace hsome, hrest']
      exact ⟨_, rfl, by rw [kinds, kinds, List.map_cons, List.map_cons, ← kinds, hkinds, ← kinds]⟩

/-- Where no token is torn, a text is cut in front and behind on its own. -/
theorem tokensFrom_append (h : tokensFrom start (front ++ back) = .ok ts)
    (hbetween : ∀ t ∈ ts,
      ¬ (t.span.start < start + front.length ∧ start + front.length < t.span.stop)) :
    ∃ before after, ts = before ++ after ∧ tokensFrom (start + front.length) back = .ok after ∧
      ∀ tail, EndsWord tail → tokensFrom start (front ++ tail) =
        (tokensFrom (start + front.length) tail).map (before ++ ·) := by
  induction hlen : front.length using Nat.strongRecOn generalizing front start ts with
  | _ length ih =>
      subst hlen
      cases front with
      | nil =>
          refine ⟨[], ts, rfl, h, fun tail _ => ?_⟩
          rw [List.nil_append, List.length_nil, Nat.add_zero]
          cases tokensFrom start tail <;> rfl
      | cons c front =>
          rw [List.cons_append] at h
          rw [List.length_cons] at hbetween ih ⊢
          by_cases hc : isWhiteSpace c
          · rw [tokensFrom_blank hc] at h
            have hplace : start + (front.length + 1) = start + 1 + front.length := by omega
            rw [hplace] at hbetween ⊢
            obtain ⟨before, after, rfl, hafter, htail⟩ :=
              ih front.length (Nat.lt_succ_self _) h hbetween rfl
            refine ⟨before, after, rfl, hafter, fun tail hends => ?_⟩
            rw [List.cons_append, tokensFrom_blank hc, htail tail hends]
          · obtain ⟨kind, size, rest, hl, hrest, rfl⟩ := exists_of_tokensFrom_eq_ok hc h
            have hpos := (size_of_lexeme? hl).1
            -- the first token ends before the place
            have hsize : size ≤ front.length + 1 := by
              have hfirst := hbetween _ List.mem_cons_self
              dsimp only at hfirst
              omega
            rw [List.drop_append_of_le_length (by omega)] at hrest
            have hplace : start + (front.length + 1) =
                start + size + (front.drop (size - 1)).length := by
              rw [List.length_drop]
              omega
            rw [hplace] at hbetween ⊢
            obtain ⟨before, after, rfl, hafter, htail⟩ :=
              ih (front.drop (size - 1)).length (by rw [List.length_drop]; omega) hrest
                (fun t ht => hbetween t (List.mem_cons_of_mem _ ht)) rfl
            refine ⟨_ :: before, after, rfl, hafter, fun tail hends => ?_⟩
            have hlongest : IsLongest ((c :: front) ++ back) kind size := lexeme?_eq_some_iff.1 hl
            have hl' := lexeme?_eq_some_iff.2 (hlongest.before hsize hends)
            rw [List.cons_append] at hl' ⊢
            rw [tokensFrom_token hc hl', List.drop_append_of_le_length (by omega), htail tail hends]
            cases tokensFrom (start + size + (front.drop (size - 1)).length) tail <;> rfl

/-- White space between tokens, if there is any, may become other white
space. -/
theorem exists_tokensFrom_respaced (blank : List Char) (hblank : ∀ c ∈ blank, isWhiteSpace c)
    (h : tokensFrom start (front ++ (blank ++ back)) = .ok ts)
    (hbetween : ∀ t ∈ ts,
      ¬ (t.span.start < start + front.length ∧ start + front.length < t.span.stop))
    (hother : IsBlank other) :
    ∃ ts', tokensFrom start (front ++ (other ++ back)) = .ok ts' ∧ kinds ts' = kinds ts := by
  obtain ⟨before, after, rfl, hafter, htail⟩ := tokensFrom_append h hbetween
  rw [tokensFrom_blank_append hblank] at hafter
  obtain ⟨after', hafter', hkinds⟩ := exists_tokensFrom hafter (start + front.length + other.length)
  refine ⟨before ++ after', ?_, ?_⟩
  · rw [htail _ hother.endsWord_append, tokensFrom_blank_append hother.2, hafter']
    rfl
  · rw [kinds, List.map_append, ← kinds, ← kinds, hkinds, kinds, kinds, kinds, List.map_append]

/-- No token goes on where white space begins. -/
theorem not_torn_of_isBlank (hblank : IsBlank blank)
    (h : tokensFrom 0 (front ++ (blank ++ back)) = .ok ts) (t : Token) (ht : t ∈ ts) :
    ¬ (t.span.start < front.length ∧ front.length < t.span.stop) := by
  rintro ⟨hstart, hstop⟩
  have hcut := (tokensFrom_eq_ok_iff List.drop_zero (Nat.zero_le _)).1 h
  obtain ⟨c, more, rfl⟩ := List.exists_cons_of_ne_nil hblank.1
  have hc : (front ++ (c :: more ++ back))[front.length]? = some c := by simp
  have hoff := (hcut.blank front.length c (Nat.zero_le _) (by simp) hc).1
    (hblank.2 c List.mem_cons_self)
  exact hoff t ht ⟨Nat.le_of_lt hstart, hstop⟩

end

/-! ## Lines -/

section

variable {source other : String} {ts : List Token}

/-- Other white space leaves the kinds of the tokens as they are. -/
theorem Respaced.exists_tokenize (hother : Respaced source other) (hts : tokenize source = .ok ts) :
    ∃ ts', tokenize other = .ok ts' ∧ kinds ts' = kinds ts := by
  have htoList (front middle back : String) :
      (front ++ middle ++ back).toList = front.toList ++ (middle.toList ++ back.toList) := by
    rw [String.toList_append, String.toList_append, List.append_assoc]
  induction hother with
  | refl => exact ⟨ts, hts, rfl⟩
  | insert front blank back _ hbetween hblank ih =>
      obtain ⟨before, hbefore, hkinds⟩ := ih
      have htorn := hbetween before hbefore
      rw [tokenize, String.toList_append] at hbefore
      obtain ⟨after, hafter, hkinds'⟩ := exists_tokensFrom_respaced [] (by simp) hbefore
        (by simpa only [Nat.zero_add, String.length_toList] using htorn) hblank
      exact ⟨after, by rwa [tokenize, htoList], hkinds'.trans hkinds⟩
  | replace front blank back other _ hblank hother ih =>
      obtain ⟨before, hbefore, hkinds⟩ := ih
      rw [tokenize, htoList] at hbefore
      have htorn := not_torn_of_isBlank hblank hbefore
      obtain ⟨after, hafter, hkinds'⟩ := exists_tokensFrom_respaced blank.toList hblank.2 hbefore
        (by simpa only [Nat.zero_add] using htorn) hother
      exact ⟨after, by rwa [tokenize, htoList], hkinds'.trans hkinds⟩

/-- **White space**: a line with other white space between its tokens has the
same kinds of token, and it is the same vertical line or the graph of the same
formula, or it is refused for the same cause at the same tokens. -/
theorem classify_respaced (hts : tokenize source = .ok ts) (hother : Respaced source other) :
    ∃ ts', tokenize other = .ok ts' ∧ kinds ts' = kinds ts ∧
      Alike (SameReach source.length other.length ts ts') Eq (classify source)
        (classify other) := by
  obtain ⟨ts', hts', hkinds⟩ := hother.exists_tokenize hts
  exact ⟨ts', hts', hkinds, classify_alike hts hts' hkinds⟩

/-- The space keeps the two stars apart, and so does a tab. -/
theorem classify_respaced_stars :
    ∃ ts ts', tokenize "x* *x" = .ok ts ∧ Respaced "x* *x" "\u2003x*\t*x" ∧
      tokenize "\u2003x*\t*x" = .ok ts' ∧ kinds ts' = kinds ts ∧
      Alike (SameReach 5 6 ts ts') Eq (classify "x* *x") (classify "\u2003x*\t*x") := by
  have hread : (tokenize "x* *x").toOption.isSome := by decide +kernel
  obtain ⟨ts, hts⟩ := Option.isSome_iff_exists.1 hread
  rw [Except.toOption_eq_some_iff] at hts
  have hindented : Respaced "x* *x" ("" ++ "\u2003" ++ "x* *x") :=
    .insert "" "\u2003" _ .refl (fun _ _ _ _ htorn => Nat.not_lt_zero _ htorn.1) (by decide)
  have hother : Respaced "x* *x" ("\u2003x*" ++ "\t" ++ "*x") :=
    .replace _ " " _ "\t" hindented (by decide) (by decide)
  obtain ⟨ts', hts', hkinds, halike⟩ := classify_respaced hts hother
  exact ⟨ts, ts', hts, hother, hts', hkinds, halike⟩

end

end GlutSketch.Equation
