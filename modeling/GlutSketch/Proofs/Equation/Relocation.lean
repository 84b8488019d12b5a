import GlutSketch.Equation.Classify
import GlutSketch.Proofs.Equation.Failing
import GlutSketch.Proofs.Equation.Naming
import GlutSketch.Proofs.Equation.Parsing
import GlutSketch.Proofs.Equation.Places

/-!
# GlutSketch.Proofs.Equation.Relocation

Reading does not look at places: it copies them and merges them.  Two lines of
the same kinds of token are therefore read alike, and what is said of a place in
one is said of the corresponding place in the other, for any correspondence of
places that merging keeps (`IsRelocation`).

* `Relocated`, `Expr.Relocated`, `Alike` -- tokens, trees and results that are
  the same but for corresponding places;
* `expression_alike`, `parseEquation_alike`, `resolve_alike` -- expressions,
  whole lines and names;
* `classify_alike` -- lines of the same kinds of token, whose errors are about
  the same tokens;
* `toOption_classify_eq` -- so that what a line means does not depend on how it
  is spelled.
-/

namespace GlutSketch.Equation

/-! ## Corresponding places -/

/-- A correspondence of the places of two lines, which end at `stop` and
`stop'`. -/
structure IsRelocation (stop stop' : Nat) (R : Span → Span → Prop) : Prop where
  atEnd : R ⟨stop, stop⟩ ⟨stop', stop'⟩
  merge : ∀ {a a' b b'}, R a a' → R b b' → R (a.merge b) (a'.merge b')

/-- Tokens of the same kinds at corresponding places. -/
inductive Relocated (R : Span → Span → Prop) : List Token → List Token → Prop
  | nil : Relocated R [] []
  | cons {ts ts' : List Token} {place place' : Span} (kind : TokenKind) (hplace : R place place')
      (h : Relocated R ts ts') : Relocated R (⟨kind, place⟩ :: ts) (⟨kind, place'⟩ :: ts')

mutual

/-- The same tree with corresponding places. -/
inductive Expr.Relocated (R : Span → Span → Prop) : Expr → Expr → Prop
  | number {place place' : Span} (value : Float) (h : R place place') :
      Expr.Relocated R (.number value place) (.number value place')
  | identifier {place place' : Span} (name : String) (h : R place place') :
      Expr.Relocated R (.identifier name place) (.identifier name place')
  | binary {l l' r r' : Expr} {place place' : Span} (op : BinaryOp) (hl : Expr.Relocated R l l')
      (hr : Expr.Relocated R r r') (h : R place place') :
      Expr.Relocated R (.binary op l r place) (.binary op l' r' place')
  | signed {e e' : Expr} {place place' : Span} (sign : Sign) (he : Expr.Relocated R e e')
      (h : R place place') : Expr.Relocated R (.signed sign e place) (.signed sign e' place')
  | call {args args' : List Expr} {place place' span span' : Span} (name : String)
      (hname : R place place') (hargs : ArgumentsRelocated R args args') (h : R span span') :
      Expr.Relocated R (.call name place args span) (.call name place' args' span')

/-- The same arguments with corresponding places. -/
inductive ArgumentsRelocated (R : Span → Span → Prop) : List Expr → List Expr → Prop
  | nil : ArgumentsRelocated R [] []
  | cons {e e' : Expr} {es es' : List Expr} (h : Expr.Relocated R e e')
      (hs : ArgumentsRelocated R es es') : ArgumentsRelocated R (e :: es) (e' :: es')

end

/-- Results that correspond: two values do, or two errors have the same cause at
corresponding places. -/
inductive Alike (R : Span → Span → Prop) {α β : Type} (A : α → β → Prop) :
    Except Error α → Except Error β → Prop
  | ok {a : α} {b : β} (h : A a b) : Alike R A (.ok a) (.ok b)
  | error {place place' : Span} (cause : Cause) (h : R place place') :
      Alike R A (.error ⟨cause, place⟩) (.error ⟨cause, place'⟩)

/-- Two values that correspond, and what is left after them. -/
def WithRest (R : Span → Span → Prop) {α β : Type} (A : α → β → Prop) (p : α × List Token)
    (q : β × List Token) : Prop :=
  A p.1 q.1 ∧ Relocated R p.2 q.2

section

variable {R : Span → Span → Prop} {α β γ δ : Type} {A : α → β → Prop} {B : γ → δ → Prop}

/-- What is alike stays alike if alike readers go on with it. -/
theorem Alike.bind {x : Except Error α} {y : Except Error β} {f : α → Except Error γ}
    {g : β → Except Error δ} (h : Alike R A x y)
    (hf : ∀ a b, x = .ok a → A a b → Alike R B (f a) (g b)) : Alike R B (x.bind f) (y.bind g) := by
  cases h with
  | ok h => exact hf _ _ rfl h
  | error cause h => exact .error cause h

theorem Alike.map {x : Except Error α} {y : Except Error β} {f : α → γ} {g : β → δ}
    (h : Alike R A x y) (hf : ∀ a b, A a b → B (f a) (g b)) : Alike R B (x.map f) (y.map g) := by
  cases h with
  | ok h => exact .ok (hf _ _ h)
  | error cause h => exact .error cause h

end

section

variable {stop stop' power : Nat} {R : Span → Span → Prop} {read read' : Reader}
  {ts ts' : List Token} {e e' lhs lhs' : Expr} {place place' : Span} {wanted : TokenKind}

theorem Relocated.found_eq (h : Relocated R ts ts') : found ts' = found ts := by
  cases h <;> rfl

/-- The front of relocated tokens is relocated. -/
theorem Relocated.frontSpan (hR : IsRelocation stop stop' R) (h : Relocated R ts ts') :
    R (frontSpan stop ts) (frontSpan stop' ts') := by
  cases h with
  | nil => exact hR.atEnd
  | cons kind hplace h => exact hplace

theorem Relocated.settled (h : Relocated R ts ts') (hsettled : Settled power ts) :
    Settled power ts' := by
  rwa [Settled, frontOp?, h.found_eq]

/-- The place of a relocated tree is relocated. -/
theorem Expr.Relocated.span (h : Expr.Relocated R e e') : R e.span e'.span := by
  cases h <;> assumption

/-! ## Parts of an operand -/

/-- Two readers that read alike what is the same but for corresponding
places. -/
def ReadersAlike (R : Span → Span → Prop) (read read' : Reader) : Prop :=
  ∀ power ts ts', Relocated R ts ts' →
    Alike R (WithRest R (Expr.Relocated R)) (outcome (read power ts)) (outcome (read' power ts'))

/-- Asking for a token is alike on relocated tokens. -/
theorem expect_alike (hR : IsRelocation stop stop' R) (h : Relocated R ts ts') :
    Alike R (WithRest R R) (outcome (expect stop wanted ts))
      (outcome (expect stop' wanted ts')) := by
  cases h with
  | nil => exact .error _ hR.atEnd
  | cons kind hplace h =>
      by_cases hkind : kind = wanted
      · simp only [expect, hkind, if_true]
        exact .ok ⟨hplace, h⟩
      · simp only [expect, hkind, if_false]
        exact .error _ hplace

theorem signedOperand_alike (hR : IsRelocation stop stop' R) (hread : ReadersAlike R read read')
    (sign : Sign) (hplace : R place place') (h : Relocated R ts ts') :
    Alike R (WithRest R (Expr.Relocated R)) (outcome (signedOperand read sign place ts))
      (outcome (signedOperand read' sign place' ts')) := by
  rw [outcome_signedOperand, outcome_signedOperand]
  exact (hread _ _ _ h).map fun p q hpq =>
    ⟨.signed sign hpq.1 (hR.merge hplace hpq.1.span), hpq.2⟩

/-- An expression and the place of the token that closes it. -/
def WithPlace (R : Span → Span → Prop) {α β : Type} (A : α → β → Prop) (p : α × Span)
    (q : β × Span) :
    Prop :=
  A p.1 q.1 ∧ R p.2 q.2

/-- Parts between brackets are read alike. -/
theorem enclosed_alike (hR : IsRelocation stop stop' R) (hread : ReadersAlike R read read')
    (h : Relocated R ts ts') :
    Alike R (WithRest R (WithPlace R (Expr.Relocated R))) (outcome (enclosed stop read wanted ts))
      (outcome (enclosed stop' read' wanted ts')) := by
  rw [outcome_enclosed, outcome_enclosed]
  refine (hread _ _ _ h).bind fun p q _ hpq => (expect_alike hR hpq.2).map fun s s' hs => ?_
  exact ⟨⟨hpq.1, hs.1⟩, hs.2⟩

/-- Arguments are read alike. -/
theorem arguments_alike (hread : ReadersAlike R read read') (h : Relocated R ts ts') :
    Alike R (WithRest R (ArgumentsRelocated R)) (outcome (arguments read ts))
      (outcome (arguments read' ts')) := by
  -- the tokens get fewer with each argument; those of the other line are not
  -- counted
  induction hlen : ts.length using Nat.strongRecOn generalizing ts ts' with
  | _ length ih =>
      subst hlen
      rw [outcome_arguments, outcome_arguments]
      refine (hread 0 ts ts' h).bind fun p q hp hpq => ?_
      have hlt := length_of_outcome hp
      obtain ⟨first, rest⟩ := p
      obtain ⟨first', rest'⟩ := q
      obtain ⟨hfirst, hrest⟩ := hpq
      dsimp only at hfirst hrest hlt
      cases hrest with
      | nil => exact .ok ⟨.cons hfirst .nil, .nil⟩
      | @cons more more' _ _ kind hplace hmore =>
          -- both lines go on alike: with a comma, or with the same other token
          by_cases hcomma : kind = .comma
          · subst hcomma
            have hothers := ih more.length (by simp at hlt; omega) hmore rfl
            exact hothers.map fun _ _ hmap => ⟨.cons hfirst hmap.1, hmap.2⟩
          · cases kind <;>
              first
              | exact absurd rfl hcomma
              | exact .ok ⟨.cons hfirst .nil, .cons _ hplace hmore⟩

/-- Calls are read alike. -/
theorem callArguments_alike (hR : IsRelocation stop stop' R) (hread : ReadersAlike R read read')
    (h : Relocated R ts ts') :
    Alike R (WithRest R (WithPlace R (ArgumentsRelocated R))) (outcome (callArguments stop read ts))
      (outcome (callArguments stop' read' ts')) := by
  by_cases hparen : found ts = some .rightParen
  · obtain ⟨place, more, rfl⟩ := exists_of_found hparen
    cases h with
    | cons _ hplace hmore => exact .ok ⟨⟨.nil, hplace⟩, hmore⟩
  · rw [outcome_callArguments hparen, outcome_callArguments (by rwa [h.found_eq])]
    refine (arguments_alike hread h).bind fun p q _ hpq =>
      (expect_alike hR hpq.2).map fun _ _ hclose => ?_
    exact ⟨⟨hpq.1, hclose.1⟩, hclose.2⟩

/-! ## Operands -/

/-- Operands are read alike, whatever they begin with. -/
theorem operand_alike (hR : IsRelocation stop stop' R) (hread : ReadersAlike R read read')
    (h : Relocated R ts ts') :
    Alike R (WithRest R (Expr.Relocated R)) (outcome (operand stop read ts))
      (outcome (operand stop' read' ts')) := by
  cases opening ts with
  | number value place more =>
      cases h with
      | cons _ hplace hmore => exact .ok ⟨.number value hplace, hmore⟩
  | name name place hparen =>
      cases h with
      | cons _ hplace hmore =>
          rw [operand_identifier name hparen, operand_identifier name (by rwa [hmore.found_eq])]
          exact .ok ⟨.identifier name hplace, hmore⟩
  | call name place opening inside =>
      cases h with
      | cons _ hplace hmore =>
          cases hmore with
          | cons _ hopening hinside =>
              rw [outcome_operand_call, outcome_operand_call]
              exact (callArguments_alike hR hread hinside).map fun _ _ hargs =>
                ⟨.call name hplace hargs.1.1 (hR.merge hplace hargs.1.2), hargs.2⟩
  | grouped place inside =>
      cases h with
      | cons _ hplace hinside =>
          rw [outcome_operand_grouped, outcome_operand_grouped]
          exact (enclosed_alike hR hread hinside).map fun _ _ hbody => ⟨hbody.1.1, hbody.2⟩
  | absolute place inside =>
      cases h with
      | cons _ hplace hinside =>
          rw [outcome_operand_absolute, outcome_operand_absolute]
          exact (enclosed_alike hR hread hinside).map fun _ _ hbody =>
            ⟨.call "abs" hplace (.cons hbody.1.1 .nil) (hR.merge hplace hbody.1.2), hbody.2⟩
  | signed hsign place more =>
      cases h with
      | cons _ hplace hmore =>
          rw [outcome_operand_signed hsign, outcome_operand_signed hsign]
          exact signedOperand_alike hR hread _ hplace hmore
  | none hnone =>
      rw [operand_of_noOperand hnone, operand_of_noOperand (by rwa [NoOperand, h.found_eq])]
      rw [missingExpressionError, missingExpressionError, h.found_eq]
      exact .error _ (h.frontSpan hR)

/-! ## Operations -/

/-- Operations are read alike. -/
theorem operations_alike (hR : IsRelocation stop stop' R) (hread : ReadersAlike R read read')
    (hlhs : Expr.Relocated R lhs lhs') (h : Relocated R ts ts') :
    Alike R (WithRest R (Expr.Relocated R)) (extent (operations read power lhs ts))
      (extent (operations read' power lhs' ts')) := by
  induction hlen : ts.length using Nat.strongRecOn generalizing ts ts' lhs lhs' with
  | _ length ih =>
      subst hlen
      by_cases hsettled : Settled power ts
      · rw [operations_of_settled hsettled, operations_of_settled (h.settled hsettled)]
        exact .ok ⟨hlhs, h⟩
      · obtain ⟨kind, place, more, op, rfl, hop, hpower⟩ := exists_of_not_settled hsettled
        cases h with
        | cons _ hplace hmore =>
            rw [extent_operations hop hpower, extent_operations hop hpower]
            refine (hread _ _ _ hmore).bind fun p q hp hpq => ?_
            have hlt := length_of_outcome hp
            refine ih p.2.length (by rw [List.length_cons]; omega) ?_ hpq.2 rfl
            exact .binary op hlhs hpq.1 (hR.merge hlhs.span hpq.1.span)

/-! ## Expressions -/

/-- **Relocated expressions**: what is the same but for corresponding places is
read alike. -/
theorem expression_alike (hR : IsRelocation stop stop' R) (levels : Nat) :
    ReadersAlike R (expression stop levels) (expression stop' levels) := by
  induction levels with
  | zero => exact fun power ts ts' h => .error _ (h.frontSpan hR)
  | succ levels ih =>
      intro power ts ts' h
      rw [outcome_expression, outcome_expression]
      exact (operand_alike hR ih h).bind fun _ _ _ hpq => operations_alike hR ih hpq.1 hpq.2

/-! ## Whole lines -/

theorem expectEnd_alike (h : Relocated R ts ts') :
    Alike R (fun _ _ => True) (expectEnd ts) (expectEnd ts') := by
  cases h with
  | nil => exact .ok trivial
  | cons kind hplace h => exact .error _ hplace

/-- Whole expressions are read alike. -/
theorem parseExpression_alike (hR : IsRelocation stop stop' R) (h : Relocated R ts ts') :
    Alike R (Expr.Relocated R) (parseExpression stop ts) (parseExpression stop' ts') := by
  have hbind (stop : Nat) (ts : List Token) : parseExpression stop ts =
      (outcome (expression stop maxNesting 0 ts)).bind fun p =>
        (expectEnd p.2).map fun _ => p.1 := by
    rw [parseExpression]
    cases expression stop maxNesting 0 ts <;> rfl
  rw [hbind, hbind]
  exact (expression_alike hR maxNesting 0 ts ts' h).bind fun p q _ hpq =>
    (expectEnd_alike hpq.2).map fun _ _ _ => hpq.1

/-- The same equation, its body with corresponding parts. -/
inductive SameEquation {β γ : Type} (A : β → γ → Prop) : Equation β → Equation γ → Prop
  | vertical (x : Float) : SameEquation A (.vertical x) (.vertical x)
  | function {body : β} {body' : γ} (h : A body body') :
      SameEquation A (.function body) (.function body')

theorem verticalNumber_alike (hR : IsRelocation stop stop' R) (negative : Bool)
    (hplace : R place place') (h : Relocated R ts ts') :
    Alike R (SameEquation (Expr.Relocated R)) (verticalNumber stop negative place ts)
      (verticalNumber stop' negative place' ts') := by
  by_cases hvalue : ∃ value, found ts = some (.number value)
  · obtain ⟨value, hvalue⟩ := hvalue
    obtain ⟨place, rest, rfl⟩ := exists_of_found hvalue
    cases h with
    | cons _ _ hrest => exact (expectEnd_alike hrest).map fun _ _ _ => .vertical _
  · have hnone : ∀ value, found ts ≠ some (.number value) := fun value h => hvalue ⟨value, h⟩
    rw [verticalNumber_of_not_number hnone, verticalNumber_of_not_number (by rwa [h.found_eq]),
      h.found_eq]
    exact .error _ (hR.merge hplace (h.frontSpan hR))

/-- Vertical lines are read alike. -/
theorem parseVertical_alike (hR : IsRelocation stop stop' R) (h : Relocated R ts ts') :
    Alike R (SameEquation (Expr.Relocated R)) (parseVertical stop ts)
      (parseVertical stop' ts') := by
  by_cases hsign : ∃ kind ∈ found ts, ∃ sign, IsSign kind sign
  · obtain ⟨kind, hkind, sign, hsign⟩ := hsign
    obtain ⟨place, rest, rfl⟩ := exists_of_found hkind
    cases h with
    | cons _ hplace hrest =>
        rw [parseVertical_signed hsign, parseVertical_signed hsign]
        exact verticalNumber_alike hR _ hplace hrest
  · have hunsigned : ∀ kind ∈ found ts, ∀ sign, ¬ IsSign kind sign :=
      fun kind hkind sign h => hsign ⟨kind, hkind, sign, h⟩
    rw [parseVertical_unsigned hunsigned, parseVertical_unsigned (by rwa [h.found_eq])]
    exact verticalNumber_alike hR _ (h.frontSpan hR) h

/-- Relocated tokens define the same names. -/
theorem Relocated.defines_iff {name : String} (h : Relocated R ts ts') :
    Defines name ts' ↔ Defines name ts := by
  constructor
  · rintro ⟨place, equals, rest, rfl⟩
    cases h with
    | cons _ _ hrest => cases hrest with
      | cons _ _ _ => exact ⟨_, _, _, rfl⟩
  · rintro ⟨place, equals, rest, rfl⟩
    cases h with
    | cons _ _ hrest => cases hrest with
      | cons _ _ _ => exact ⟨_, _, _, rfl⟩

/-- Lines are read alike, and refused alike. -/
theorem parseEquation_alike (hR : IsRelocation stop stop' R) (h : Relocated R ts ts') :
    Alike R (SameEquation (Expr.Relocated R)) (parseEquation stop ts)
      (parseEquation stop' ts') := by
  have hbody {ts ts' : List Token} (h : Relocated R ts ts') :
      Alike R (SameEquation (Expr.Relocated R)) ((parseExpression stop ts).map .function)
        ((parseExpression stop' ts').map .function) :=
    (parseExpression_alike hR h).map fun _ _ => .function
  by_cases hx : Defines "x" ts
  · obtain ⟨place, equals, rest, rfl⟩ := hx
    cases h with
    | cons _ _ hrest => cases hrest with
      | cons _ _ hrest => exact parseVertical_alike hR hrest
  by_cases hy : Defines "y" ts
  · obtain ⟨place, equals, rest, rfl⟩ := hy
    cases h with
    | cons _ _ hrest => cases hrest with
      | cons _ _ hrest => exact hbody hrest
  have hx' : ¬ Defines "x" ts' := mt h.defines_iff.1 hx
  have hy' : ¬ Defines "y" ts' := mt h.defines_iff.1 hy
  cases h with
  | nil => exact .error _ hR.atEnd
  | cons kind hplace hrest =>
      rw [parseEquation_graph (List.cons_ne_nil _ _) hx hy,
        parseEquation_graph (List.cons_ne_nil _ _) hx' hy']
      exact hbody (.cons kind hplace hrest)

/-! ## Names -/

/-- Names are looked up alike, wherever they stand. -/
theorem resolveName_alike (name : String) (hplace : R place place') :
    Alike R Eq (resolveName name place) (resolveName name place') := by
  unfold resolveName
  split
  · exact .ok rfl
  · split
    · exact .ok rfl
    · split
      · exact .error _ hplace
      · exact .error _ hplace

theorem ArgumentsRelocated.length_eq {args args' : List Expr}
    (h : ArgumentsRelocated R args args') :
    args'.length = args.length := by
  induction args generalizing args' with
  | nil =>
      cases h
      rfl
  | cons arg args ih =>
      cases h with
      | cons _ hmore => rw [List.length_cons, ih hmore, List.length_cons]

end

/-- Names are looked up alike, and the formulas that come out are equal. -/
theorem resolve_alike {R : Span → Span → Prop} {e e' : Expr} (h : Expr.Relocated R e e') :
    Alike R Eq e.resolve e'.resolve := by
  cases h with
  | number value _ => exact .ok rfl
  | identifier name hplace => exact resolveName_alike name hplace
  | binary op hl hr _ =>
      rw [resolve_binary, resolve_binary]
      exact (resolve_alike hl).bind fun f g _ hfg => (resolve_alike hr).map fun _ _ hmap => by
        rw [hfg, hmap]
  | signed sign he _ =>
      rw [resolve_signed, resolve_signed]
      exact (resolve_alike he).map fun _ _ hfg => by rw [hfg]
  | call name hplace hargs hspan =>
      cases hname : Builtin.ofName? name with
      | none =>
          rw [Expr.resolve, Expr.resolve, hname]
          exact .error _ hplace
      | some f =>
          have hlength := hargs.length_eq
          cases hargs with
          | nil =>
              rw [resolve_call_wrong hname _ (by simp), resolve_call_wrong hname _ (by simp)]
              exact .error _ hspan
          | cons harg hmore =>
              cases hmore with
              | nil =>
                  rw [resolve_call_one hname, resolve_call_one hname]
                  exact (resolve_alike harg).map fun _ _ hfg => by rw [hfg]
              | cons _ _ =>
                  rw [resolve_call_wrong hname _ (by simp), resolve_call_wrong hname _ (by simp),
                    hlength]
                  exact .error _ hspan

/-! ## The same tokens -/

/-- The tokens of a line without their places. -/
def kinds (ts : List Token) : List TokenKind := ts.map (·.kind)

/-- The tokens of a text without their places, if it can be cut into tokens. -/
def kinds? (source : String) : Option (List TokenKind) := (tokenize source).toOption.map kinds

/-- From the token at the index `i` up to and with that at `j`, where the end of
the line counts as a last token. -/
def reach (stop : Nat) (ts : List Token) (i j : Nat) : Span :=
  ⟨(frontSpan stop (ts.drop i)).start, (frontSpan stop (ts.drop j)).stop⟩

/-- The two spans reach from the same token to the same token, each in its
line. -/
def SameReach (stop stop' : Nat) (ts ts' : List Token) (s s' : Span) : Prop :=
  ∃ i j, i ≤ j ∧ j ≤ ts.length ∧ s = reach stop ts i j ∧ s' = reach stop' ts' i j

section

variable {stop stop' start i j i' j' : Nat} {R : Span → Span → Prop} {ts ts' : List Token}
  {a b : String}

/-- The first kind is that of the first token. -/
theorem exists_of_kinds_eq_cons {kind : TokenKind} {ks : List TokenKind}
    (h : kinds ts = kind :: ks) :
    ∃ place rest, ts = ⟨kind, place⟩ :: rest ∧ kinds rest = ks := by
  obtain ⟨⟨_, place⟩, rest, rfl, rfl, hrest⟩ := List.map_eq_cons_iff.1 h
  exact ⟨place, rest, rfl, hrest⟩

theorem reach_self (i : Nat) : reach stop ts i i = frontSpan stop (ts.drop i) := rfl

/-- Later tokens are in order as well. -/
theorem InOrder.drop (h : InOrder stop start ts) (i : Nat) : InOrder stop start (ts.drop i) := by
  induction ts generalizing start i with
  | nil => rwa [List.drop_nil]
  | cons t ts ih =>
      cases i with
      | zero => exact h
      | succ i =>
          exact (ih h.2.2 i).mono (Nat.le_trans h.1 (Nat.le_of_lt h.2.1))

/-- Later tokens begin later and end later. -/
theorem InOrder.frontSpan_drop_mono (h : InOrder stop start ts) (hij : i ≤ j) :
    (frontSpan stop (ts.drop i)).start ≤ (frontSpan stop (ts.drop j)).start ∧
      (frontSpan stop (ts.drop i)).stop ≤ (frontSpan stop (ts.drop j)).stop := by
  obtain ⟨k, rfl⟩ := Nat.exists_eq_add_of_le hij
  have hafter := h.drop i
  rw [← List.drop_drop]
  cases hdrop : ts.drop i with
  | nil => simp
  | cons t more =>
      cases k with
      | zero => exact ⟨Nat.le_refl _, Nat.le_refl _⟩
      | succ k =>
          rw [hdrop] at hafter
          obtain ⟨-, hpos, hmore⟩ := hafter
          have hlater := (hmore.drop k).le_frontSpan
          rw [List.drop_succ_cons]
          simp only [frontSpan] at hlater ⊢
          omega

/-- Two stretches of tokens merge into the stretch that covers both. -/
theorem reach_merge (h : InOrder stop start ts) :
    (reach stop ts i j).merge (reach stop ts i' j') = reach stop ts (min i i') (max j j') := by
  have hstart : min (frontSpan stop (ts.drop i)).start (frontSpan stop (ts.drop i')).start =
      (frontSpan stop (ts.drop (min i i'))).start := by
    rcases Nat.le_total i i' with hle | hle
    · rw [Nat.min_eq_left hle, Nat.min_eq_left (h.frontSpan_drop_mono hle).1]
    · rw [Nat.min_eq_right hle, Nat.min_eq_right (h.frontSpan_drop_mono hle).1]
  have hstop : max (frontSpan stop (ts.drop j)).stop (frontSpan stop (ts.drop j')).stop =
      (frontSpan stop (ts.drop (max j j'))).stop := by
    rcases Nat.le_total j j' with hle | hle
    · rw [Nat.max_eq_right hle, Nat.max_eq_right (h.frontSpan_drop_mono hle).2]
    · rw [Nat.max_eq_left hle, Nat.max_eq_left (h.frontSpan_drop_mono hle).2]
  rw [Span.merge, reach, reach, reach, hstart, hstop]

/-- Stretches of the same tokens are a relocation. -/
theorem isRelocation_sameReach (h : InOrder stop start ts) (h' : InOrder stop' start ts')
    (hlength : ts'.length = ts.length) : IsRelocation stop stop' (SameReach stop stop' ts ts') where
  atEnd := by
    refine ⟨ts.length, ts.length, Nat.le_refl _, Nat.le_refl _, ?_, ?_⟩
    · rw [reach_self, List.drop_length, frontSpan]
    · rw [reach_self, ← hlength, List.drop_length, frontSpan]
  merge := by
    rintro _ _ _ _ ⟨i, j, hij, hj, rfl, rfl⟩ ⟨i', j', hij', hj', rfl, rfl⟩
    exact ⟨min i i', max j j', by omega, by omega, reach_merge h, reach_merge h'⟩

/-- Tokens of the same kinds are relocated tokens. -/
theorem relocated_of_kinds_eq (h : kinds ts' = kinds ts)
    (hplace : ∀ i < ts.length, R (frontSpan stop (ts.drop i)) (frontSpan stop' (ts'.drop i))) :
    Relocated R ts ts' := by
  induction ts generalizing ts' with
  | nil =>
      obtain rfl : ts' = [] := List.map_eq_nil_iff.1 h
      exact .nil
  | cons t ts ih =>
      obtain ⟨place, rest, rfl, hrest⟩ := exists_of_kinds_eq_cons h
      refine .cons t.kind (hplace 0 (Nat.succ_pos _)) (ih hrest fun i hi => ?_)
      exact hplace (i + 1) (Nat.succ_lt_succ hi)

/-- **Relocated lines**: two lines of the same kinds of token are classified
alike, with errors at the same tokens. -/
theorem classify_alike (hts : tokenize a = .ok ts) (hts' : tokenize b = .ok ts')
    (hkinds : kinds ts' = kinds ts) :
    Alike (SameReach a.length b.length ts ts') Eq (classify a) (classify b) := by
  have hlength : ts'.length = ts.length := by simpa [kinds] using congrArg List.length hkinds
  have hR := isRelocation_sameReach (inOrder_tokenize hts) (inOrder_tokenize hts') hlength
  have htokens : Relocated (SameReach a.length b.length ts ts') ts ts' :=
    relocated_of_kinds_eq hkinds fun i hi =>
      ⟨i, i, Nat.le_refl i, Nat.le_of_lt hi, rfl, rfl⟩
  have hread := parseEquation_alike hR htokens
  rw [classify, classify, read, read, hts, hts']
  dsimp only
  generalize parseEquation a.length ts = line at hread ⊢
  generalize parseEquation b.length ts' = line' at hread ⊢
  cases hread with
  | error cause hplace => exact .error cause hplace
  | ok h =>
      cases h with
      | vertical x => exact .ok rfl
      | function h => exact (resolve_alike h).map fun _ _ hfg => by rw [hfg]

/-- Alike results that are values are equal. -/
theorem Alike.toOption_eq {α : Type} {x y : Except Error α} (h : Alike R Eq x y) :
    x.toOption = y.toOption := by
  cases h with
  | ok h => rw [h]
  | error cause hplace => rfl

/-- Lines of the same kinds of token have the same meaning. -/
theorem toOption_classify_eq (h : kinds? a = kinds? b) :
    (classify a).toOption = (classify b).toOption := by
  unfold kinds? at h
  cases hts : tokenize a with
  | error e =>
      cases hts' : tokenize b with
      | error e' => simp only [classify, read, hts, hts', Except.toOption]
      | ok ts' => simp [hts, hts', Except.toOption] at h
  | ok ts =>
      cases hts' : tokenize b with
      | error e' => simp [hts, hts', Except.toOption] at h
      | ok ts' =>
          simp only [hts, hts', Except.toOption, Option.map_some, Option.some.injEq] at h
          exact (classify_alike hts hts' h.symm).toOption_eq

end

end GlutSketch.Equation
