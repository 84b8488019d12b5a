import GlutSketch.Proofs.Equation.Height
import GlutSketch.Proofs.Equation.Relocation

/-!
# GlutSketch.Proofs.Equation.Spans

Every span is a true place of the line.  Spans of trees are put together by
merging, while parentheses leave no trace and bars become calls; still the span
of a node begins where a token begins, ends where a token ends, and holds the
spans of the nodes below it in the order of the text.

* `Expr.IsPlaced` -- what makes the span of a node a place of the line;
* `AreSpanned` -- trees that stand one after the other between two places, all
  their nodes in place;
* `IsSum.areSpanned` and its companions -- whatever has a derivation is in
  place;
* `spans_are_places` -- the trees that are read, and the errors.
-/

namespace GlutSketch.Equation

/-! ## Nodes -/

/-- The operands or arguments of a node, from left to right. -/
def Expr.children : Expr → List Expr
  | .number .. | .identifier .. => []
  | .binary _ l r _ => [l, r]
  | .signed _ e _ => [e]
  | .call _ _ args _ => args

mutual

/-- The nodes of a tree, each before those below it, from left to right. -/
def Expr.nodes : Expr → List Expr
  | .number value place => [.number value place]
  | .identifier name place => [.identifier name place]
  | .binary op l r place => .binary op l r place :: (l.nodes ++ r.nodes)
  | .signed sign e place => .signed sign e place :: e.nodes
  | .call name place args span => .call name place args span :: allNodes args

/-- The nodes of several trees. -/
def allNodes : List Expr → List Expr
  | [] => []
  | e :: es => e.nodes ++ allNodes es

end

@[simp] theorem allNodes_nil : allNodes [] = [] := by
  rw [allNodes]

@[simp] theorem allNodes_cons (e : Expr) (es : List Expr) :
    allNodes (e :: es) = e.nodes ++ allNodes es := by
  rw [allNodes]

/-- The nodes of several trees are those of each, in order. -/
theorem allNodes_eq_flatMap (es : List Expr) : allNodes es = es.flatMap Expr.nodes := by
  induction es with
  | nil => simp
  | cons e es ih => simp [ih]

@[simp] theorem allNodes_append (es es' : List Expr) :
    allNodes (es ++ es') = allNodes es ++ allNodes es' := by
  simp [allNodes_eq_flatMap]

/-- A tree is its root and the trees below it. -/
theorem Expr.nodes_eq (e : Expr) : e.nodes = e :: allNodes e.children := by
  cases e <;> simp [nodes, children]

/-- A tree is one of its nodes. -/
theorem Expr.mem_nodes (e : Expr) : e ∈ e.nodes := by
  simp [nodes_eq]

mutual

/-- What holds of a node if it holds of its operands or arguments holds of all
trees. -/
theorem Expr.induction {motive : Expr → Prop} (h : ∀ e, (∀ c ∈ e.children, motive c) → motive e) :
    (e : Expr) → motive e
  | .number .. => h _ (by simp [Expr.children])
  | .identifier .. => h _ (by simp [Expr.children])
  | .binary _ l r _ => h _ (by simp [Expr.children, l.induction h, r.induction h])
  | .signed _ e _ => h _ (by simp [Expr.children, e.induction h])
  | .call _ _ args _ => h _ (forall_of_induction h args)

theorem forall_of_induction {motive : Expr → Prop}
    (h : ∀ e, (∀ c ∈ e.children, motive c) → motive e) : (es : List Expr) → ∀ e ∈ es, motive e
  | [] => by simp
  | e :: es => by
      have hfirst := e.induction h
      have hothers := forall_of_induction h es
      simpa using ⟨hfirst, hothers⟩

end

/-! ## Places of nodes -/

/-- The token of a node.  A number or a name has the span of its token, and a
call begins with the span of its name, which is a bar if it was written with
bars, and then come its arguments. -/
def Expr.HasToken (ts : List Token) : Expr → Prop
  | .number value place => ⟨.number value, place⟩ ∈ ts
  | .identifier name place => ⟨.identifier name, place⟩ ∈ ts
  | .binary .. | .signed .. => True
  | .call name place args span =>
      (⟨.identifier name, place⟩ ∈ ts ∨ name = "abs" ∧ ⟨.bar, place⟩ ∈ ts) ∧
        place.start = span.start ∧ place.start < place.stop ∧ place.stop ≤ span.stop ∧
        ∀ arg ∈ args, place.stop ≤ arg.span.start

/-- The span of a node is a place of a line with the tokens `ts`. -/
structure Expr.IsPlaced (ts : List Token) (e : Expr) : Prop where
  nonempty : e.span.start < e.span.stop
  starts : ∃ t ∈ ts, t.span.start = e.span.start
  stops : ∃ t ∈ ts, t.span.stop = e.span.stop
  /-- Its operands or arguments lie within it. -/
  within : ∀ c ∈ e.children, e.span.start ≤ c.span.start ∧ c.span.stop ≤ e.span.stop
  /-- They do not overlap, and they stand in the order of the text. -/
  inOrder : e.children.Pairwise fun c d => c.span.stop ≤ d.span.start
  token : e.HasToken ts

/-- Trees that stand one after the other between two places, with all their
nodes in place. -/
structure AreSpanned (ts : List Token) (start stop : Nat) (es : List Expr) : Prop where
  within : ∀ e ∈ es, start ≤ e.span.start ∧ e.span.stop ≤ stop
  inOrder : es.Pairwise fun c d => c.span.stop ≤ d.span.start
  placed : ∀ node ∈ allNodes es, node.IsPlaced ts

section

variable {ts ts' : List Token} {start stop start' stop' n : Nat} {e l r : Expr} {es es' : List Expr}
  {place opening closing : Span}

theorem Expr.HasToken.mono (h : e.HasToken ts) (hts : ts ⊆ ts') : e.HasToken ts' := by
  cases e with
  | number value place => exact hts h
  | identifier name place => exact hts h
  | binary => trivial
  | signed => trivial
  | call name place args span => exact ⟨h.1.imp (hts ·) (And.imp_right (hts ·)), h.2⟩

/-- A node that is placed among some tokens is placed among more of them. -/
theorem Expr.IsPlaced.mono (h : e.IsPlaced ts) (hts : ts ⊆ ts') : e.IsPlaced ts' where
  nonempty := h.nonempty
  starts := h.starts.imp fun _ => And.imp_left (hts ·)
  stops := h.stops.imp fun _ => And.imp_left (hts ·)
  within := h.within
  inOrder := h.inOrder
  token := h.token.mono hts

theorem areSpanned_nil : AreSpanned ts start stop [] :=
  ⟨by simp, .nil, by simp⟩

theorem AreSpanned.mono (h : AreSpanned ts start stop es) (hts : ts ⊆ ts') :
    AreSpanned ts' start stop es :=
  ⟨h.within, h.inOrder, fun node hnode => (h.placed node hnode).mono hts⟩

/-- Trees within bounds are within wider bounds. -/
theorem AreSpanned.widen (h : AreSpanned ts start stop es) (hstart : start' ≤ start)
    (hstop : stop ≤ stop') : AreSpanned ts start' stop' es := by
  refine ⟨fun e he => ?_, h.inOrder, h.placed⟩
  have hwithin := h.within e he
  omega

/-- A tree lies within its bounds and is placed. -/
theorem AreSpanned.root (h : AreSpanned ts start stop [e]) :
    start ≤ e.span.start ∧ e.span.stop ≤ stop ∧ e.IsPlaced ts := by
  have hwithin := h.within e List.mem_cons_self
  exact ⟨hwithin.1, hwithin.2, h.placed e (by simp [e.mem_nodes])⟩

/-- A tree stands between the ends of its span. -/
theorem AreSpanned.tight (h : AreSpanned ts start stop [e]) :
    AreSpanned ts e.span.start e.span.stop [e] :=
  ⟨by simp, h.inOrder, h.placed⟩

/-- Trees side by side. -/
theorem AreSpanned.append (h : AreSpanned ts start stop es) (h' : AreSpanned ts start' stop' es')
    (hle : stop ≤ start') (hstart : start ≤ start') (hstop : stop ≤ stop') :
    AreSpanned ts start stop' (es ++ es') := by
  refine ⟨fun e he => ?_, List.pairwise_append.2 ⟨h.inOrder, h'.inOrder, fun a ha b hb => ?_⟩,
    fun node hnode => ?_⟩
  · rcases List.mem_append.1 he with he | he
    · have hwithin := h.within e he
      omega
    · have hwithin := h'.within e he
      omega
  · have ha := h.within a ha
    have hb := h'.within b hb
    omega
  · rw [allNodes_append, List.mem_append] at hnode
    exact hnode.elim (h.placed node) (h'.placed node)

/-- A node above trees that are in place. -/
theorem AreSpanned.parent (h : AreSpanned ts start stop e.children)
    (hspan : e.span = ⟨start', stop'⟩) (hstart : start' ≤ start) (hstop : stop ≤ stop')
    (hne : start' < stop') (hstarts : ∃ t ∈ ts, t.span.start = start')
    (hstops : ∃ t ∈ ts, t.span.stop = stop') (htoken : e.HasToken ts) :
    AreSpanned ts start' stop' [e] := by
  have hwithin := (h.widen hstart hstop).within
  have hplaced : e.IsPlaced ts :=
    ⟨by rwa [hspan], by rwa [hspan], by rwa [hspan], by rwa [hspan], h.inOrder, htoken⟩
  refine ⟨by simp [hspan], List.pairwise_singleton .., ?_⟩
  simpa [e.nodes_eq] using And.intro hplaced h.placed

/-! ### Forms of trees -/

/-- Two places in order merge into the stretch between their ends. -/
theorem merge_eq_of_le {a b : Span} (hstart : a.start ≤ b.start) (hstop : a.stop ≤ b.stop) :
    a.merge b = ⟨a.start, b.stop⟩ := by
  rw [Span.merge, Nat.min_eq_left hstart, Nat.max_eq_right hstop]

/-- A number or a name. -/
theorem areSpanned_leaf {kind : TokenKind} (hmem : ⟨kind, place⟩ ∈ ts) (hleaf : e.children = [])
    (hspan : e.span = place) (hne : place.start < place.stop) (htoken : e.HasToken ts) :
    AreSpanned ts place.start place.stop [e] := by
  have hbelow : AreSpanned ts place.start place.stop e.children := hleaf ▸ areSpanned_nil
  exact hbelow.parent hspan (Nat.le_refl _) (Nat.le_refl _) hne ⟨_, hmem, rfl⟩ ⟨_, hmem, rfl⟩ htoken

/-- An operation spans both of its operands. -/
theorem AreSpanned.operation (op : BinaryOp) (hl : AreSpanned ts start start' [l])
    (hr : AreSpanned ts stop' stop [r]) (hle : start' ≤ stop') :
    AreSpanned ts start stop [operationTree op l r] := by
  obtain ⟨hstart, hend, hleft⟩ := hl.root
  obtain ⟨hbegin, hstop, hright⟩ := hr.root
  have hlne := hleft.nonempty
  have hrne := hright.nonempty
  have hspan : (operationTree op l r).span = ⟨l.span.start, r.span.stop⟩ :=
    merge_eq_of_le (by omega) (by omega)
  have hbelow : AreSpanned ts l.span.start r.span.stop (operationTree op l r).children :=
    hl.tight.append hr.tight (by omega) (by omega) (by omega)
  have hwhole := hbelow.parent hspan (Nat.le_refl _) (Nat.le_refl _) (by omega) hleft.starts
    hright.stops trivial
  exact hwhole.widen hstart hstop

/-- A sign before its operand. -/
theorem AreSpanned.signed (kind : TokenKind) (sign : Sign) (hplace : place.start < place.stop)
    (h : AreSpanned ts place.stop stop [e]) :
    AreSpanned (⟨kind, place⟩ :: ts) place.start stop [.signed sign e (place.merge e.span)] := by
  obtain ⟨hstart, hstop, hroot⟩ := h.root
  have hne := hroot.nonempty
  have hspan : (Expr.signed sign e (place.merge e.span)).span = ⟨place.start, e.span.stop⟩ :=
    merge_eq_of_le (by omega) (by omega)
  have hoperand := h.tight.mono (List.subset_cons_self ⟨kind, place⟩ ts)
  have hbelow : AreSpanned (⟨kind, place⟩ :: ts) e.span.start e.span.stop
      (Expr.signed sign e (place.merge e.span)).children := hoperand
  have hwhole := hbelow.parent hspan (by omega) (Nat.le_refl _) (by omega)
    ⟨_, List.mem_cons_self, rfl⟩ hoperand.root.2.2.stops trivial
  exact hwhole.widen (Nat.le_refl _) hstop

/-- A call with its arguments before the token that closes it. -/
theorem AreSpanned.call {name : String} (kind : TokenKind)
    (hname : ⟨.identifier name, place⟩ ∈ ts ∨ name = "abs" ∧ ⟨.bar, place⟩ ∈ ts)
    (hclosing : ⟨kind, closing⟩ ∈ ts) (hplace : place.start < place.stop)
    (hle : place.stop ≤ start) (h : AreSpanned ts start closing.start es)
    (hstart : start ≤ closing.start) (hclose : closing.start < closing.stop) :
    AreSpanned ts place.start closing.stop [.call name place es (place.merge closing)] := by
  have hspan : (Expr.call name place es (place.merge closing)).span =
      ⟨place.start, closing.stop⟩ := merge_eq_of_le (by omega) (by omega)
  have hbelow : AreSpanned ts start closing.start
      (Expr.call name place es (place.merge closing)).children := h
  have hstarts : ∃ t ∈ ts, t.span.start = place.start := by
    rcases hname with hname | ⟨-, hname⟩
    · exact ⟨_, hname, rfl⟩
    · exact ⟨_, hname, rfl⟩
  have htoken : (Expr.call name place es (place.merge closing)).HasToken ts := by
    rw [Expr.span] at hspan
    rw [hspan]
    exact ⟨hname, rfl, hplace, by dsimp only; omega, fun arg harg =>
      Nat.le_trans hle (h.within arg harg).1⟩
  exact hbelow.parent hspan (by omega) (Nat.le_of_lt hclose) (by omega) hstarts
    ⟨_, hclosing, rfl⟩ htoken

/-! ## What has a derivation is in place -/

/-- The operands of an operation, on both sides of its token. -/
theorem areSpanned_operationTree (op : BinaryOp) {t : Token} {ls rs : List Token}
    (h : InOrder stop start (ls ++ t :: rs))
    (hl : InOrder t.span.start start ls → AreSpanned ls start t.span.start [l])
    (hr : InOrder stop t.span.stop rs → AreSpanned rs t.span.stop stop [r]) :
    AreSpanned (ls ++ t :: rs) start stop [operationTree op l r] := by
  obtain ⟨hls, hplace, hrs⟩ := inOrder_append_cons_iff.1 h
  have hleft := (hl hls).mono (List.subset_append_left ls (t :: rs))
  have hright := (hr hrs).mono (List.subset_append_of_subset_right ls (List.subset_cons_self t rs))
  exact hleft.operation op hright (Nat.le_of_lt hplace)

/-- What stands between two tokens. -/
theorem areSpanned_enclosed {t u : Token} (h : InOrder stop start (t :: (ts ++ [u])))
    (hinner : InOrder u.span.start t.span.stop ts →
      AreSpanned ts t.span.stop u.span.start es) :
    AreSpanned (t :: (ts ++ [u])) t.span.stop u.span.start es := by
  obtain ⟨-, -, hrest⟩ := h
  obtain ⟨hts, -, -⟩ := inOrder_append_cons_iff.1 hrest
  exact (hinner hts).mono (List.subset_cons_of_subset t (List.subset_append_left ts [u]))

mutual

/-- The tree of a derivation stands where its tokens stand, with all its nodes
in place. -/
theorem IsSum.areSpanned {ts : List Token} {e : Expr} {n start stop : Nat} (h : IsSum ts e n)
    (horder : InOrder stop start ts) : AreSpanned ts start stop [e] :=
  match h with
  | .product h => h.areSpanned horder
  | .operation _ _ hl hr => areSpanned_operationTree _ horder hl.areSpanned hr.areSpanned

/-- A product is placed among its tokens. -/
theorem IsProduct.areSpanned {ts : List Token} {e : Expr} {n start stop : Nat}
    (h : IsProduct ts e n)
    (horder : InOrder stop start ts) : AreSpanned ts start stop [e] :=
  match h with
  | .unary h => h.areSpanned horder
  | .operation _ _ hl hr => areSpanned_operationTree _ horder hl.areSpanned hr.areSpanned

/-- A signed operand is placed among its tokens. -/
theorem IsUnary.areSpanned {ts : List Token} {e : Expr} {n start stop : Nat} (h : IsUnary ts e n)
    (horder : InOrder stop start ts) : AreSpanned ts start stop [e] :=
  match h with
  | .power h => h.areSpanned horder
  | .signed place _ h => by
      obtain ⟨hstart, hplace, hrest⟩ := horder
      exact ((h.areSpanned hrest).signed _ _ hplace).widen hstart (Nat.le_refl _)

/-- A power is placed among its tokens. -/
theorem IsPower.areSpanned {ts : List Token} {e : Expr} {n start stop : Nat} (h : IsPower ts e n)
    (horder : InOrder stop start ts) : AreSpanned ts start stop [e] :=
  match h with
  | .atom h => h.areSpanned horder
  | .raised _ hl hr => areSpanned_operationTree _ horder hl.areSpanned hr.areSpanned

/-- An atom is placed among its tokens, brackets included. -/
theorem IsAtom.areSpanned {ts : List Token} {e : Expr} {n start stop : Nat} (h : IsAtom ts e n)
    (horder : InOrder stop start ts) : AreSpanned ts start stop [e] :=
  match h with
  | .number value place => by
      obtain ⟨hstart, hplace, hstop⟩ := horder
      have hleaf :
          AreSpanned [⟨.number value, place⟩] place.start place.stop [.number value place] :=
        areSpanned_leaf List.mem_cons_self rfl rfl hplace List.mem_cons_self
      exact hleaf.widen hstart hstop
  | .identifier name place => by
      obtain ⟨hstart, hplace, hstop⟩ := horder
      have hleaf : AreSpanned [⟨.identifier name, place⟩] place.start place.stop
          [.identifier name place] :=
        areSpanned_leaf List.mem_cons_self rfl rfl hplace List.mem_cons_self
      exact hleaf.widen hstart hstop
  | .emptyCall name place opening closing => by
      obtain ⟨hstart, hplace, hopening, hopen, hclosing, hclose, hstop⟩ := horder
      exact (areSpanned_nil.call .rightParen (.inl List.mem_cons_self) (by simp) hplace
        (Nat.le_trans hopening (Nat.le_of_lt hopen)) hclosing hclose).widen hstart hstop
  | .call name place opening closing h => by
      obtain ⟨hstart, hplace, hinside⟩ := horder
      have hargs := (areSpanned_enclosed hinside h.areSpanned).mono
        (List.subset_cons_self ⟨.identifier name, place⟩ _)
      obtain ⟨hopening, hopen, hrest⟩ := hinside
      obtain ⟨hargsOrder, hclose, hstop⟩ := inOrder_append_cons_iff.1 hrest
      exact (hargs.call .rightParen (.inl List.mem_cons_self) (by simp) hplace
        (Nat.le_trans hopening (Nat.le_of_lt hopen)) hargsOrder.start_le hclose).widen hstart hstop
  | .grouped opening closing h => by
      have hbody := areSpanned_enclosed horder h.areSpanned
      obtain ⟨hstart, hopen, hrest⟩ := horder
      obtain ⟨-, hclose, hstop⟩ := inOrder_append_cons_iff.1 hrest
      exact hbody.widen (Nat.le_trans hstart (Nat.le_of_lt hopen))
        (Nat.le_trans (Nat.le_of_lt hclose) hstop)
  | .absolute opening closing h => by
      have hbody := areSpanned_enclosed horder h.areSpanned
      obtain ⟨hstart, hopen, hrest⟩ := horder
      obtain ⟨hbodyOrder, hclose, hstop⟩ := inOrder_append_cons_iff.1 hrest
      exact (hbody.call .bar (.inr ⟨rfl, List.mem_cons_self⟩) (by simp) hopen (Nat.le_refl _)
        hbodyOrder.start_le hclose).widen hstart hstop

/-- Arguments are placed side by side. -/
theorem IsArguments.areSpanned {ts : List Token} {es : List Expr} {n start stop : Nat}
    (h : IsArguments ts es n) (horder : InOrder stop start ts) : AreSpanned ts start stop es :=
  match h with
  | .last h => h.areSpanned horder
  | @IsArguments.more ls _ _ rs _ _ place hl hr => by
      obtain ⟨hls, hplace, hrs⟩ := inOrder_append_cons_iff.1 horder
      have hfirst := (hl.areSpanned hls).mono (List.subset_append_left ls (⟨.comma, place⟩ :: rs))
      have hothers := (hr.areSpanned hrs).mono
        (List.subset_append_of_subset_right ls (List.subset_cons_self ⟨.comma, place⟩ rs))
      exact hfirst.append hothers (Nat.le_of_lt hplace)
        (Nat.le_trans hls.start_le (Nat.le_of_lt hplace))
        (Nat.le_trans (Nat.le_of_lt hplace) hrs.start_le)

end

/-! ## Lines -/

variable {source : String} {err : Error}

/-- **Spans of trees**: all nodes of a tree that is read are in place. -/
theorem IsRead.exists_isPlaced (h : IsRead source e) :
    ∃ ts, tokenize source = .ok ts ∧ ∀ node ∈ e.nodes, node.IsPlaced ts := by
  obtain ⟨front, ts, hts, n, hsum, -⟩ := h.exists_tokens
  have horder := (inOrder_tokenize hts).drop front.length
  rw [List.drop_left] at horder
  have hplaced := ((hsum.areSpanned horder).mono (List.subset_append_right front ts)).placed
  exact ⟨front ++ ts, hts, by simpa using hplaced⟩

/-- From one token to a later one, where the end of the line counts as a last
token. -/
theorem reach_bounds {i j : Nat} (h : InOrder stop start ts) (hij : i ≤ j) :
    (reach stop ts i j).start ≤ (reach stop ts i j).stop ∧ (reach stop ts i j).stop ≤ stop ∧
      ((reach stop ts i j).start = (reach stop ts i j).stop →
        (reach stop ts i j).start = stop) := by
  have hmono := h.frontSpan_drop_mono hij
  have hfirst := (h.drop i).frontSpan_le
  have hlast := (h.drop j).frontSpan_le
  have hnonempty := (h.drop j).le_frontSpan
  rw [reach]
  dsimp only
  omega

/-- An error is about characters of the line, or about its end. -/
theorem span_of_classify_eq_error (h : classify source = .error err) :
    err.span.start ≤ err.span.stop ∧ err.span.stop ≤ source.length ∧
      (err.span.start = err.span.stop → err.span.start = source.length) := by
  cases hts : tokenize source with
  | error e =>
      obtain ⟨place, c, ts, -, hstuck, rfl⟩ := exists_of_tokensFrom_error List.drop_zero hts
      have hlt := (List.getElem?_eq_some_iff.1 hstuck.front).1
      rw [String.length_toList] at hlt
      simp only [classify, read, hts, Except.error.injEq] at h
      subst h
      dsimp only
      omega
  | ok ts =>
      have halike := classify_alike hts hts rfl
      rw [h] at halike
      cases halike with
      | error cause hplace =>
          obtain ⟨i, j, hij, -, rfl, -⟩ := hplace
          exact reach_bounds (inOrder_tokenize hts) hij

/-- **Spans**: every span is a true place of the line.  That holds of the nodes
of a tree that is read, and of the error of a line that is refused, which is
empty only at the end of the line. -/
theorem spans_are_places (source : String) :
    (∀ e, IsRead source e →
        ∃ ts, tokenize source = .ok ts ∧ ∀ node ∈ e.nodes, node.IsPlaced ts) ∧
      ∀ err, classify source = .error err →
        err.span.start ≤ err.span.stop ∧ err.span.stop ≤ source.length ∧
          (err.span.start = err.span.stop → err.span.start = source.length) := by
  constructor
  · intro e he
    exact he.exists_isPlaced
  · intro err herr
    exact span_of_classify_eq_error herr

/-- The bars of an absolute value belong to it, and their absence is met at the
end of the line. -/
theorem spans_are_places_absolute :
    (∃ e ts, IsRead "2*|x|" e ∧ e.span = ⟨0, 5⟩ ∧ e.nodes.length = 4 ∧ tokenize "2*|x|" = .ok ts ∧
        ∀ node ∈ e.nodes, node.IsPlaced ts) ∧
      ∃ err, classify "2*|x" = .error err ∧ err.span = ⟨4, 4⟩ ∧ err.span.stop ≤ "2*|x".length := by
  have htokens : tokenize "2*|x|" = .ok [⟨.number 2, ⟨0, 1⟩⟩, ⟨.star, ⟨1, 2⟩⟩, ⟨.bar, ⟨2, 3⟩⟩,
      ⟨.identifier "x", ⟨3, 4⟩⟩, ⟨.bar, ⟨4, 5⟩⟩] :=
    Except.toOption_eq_some_iff.1 (by decide +kernel)
  have habsolute := IsAtom.absolute ⟨2, 3⟩ ⟨4, 5⟩ (IsAtom.identifier "x" ⟨3, 4⟩).toUnary.toSum
  have hproduct := IsProduct.operation ⟨1, 2⟩ .mul (IsAtom.number 2 ⟨0, 1⟩).toProduct
    habsolute.toUnary
  have hread : IsRead "2*|x|" _ :=
    .inl (isRead_of_isExpression htokens ⟨_, .product hproduct, by decide⟩).1
  have hrefused : classify "2*|x" = .error ⟨.missingToken .bar none, ⟨4, 4⟩⟩ := by decide +kernel
  obtain ⟨ts, hts, hplaced⟩ := (spans_are_places "2*|x|").1 _ hread
  exact ⟨⟨_, ts, hread, rfl, rfl, hts, hplaced⟩, _, hrefused, rfl,
    ((spans_are_places "2*|x").2 _ hrefused).2.1⟩

end

end GlutSketch.Equation
