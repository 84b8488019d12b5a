import GlutSketch.Proofs.Equation.Naming
import GlutSketch.Proofs.Equation.Spans

/-!
# GlutSketch.Proofs.Equation.Faults

Which trees are refused for their names, and with which error.  `Expr.IsFault`
says what is wrong with a single node.  The names are looked up from the root
down and from left to right, so that the first faulty node in this order is
reported; where the nodes are in their places, this is the order of the text.

* `resolve_eq_error_iff` -- the first fault is reported;
* `pairwise_precedes_nodes` -- the nodes of a tree in the order of the text;
* `resolve_reports_leftmost` -- the fault that is reported is the leftmost of
  the line.
-/

namespace GlutSketch.Equation

/-! ## Nodes -/

/-- What a node names has a meaning: a name is the variable or a constant, and a
call is a call of a function with one argument.  The other nodes name
nothing. -/
def Expr.IsWellNamed : Expr → Prop
  | .identifier name _ => name = "x" ∨ ∃ value, IsConstantName name value
  | .call name _ args _ => (∃ f, IsFunctionName name f) ∧ args.length = 1
  | _ => True

/-- What is wrong with a node, and where.  A call is faulty because of its name,
whatever its arguments are, and only then because of their number. -/
inductive Expr.IsFault : Expr → Error → Prop
  | functionWithoutArgument {name : String} {f : Builtin} (place : Span)
      (hname : IsFunctionName name f) :
      IsFault (.identifier name place) ⟨.functionWithoutArgument name, place⟩
  | unknownIdentifier {name : String} (place : Span) (hvariable : name ≠ "x")
      (hconstant : ∀ value, ¬ IsConstantName name value)
      (hfunction : ∀ f, ¬ IsFunctionName name f) :
      IsFault (.identifier name place) ⟨.unknownIdentifier name, place⟩
  | unknownFunction {name : String} (place : Span) (args : List Expr) (span : Span)
      (hname : ∀ f, ¬ IsFunctionName name f) :
      IsFault (.call name place args span) ⟨.unknownFunction name, place⟩
  | wrongArity {name : String} {f : Builtin} (place : Span) {args : List Expr} (span : Span)
      (hname : IsFunctionName name f) (hargs : args.length ≠ 1) :
      IsFault (.call name place args span) ⟨.wrongArity name args.length, span⟩

section

variable {err : Error} {name : String} {place span : Span} {args : List Expr} {f : Builtin}
  {nodes xs ys : List Expr} {e : Expr} {ts : List Token}

/-- No function has the name of the variable or of a constant. -/
theorem IsFunctionName.not_isWellNamed (h : IsFunctionName name f) :
    ¬ (Expr.identifier name place).IsWellNamed := by
  simp only [Expr.IsWellNamed, ← constant?_eq_some_iff]
  cases h <;> simp [constant?, constants, List.lookup_cons]

/-- A name that is neither the variable nor a constant is at fault, and the
fault says whether it is a function. -/
theorem isFault_identifier_iff :
    (Expr.identifier name place).IsFault err ↔
      ¬ (Expr.identifier name place).IsWellNamed ∧
        ((∃ f, IsFunctionName name f) ∧ err = ⟨.functionWithoutArgument name, place⟩ ∨
          (¬ ∃ f, IsFunctionName name f) ∧ err = ⟨.unknownIdentifier name, place⟩) := by
  constructor
  · intro h
    cases h with
    | functionWithoutArgument _ hname => exact ⟨hname.not_isWellNamed, .inl ⟨⟨_, hname⟩, rfl⟩⟩
    | unknownIdentifier _ hvariable hconstant hfunction =>
        have hill : ¬ (Expr.identifier name place).IsWellNamed := by
          simp [Expr.IsWellNamed, hvariable, hconstant]
        exact ⟨hill, .inr ⟨not_exists.2 hfunction, rfl⟩⟩
  · rintro ⟨hill, ⟨⟨f, hname⟩, rfl⟩ | ⟨hnone, rfl⟩⟩
    · exact .functionWithoutArgument place hname
    · simp only [Expr.IsWellNamed, not_or, not_exists] at hill
      exact .unknownIdentifier place hill.1 hill.2 (not_exists.1 hnone)

/-- A call is at fault for its name first, and for the number of its arguments
otherwise. -/
theorem isFault_call_iff :
    (Expr.call name place args span).IsFault err ↔
      (¬ ∃ f, IsFunctionName name f) ∧ err = ⟨.unknownFunction name, place⟩ ∨
        (∃ f, IsFunctionName name f) ∧ args.length ≠ 1 ∧
          err = ⟨.wrongArity name args.length, span⟩ := by
  constructor
  · intro h
    cases h with
    | unknownFunction _ _ _ hname => exact .inl ⟨not_exists.2 hname, rfl⟩
    | wrongArity _ _ hname hargs => exact .inr ⟨⟨_, hname⟩, hargs, rfl⟩
  · rintro (⟨hname, rfl⟩ | ⟨⟨f, hname⟩, hargs, rfl⟩)
    · exact .unknownFunction place args span (not_exists.1 hname)
    · exact .wrongArity place span hname hargs

theorem not_isFault_number {value : Float} : ¬ (Expr.number value place).IsFault err := by
  rintro ⟨⟩

theorem not_isFault_binary {op : BinaryOp} {l r : Expr} :
    ¬ (Expr.binary op l r place).IsFault err := by
  rintro ⟨⟩

theorem not_isFault_signed {sign : Sign} : ¬ (Expr.signed sign e place).IsFault err := by
  rintro ⟨⟩

/-- Exactly the nodes that are not well named have a fault. -/
theorem exists_isFault_iff : (∃ err, e.IsFault err) ↔ ¬ e.IsWellNamed := by
  cases e with
  | number => simp [not_isFault_number, Expr.IsWellNamed]
  | binary => simp [not_isFault_binary, Expr.IsWellNamed]
  | signed => simp [not_isFault_signed, Expr.IsWellNamed]
  | identifier name place =>
      by_cases hname : ∃ f, IsFunctionName name f
      · simp [isFault_identifier_iff, hname]
      · simp [isFault_identifier_iff, hname]
  | call name place args span =>
      by_cases hname : ∃ f, IsFunctionName name f
      · simp [isFault_call_iff, Expr.IsWellNamed, hname]
      · simp [isFault_call_iff, Expr.IsWellNamed, hname]

/-! ## The first fault -/

/-- The first of the nodes that is not well named has the fault. -/
def FirstFault (err : Error) : List Expr → Prop
  | [] => False
  | node :: nodes => node.IsFault err ∨ node.IsWellNamed ∧ FirstFault err nodes

/-- The first fault of two lists is in the first one, unless nothing is wrong
there. -/
theorem firstFault_append :
    FirstFault err (xs ++ ys) ↔
      FirstFault err xs ∨ (∀ x ∈ xs, x.IsWellNamed) ∧ FirstFault err ys := by
  induction xs with
  | nil => simp [FirstFault]
  | cons x xs ih =>
      simp only [List.cons_append, FirstFault, ih, List.forall_mem_cons, and_or_left, or_assoc,
        and_assoc]

/-- There is a first fault exactly if a node is not well named. -/
theorem exists_firstFault_iff :
    (∃ err, FirstFault err nodes) ↔ ∃ node ∈ nodes, ¬ node.IsWellNamed := by
  induction nodes with
  | nil => simp [FirstFault]
  | cons node nodes ih =>
      simp only [FirstFault, exists_or, exists_isFault_iff, exists_and_left, ih, List.mem_cons,
        exists_eq_or_imp]
      by_cases hnode : node.IsWellNamed <;> simp [hnode]

/-- What fails exactly with the first fault succeeds if there is none. -/
theorem exists_ok_iff_of_firstFault {α : Type} {r : Except Error α}
    (h : ∀ err, r = .error err ↔ FirstFault err nodes) :
    (∃ a, r = .ok a) ↔ ∀ node ∈ nodes, node.IsWellNamed := by
  have hfault := @exists_firstFault_iff nodes
  simp only [← h] at hfault
  cases r with
  | ok a => simpa using hfault
  | error err => simpa using hfault

/-! ## Looking up names -/

/-- A name is refused with its own fault. -/
theorem resolveName_eq_error_iff :
    resolveName name place = .error err ↔ (Expr.identifier name place).IsFault err := by
  simp only [isFault_identifier_iff, Expr.IsWellNamed, ← constant?_eq_some_iff,
    ← ofName?_eq_some_iff]
  rw [resolveName, argumentName]
  by_cases hx : name = "x"
  · simp [hx]
  · cases hconstant : constant? name with
    | some value => simp [hx]
    | none => cases hname : Builtin.ofName? name <;> simp [hx, eq_comm]

/-- Looking up the names of a tree fails with the first fault of its nodes. -/
theorem resolve_eq_error_iff (e : Expr) (err : Error) :
    e.resolve = .error err ↔ FirstFault err e.nodes := by
  induction e using Expr.induction generalizing err with
  | h e ih =>
      simp only [e.nodes_eq, FirstFault]
      cases e with
      | number value place => simp [Expr.resolve, Expr.children, FirstFault, not_isFault_number]
      | identifier name place =>
          simp [Expr.resolve, Expr.children, FirstFault, resolveName_eq_error_iff]
      | binary op l r place =>
          have hl := ih l (by simp [Expr.children])
          have hr := ih r (by simp [Expr.children])
          have hleft := exists_ok_iff_of_firstFault hl
          simp [resolve_binary, Except.bind_eq_error_iff, Except.map_eq_error_iff, exists_and_right,
            hl, hr, hleft, Expr.children, firstFault_append, not_isFault_binary, Expr.IsWellNamed]
      | signed sign operand place =>
          have hoperand := ih operand (by simp [Expr.children])
          simp [resolve_signed, Except.map_eq_error_iff, hoperand, Expr.children,
            not_isFault_signed, Expr.IsWellNamed]
      | call name place args span =>
          simp only [Expr.children, isFault_call_iff, Expr.IsWellNamed]
          cases hname : Builtin.ofName? name with
          | none =>
              have hnone : ¬ ∃ f, IsFunctionName name f := by simp [← ofName?_eq_some_iff, hname]
              simp [Expr.resolve, hname, hnone, eq_comm]
          | some f =>
              have hsome : ∃ f, IsFunctionName name f := ⟨f, ofName?_eq_some_iff.1 hname⟩
              cases args with
              | nil => simp [resolve_call_wrong hname, hsome, eq_comm]
              | cons arg others =>
                  cases others with
                  | nil =>
                      have harg := ih arg (by simp [Expr.children])
                      simp [resolve_call_one hname, Except.map_eq_error_iff, harg, hsome]
                  | cons second others => simp [resolve_call_wrong hname, hsome, eq_comm]

/-! ## The order of the text -/

/-- What lies below a node that is in place lies within its span. -/
theorem Expr.IsPlaced.within_nodes (h : ∀ node ∈ e.nodes, node.IsPlaced ts) :
    ∀ node ∈ e.nodes, e.span.start ≤ node.span.start ∧ node.span.stop ≤ e.span.stop := by
  induction e using Expr.induction with
  | h e ih =>
      intro node hnode
      have hroot := h e e.mem_nodes
      rw [e.nodes_eq] at h hnode
      rcases List.mem_cons.1 hnode with rfl | hbelow
      · simp
      · rw [allNodes_eq_flatMap] at h hbelow
        obtain ⟨c, hc, hnode⟩ := List.mem_flatMap.1 hbelow
        have hchild := hroot.within c hc
        have hplaced : ∀ node ∈ c.nodes, node.IsPlaced ts := fun node hnode =>
          h node (List.mem_cons_of_mem _ (List.mem_flatMap_of_mem hc hnode))
        have hwithin := ih c hc hplaced node hnode
        omega

/-- A node begins no later than another, and earlier if it is not well named. -/
def Expr.Precedes (a b : Expr) : Prop :=
  a.span.start ≤ b.span.start ∧ (¬ a.IsWellNamed → a.span.start < b.span.start)

theorem Expr.precedes_of_lt {a b : Expr} (h : a.span.start < b.span.start) : a.Precedes b :=
  ⟨Nat.le_of_lt h, fun _ => h⟩

/-- A node that names something begins with its name, and what is below it comes
after the name. -/
theorem Expr.IsPlaced.precedes_child {c node : Expr} (h : e.IsPlaced ts) (hc : c ∈ e.children)
    (hnode : c.span.start ≤ node.span.start) : e.Precedes node := by
  have hwithin := h.within c hc
  refine ⟨by omega, fun hill => ?_⟩
  cases e with
  | number => simp [children] at hc
  | identifier => simp [children] at hc
  | binary => simp [IsWellNamed] at hill
  | signed => simp [IsWellNamed] at hill
  | call name place args span =>
      obtain ⟨-, hstart, hname, -, hargs⟩ := h.token
      calc span.start = place.start := hstart.symm
        _ < place.stop := hname
        _ ≤ c.span.start := hargs c hc
        _ ≤ node.span.start := hnode

/-- The nodes of a tree stand in the order of the text. -/
theorem pairwise_precedes_nodes (h : ∀ node ∈ e.nodes, node.IsPlaced ts) :
    e.nodes.Pairwise Expr.Precedes := by
  induction e using Expr.induction with
  | h e ih =>
      have hroot := h e e.mem_nodes
      have hplaced : ∀ c ∈ e.children, ∀ node ∈ c.nodes, node.IsPlaced ts := by
        intro c hc node hnode
        refine h node ?_
        rw [e.nodes_eq, allNodes_eq_flatMap]
        exact List.mem_cons_of_mem _ (List.mem_flatMap_of_mem hc hnode)
      rw [e.nodes_eq, allNodes_eq_flatMap, List.pairwise_cons, List.pairwise_flatMap]
      refine ⟨?_, fun c hc => ih c hc (hplaced c hc), ?_⟩
      · intro node hnode
        obtain ⟨c, hc, hnode⟩ := List.mem_flatMap.1 hnode
        exact hroot.precedes_child hc (Expr.IsPlaced.within_nodes (hplaced c hc) node hnode).1
      · refine hroot.inOrder.imp_of_mem fun {c d} hc hd hcd a ha b hb => Expr.precedes_of_lt ?_
        have hleft := Expr.IsPlaced.within_nodes (hplaced c hc) a ha
        have hright := Expr.IsPlaced.within_nodes (hplaced d hd) b hb
        have hne := (hplaced c hc a ha).nonempty
        omega

/-- **Order**: of nodes in the order of the text, the first that is faulty is
the leftmost. -/
theorem firstFault_iff_leftmost (h : nodes.Pairwise Expr.Precedes) :
    FirstFault err nodes ↔ ∃ node ∈ nodes, node.IsFault err ∧
      ∀ other ∈ nodes, ¬ other.IsWellNamed → other = node ∨ node.span.start < other.span.start := by
  induction nodes with
  | nil => simp [FirstFault]
  | cons first nodes ih =>
      obtain ⟨hfirst, hothers⟩ := List.pairwise_cons.1 h
      rw [FirstFault, ih hothers]
      constructor
      · rintro (hfault | ⟨hwell, node, hnode, hfault, hleft⟩)
        · have hill := exists_isFault_iff.1 ⟨err, hfault⟩
          refine ⟨first, List.mem_cons_self, hfault, fun other hother _ => ?_⟩
          exact (List.mem_cons.1 hother).imp_right fun hother => (hfirst other hother).2 hill
        · refine ⟨node, List.mem_cons_of_mem _ hnode, hfault, fun other hother hill => ?_⟩
          rcases List.mem_cons.1 hother with rfl | hother
          · exact absurd hwell hill
          · exact hleft other hother hill
      · rintro ⟨node, hnode, hfault, hleft⟩
        by_cases hwell : first.IsWellNamed
        · rcases List.mem_cons.1 hnode with rfl | hnode
          · exact .inl hfault
          · exact .inr ⟨hwell, node, hnode, hfault, fun other hother =>
              hleft other (List.mem_cons_of_mem _ hother)⟩
        · -- a faulty node at the front cannot come after the reported one
          have hbefore := hleft first List.mem_cons_self hwell
          rcases List.mem_cons.1 hnode with rfl | hnode
          · exact .inl hfault
          · rcases hbefore with rfl | hlt
            · exact .inl hfault
            · have hle := (hfirst node hnode).1
              omega

variable {source : String}

/-- **Faults**: the names of a tree that is read have meanings exactly if each
of its nodes is well named, and if not, the error is that of the node which
begins first in the line among those that are not. -/
theorem resolve_reports_leftmost (h : IsRead source e) :
    ((∃ f, e.resolve = .ok f) ↔ ∀ node ∈ e.nodes, node.IsWellNamed) ∧
      ∀ err, e.resolve = .error err ↔ ∃ node ∈ e.nodes, node.IsFault err ∧
        ∀ other ∈ e.nodes, ¬ other.IsWellNamed →
          other = node ∨ node.span.start < other.span.start := by
  obtain ⟨ts, -, hplaced⟩ := h.exists_isPlaced
  refine ⟨exists_ok_iff_of_firstFault (resolve_eq_error_iff e), fun err => ?_⟩
  rw [resolve_eq_error_iff, firstFault_iff_leftmost (pairwise_precedes_nodes hplaced)]

/-- A call with an argument too many is reported, and neither the name in it nor
that after it. -/
theorem resolve_reports_leftmost_call :
    ∃ e, IsRead "x + sin(y, x) + q" e ∧
      e.resolve = .error ⟨.wrongArity "sin" 2, ⟨4, 13⟩⟩ ∧ (¬ ∀ node ∈ e.nodes, node.IsWellNamed) ∧
      ∃ node ∈ e.nodes, node.IsFault ⟨.wrongArity "sin" 2, ⟨4, 13⟩⟩ ∧
        ∀ other ∈ e.nodes, ¬ other.IsWellNamed →
          other = node ∨ node.span.start < other.span.start := by
  have htokens : tokenize "x + sin(y, x) + q" = .ok [⟨.identifier "x", ⟨0, 1⟩⟩, ⟨.plus, ⟨2, 3⟩⟩,
      ⟨.identifier "sin", ⟨4, 7⟩⟩, ⟨.leftParen, ⟨7, 8⟩⟩, ⟨.identifier "y", ⟨8, 9⟩⟩,
      ⟨.comma, ⟨9, 10⟩⟩, ⟨.identifier "x", ⟨11, 12⟩⟩, ⟨.rightParen, ⟨12, 13⟩⟩, ⟨.plus, ⟨14, 15⟩⟩,
      ⟨.identifier "q", ⟨16, 17⟩⟩] :=
    Except.toOption_eq_some_iff.1 (by decide +kernel)
  have hargs := IsArguments.more ⟨9, 10⟩ (IsAtom.identifier "y" ⟨8, 9⟩).toUnary.toSum
    (.last (IsAtom.identifier "x" ⟨11, 12⟩).toUnary.toSum)
  have hcall := (IsAtom.call "sin" ⟨4, 7⟩ ⟨7, 8⟩ ⟨12, 13⟩ hargs).toProduct
  have hfirst := (IsAtom.identifier "x" ⟨0, 1⟩).toUnary.toSum
  have hlast := (IsAtom.identifier "q" ⟨16, 17⟩).toProduct
  have hsum := IsSum.operation ⟨14, 15⟩ .add (.operation ⟨2, 3⟩ .add hfirst hcall) hlast
  have hread : IsRead "x + sin(y, x) + q" _ :=
    .inl (isRead_of_isExpression htokens ⟨_, hsum, by decide⟩).1
  obtain ⟨hok, herror⟩ := resolve_reports_leftmost hread
  refine ⟨_, hread, rfl, fun hwell => ?_, (herror _).1 rfl⟩
  obtain ⟨f, hf⟩ := hok.2 hwell
  cases hf

end

end GlutSketch.Equation
