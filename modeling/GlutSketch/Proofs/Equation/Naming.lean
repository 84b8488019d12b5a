import GlutSketch.Equation.Formula
import GlutSketch.Proofs.Equation.Reading

/-!
# GlutSketch.Proofs.Equation.Naming

Looking up the names of an expression: which names mean something, what each
step does, and when it succeeds.
-/

namespace GlutSketch.Equation

/-! ## Names -/

/-- The names of functions. -/
inductive IsFunctionName : String → Builtin → Prop
  | sin : IsFunctionName "sin" .sin
  | cos : IsFunctionName "cos" .cos
  | tan : IsFunctionName "tan" .tan
  | sqrt : IsFunctionName "sqrt" .sqrt
  | abs : IsFunctionName "abs" .abs
  | log : IsFunctionName "log" .ln
  | ln : IsFunctionName "ln" .ln
  | exp : IsFunctionName "exp" .exp

/-- The names of constants. -/
inductive IsConstantName : String → Float → Prop
  | pi : IsConstantName "pi" Real64.pi
  | e : IsConstantName "e" Real64.e

theorem mem_of_lookup_eq_some {β : Type} {name : String} {b : β} {table : List (String × β)}
    (h : table.lookup name = some b) : (name, b) ∈ table := by
  obtain ⟨front, back, rfl, -⟩ := List.lookup_eq_some_iff.1 h
  simp

/-- The table of functions says which names are functions. -/
theorem ofName?_eq_some_iff {name : String} {f : Builtin} :
    Builtin.ofName? name = some f ↔ IsFunctionName name f := by
  constructor
  · intro h
    have hmem := mem_of_lookup_eq_some h
    simp only [Builtin.table, List.mem_cons, Prod.mk.injEq, List.not_mem_nil, or_false] at hmem
    rcases hmem with ⟨rfl, rfl⟩ | ⟨rfl, rfl⟩ | ⟨rfl, rfl⟩ | ⟨rfl, rfl⟩ | ⟨rfl, rfl⟩ | ⟨rfl, rfl⟩ |
      ⟨rfl, rfl⟩ | ⟨rfl, rfl⟩ <;> constructor
  · rintro ⟨⟩ <;> rfl

/-- No name is that of two functions. -/
theorem IsFunctionName.unique {name : String} {f g : Builtin} (hf : IsFunctionName name f)
    (hg : IsFunctionName name g) : f = g :=
  Option.some.inj ((ofName?_eq_some_iff.2 hf).symm.trans (ofName?_eq_some_iff.2 hg))

/-- The table of constants says which names are constants. -/
theorem constant?_eq_some_iff {name : String} {value : Float} :
    constant? name = some value ↔ IsConstantName name value := by
  constructor
  · intro h
    have hmem := mem_of_lookup_eq_some h
    simp only [constants, List.mem_cons, Prod.mk.injEq, List.not_mem_nil, or_false] at hmem
    rcases hmem with ⟨rfl, rfl⟩ | ⟨rfl, rfl⟩ <;> constructor
  · rintro ⟨⟩ <;> rfl

/-! ## Trees -/

section

variable {name : String} {args : List Expr} {place span : Span} {f : Formula}

/-- A name alone is the variable or a constant. -/
theorem resolve_identifier_eq_ok_iff :
    (Expr.identifier name place).resolve = .ok f ↔
      (name = "x" ∧ f = .argument) ∨ ∃ value, IsConstantName name value ∧ f = .constant value := by
  rw [Expr.resolve, resolveName]
  constructor
  · intro h
    split at h
    · next hx =>
      cases h
      exact .inl ⟨hx, rfl⟩
    · split at h
      · next value hvalue =>
        cases h
        exact .inr ⟨value, constant?_eq_some_iff.1 hvalue, rfl⟩
      · split at h <;> cases h
  · rintro (⟨rfl, rfl⟩ | ⟨value, hname, rfl⟩)
    · rfl
    · cases hname <;> rfl

theorem resolve_binary (op : BinaryOp) (l r : Expr) (place : Span) :
    (Expr.binary op l r place).resolve =
      l.resolve.bind fun f => r.resolve.map fun g => .binary op f g := by
  rw [Expr.resolve]
  cases l.resolve with
  | error err => rfl
  | ok f => cases r.resolve <;> rfl

theorem resolve_signed (sign : Sign) (e : Expr) (place : Span) :
    (Expr.signed sign e place).resolve =
      e.resolve.map fun f => match sign with
        | .plus => f
        | .minus => .negation f := by
  rw [Expr.resolve]
  cases e.resolve <;> rfl

/-- A call of a function with one argument is resolved with its argument. -/
theorem resolve_call_one {name : String} {f : Builtin} (hname : Builtin.ofName? name = some f)
    (place : Span) (arg : Expr) (span : Span) :
    (Expr.call name place [arg] span).resolve = arg.resolve.map (.application f) := by
  rw [Expr.resolve, hname]
  dsimp only
  cases arg.resolve <;> rfl

/-- A call with another number of arguments is refused before they are looked
at. -/
theorem resolve_call_wrong {name : String} {f : Builtin} (hname : Builtin.ofName? name = some f)
    (place : Span) {args : List Expr} (hargs : args.length ≠ 1) (span : Span) :
    (Expr.call name place args span).resolve = .error ⟨.wrongArity name args.length, span⟩ := by
  rw [Expr.resolve, hname]
  match args with
  | [] => rfl
  | [_] => exact absurd rfl hargs
  | _ :: _ :: _ => rfl

/-- An operation is resolved exactly if both of its operands are. -/
theorem resolve_binary_eq_ok_iff {op : BinaryOp} {l r : Expr} :
    (Expr.binary op l r place).resolve = .ok f ↔
      ∃ g h, l.resolve = .ok g ∧ r.resolve = .ok h ∧ f = .binary op g h := by
  simp only [resolve_binary, Except.bind_eq_ok_iff, Except.map_eq_ok_iff, exists_and_left]

/-- A call is resolved exactly if it names a function and has one argument that
is resolved. -/
theorem resolve_call_eq_ok_iff :
    (Expr.call name place args span).resolve = .ok f ↔
      ∃ b arg g, IsFunctionName name b ∧ args = [arg] ∧ arg.resolve = .ok g ∧
        f = .application b g := by
  simp only [← ofName?_eq_some_iff]
  cases hname : Builtin.ofName? name with
  | none => simp [Expr.resolve, hname]
  | some b =>
      by_cases hone : ∃ arg, args = [arg]
      · obtain ⟨arg, rfl⟩ := hone
        rw [resolve_call_one hname, Except.map_eq_ok_iff]
        simp
      · have hlength : args.length ≠ 1 := fun h => hone (List.length_eq_one_iff.1 h)
        rw [resolve_call_wrong hname place hlength]
        refine iff_of_false (by simp) ?_
        rintro ⟨_, arg, _, -, rfl, -⟩
        exact hone ⟨arg, rfl⟩

end

end GlutSketch.Equation
