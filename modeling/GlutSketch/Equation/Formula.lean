import GlutSketch.Equation.Error
import GlutSketch.Equation.Expr

/-!
# GlutSketch.Equation.Formula

Formulas: expressions whose names have been looked up.  `Expr.resolve` looks
them up and reports the first that means nothing; after that, evaluation cannot
fail.  A formula can be evaluated over any `Interpretation` of its operations;
`Formula.eval` takes doubles.
-/

namespace GlutSketch.Equation

/-- A function body without names. -/
inductive Formula where
  | constant (value : Float)
  | argument
  | negation (operand : Formula)
  | application (f : Builtin) (operand : Formula)
  | binary (op : BinaryOp) (lhs rhs : Formula)
deriving DecidableEq

/-! ## Evaluation -/

/-- What numbers and operations mean in `α`. -/
structure Interpretation (α : Type) where
  number : Float → α
  negate : α → α
  apply : Builtin → α → α
  binary : BinaryOp → α → α → α

/-- Doubles and their operations. -/
def Interpretation.float : Interpretation Float where
  number := id
  negate := Neg.neg
  apply := Builtin.onFloat
  binary := BinaryOp.onFloat

namespace Formula

/-- The value of a formula at `x` under an interpretation. -/
def evalWith {α : Type} (I : Interpretation α) (x : α) : Formula → α
  | constant value => I.number value
  | argument => x
  | negation operand => I.negate (operand.evalWith I x)
  | application f operand => I.apply f (operand.evalWith I x)
  | binary op lhs rhs => I.binary op (lhs.evalWith I x) (rhs.evalWith I x)

/-- The value of a formula at a double.  Outside its domain an operation gives
NaN or an infinity. -/
def eval (f : Formula) (x : Float) : Float := f.evalWith Interpretation.float x

end Formula

/-! ## Names -/

/-- The meaning of a name that is not called. -/
def resolveName (name : String) (span : Span) : Except Error Formula :=
  if name = argumentName then .ok .argument
  else match constant? name with
    | some value => .ok (.constant value)
    | none =>
        if (Builtin.ofName? name).isSome then .error ⟨.functionWithoutArgument name, span⟩
        else .error ⟨.unknownIdentifier name, span⟩

/-- Looks up all names, from left to right.  A call is refused for its name
first, then for the number of its arguments, and only then for what they
contain. -/
def Expr.resolve : Expr → Except Error Formula
  | number value _ => .ok (.constant value)
  | identifier name span => resolveName name span
  | binary op lhs rhs _ =>
      match lhs.resolve with
      | .error e => .error e
      | .ok l =>
          match rhs.resolve with
          | .error e => .error e
          | .ok r => .ok (.binary op l r)
  | signed sign operand _ =>
      match operand.resolve with
      | .error e => .error e
      | .ok f => .ok (match sign with
        | .plus => f
        | .minus => .negation f)
  | call name nameSpan args span =>
      match Builtin.ofName? name with
      | none => .error ⟨.unknownFunction name, nameSpan⟩
      | some f =>
          match args with
          | [arg] =>
              match arg.resolve with
              | .error e => .error e
              | .ok operand => .ok (.application f operand)
          | args => .error ⟨.wrongArity name args.length, span⟩

end GlutSketch.Equation
