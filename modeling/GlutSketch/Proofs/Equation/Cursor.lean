import GlutSketch.Proofs.Equation.Failing

/-!
# GlutSketch.Proofs.Equation.Cursor

Reading with a cursor.  The tokens of a line stand in a row with its end as the
last mark, and a state keeps the position of the next one and how many
expressions are open.  An access behind the end, a token that is not the one
just looked at, and loops and calls without end are faults of their own, apart
from the errors of the language: that none of them comes up is a theorem
(`Proofs.Equation.Progress`), not a property of the definitions.

* `Run` -- what a reader does to a state.
* `expression`, `parseExpression`, `parseEquation` -- the readers.
-/

namespace GlutSketch.Equation

/-! ## States -/

/-- A token or, without a kind, the end of the line. -/
structure Mark where
  kind : Option TokenKind
  span : Span

/-- The mark of a token. -/
def Token.mark (t : Token) : Mark := ⟨some t.kind, t.span⟩

/-- The tokens of a line and its end, which is at the place `stop`. -/
def marks (stop : Nat) (tokens : List Token) : List Mark :=
  tokens.map Token.mark ++ [⟨none, ⟨stop, stop⟩⟩]

namespace Cursor

/-- Where a run is: the position of the next mark, how many expressions are
open, and the marks that were taken on the way. -/
structure State where
  position : Nat
  depth : Nat
  taken : List Mark

/-- Before the first token. -/
def State.start : State := ⟨0, 0, []⟩

/-- What must not happen in a run. -/
inductive Fault where
  | outOfRange
  | impossibleToken
  | endless

/-- A reader: from a state to a fault, or to a value or an error and a new
state. -/
structure Run (α : Type) where
  exec : State → Except Fault (Except Error α × State)

namespace Run

/-- Goes on with the value of a run.  An error ends the run where it is. -/
def andThen {α β : Type} (x : Run α) (f : α → Run β) : Run β where
  exec s :=
    match x.exec s with
    | .error fault => .error fault
    | .ok (.error e, s') => .ok (.error e, s')
    | .ok (.ok a, s') => (f a).exec s'

instance : Monad Run where
  pure a := ⟨fun s => .ok (.ok a, s)⟩
  bind := andThen

/-- One reader after another: a fault or a refusal of the first is that of
both. -/
theorem exec_bind {α β : Type} (x : Run α) (f : α → Run β) (s : State) :
    (x >>= f).exec s =
      match x.exec s with
      | .error fault => .error fault
      | .ok (.error e, s') => .ok (.error e, s')
      | .ok (.ok a, s') => (f a).exec s' := rfl

/-- Refuses the line. -/
def refuse {α : Type} (e : Error) : Run α := ⟨fun s => .ok (.error e, s)⟩

/-- Gives up. -/
def fault {α : Type} (f : Fault) : Run α := ⟨fun _ => .error f⟩

/-- Repeats a step until it gives nothing, `fuel` times at most. -/
def whileSome {α : Type} (step : α → Run (Option α)) : (fuel : Nat) → α → Run α
  | 0, _ => fault .endless
  | fuel + 1, a => do
      match ← step a with
      | none => return a
      | some b => whileSome step fuel b

end Run

/-! ## Marks -/

section

variable (row : List Mark)

/-- The mark at the position. -/
def peek : Run Mark where
  exec s :=
    match row[s.position]? with
    | none => .error .outOfRange
    | some m => .ok (.ok m, s)

/-- Takes the mark at the position.  The position stays in front of the last
mark. -/
def advance : Run Mark where
  exec s :=
    match row[s.position]? with
    | none => .error .outOfRange
    | some m =>
        let next := if s.position < row.length - 1 then s.position + 1 else s.position
        .ok (.ok m, ⟨next, s.depth, s.taken ++ [m]⟩)

/-- Takes the token `wanted`. -/
def expect (wanted : TokenKind) : Run Span := do
  let m ← peek row
  if m.kind = some wanted then
    let t ← advance row
    return t.span
  else Run.refuse ⟨.missingToken wanted m.kind, m.span⟩

/-- Accepts the end of the line only. -/
def expectEnd : Run Unit := do
  let m ← peek row
  match m.kind with
  | none => return ()
  | some kind => Run.refuse ⟨.unexpectedToken kind, m.span⟩

/-! ## Expressions

The reader of expressions is a parameter of the readers of its parts. -/

/-- One more argument, after a comma. -/
def argumentStep (read : Nat → Run Expr) (args : List Expr) : Run (Option (List Expr)) := do
  let m ← peek row
  if m.kind = some .comma then
    let _ ← advance row
    let e ← read 0
    return some (args ++ [e])
  else return none

/-- The arguments of a call after its opening parenthesis. -/
def callArguments (read : Nat → Run Expr) (fuel : Nat) : Run (List Expr) := do
  let m ← peek row
  if m.kind = some .rightParen then return []
  else
    let first ← read 0
    Run.whileSome (argumentStep row read) fuel [first]

/-- A name, or a call if a parenthesis follows the name. -/
def nameOrCall (read : Nat → Run Expr) (fuel : Nat) : Run Expr := do
  let t ← advance row
  match t.kind with
  | some (.identifier name) =>
      let m ← peek row
      if m.kind = some .leftParen then
        let _ ← expect row .leftParen
        let args ← callArguments row read fuel
        let close ← expect row .rightParen
        return .call name t.span args (t.span.merge close)
      else return .identifier name t.span
  | _ => Run.fault .impossibleToken

/-- A number. -/
def numeral : Run Expr := do
  let t ← advance row
  match t.kind with
  | some (.number value) => return .number value t.span
  | _ => Run.fault .impossibleToken

/-- An expression in parentheses. -/
def grouped (read : Nat → Run Expr) : Run Expr := do
  let _ ← expect row .leftParen
  let e ← read 0
  let _ ← expect row .rightParen
  return e

/-- An expression between bars. -/
def absolute (read : Nat → Run Expr) : Run Expr := do
  let bar ← expect row .bar
  let e ← read 0
  let close ← expect row .bar
  return .call "abs" bar [e] (bar.merge close)

/-- A sign and its operand. -/
def signed (read : Nat → Run Expr) (sign : Sign) : Run Expr := do
  let t ← advance row
  let e ← read signPower
  return .signed sign e (t.span.merge e.span)

/-- An expression without a binary operator outside of parentheses and bars. -/
def operand (read : Nat → Run Expr) (fuel : Nat) : Run Expr := do
  let m ← peek row
  match m.kind with
  | some (.number _) => numeral row
  | some (.identifier _) => nameOrCall row read fuel
  | some .leftParen => grouped row read
  | some .bar => absolute row read
  | some .minus => signed row read .minus
  | some .plus => signed row read .plus
  | kind => Run.refuse ⟨.missingExpression kind, m.span⟩

/-- One more operation on `lhs`, if an operator follows that holds it strongly
enough. -/
def operatorStep (read : Nat → Run Expr) (power : Nat) (lhs : Expr) : Run (Option Expr) := do
  let m ← peek row
  match m.kind.bind TokenKind.binaryOp? with
  | none => return none
  | some op =>
      if op.leftPower < power then return none
      else
        let _ ← advance row
        let rhs ← read op.rightPower
        return some (.binary op lhs rhs (lhs.span.merge rhs.span))

/-- An operand and the operations on it. -/
def operation (read : Nat → Run Expr) (fuel power : Nat) : Run Expr := do
  let first ← operand row read fuel
  Run.whileSome (operatorStep row read power) fuel first

/-- Counts an expression as open while it is read, also if it cannot be read. -/
def counted (x : Run Expr) : Run Expr where
  exec s :=
    match x.exec { s with depth := s.depth + 1 } with
    | .error fault => .error fault
    | .ok (result, s') => .ok (result, { s' with depth := s'.depth - 1 })

/-- How many expressions are open. -/
def openDepth : Run Nat := ⟨fun s => .ok (.ok s.depth, s)⟩

/-- An expression, unless too many are open. -/
def expression : (fuel power : Nat) → Run Expr
  | 0, _ => Run.fault .endless
  | fuel + 1, power => do
      let depth ← openDepth
      if maxNesting ≤ depth then
        let m ← peek row
        Run.refuse ⟨.nestedTooDeeply, m.span⟩
      else counted (operation row (expression fuel) fuel power)

/-! ## Whole lines -/

/-- A line that is an expression and nothing else. -/
def parseExpression (fuel : Nat) : Run Expr := do
  let e ← expression row fuel 0
  expectEnd row
  return e

/-- A sign, if there is one; true for a minus. -/
def optionalSign : Run Bool := do
  let m ← peek row
  match m.kind with
  | some .minus =>
      let _ ← advance row
      return true
  | some .plus =>
      let _ ← advance row
      return false
  | _ => return false

/-- A number that ends the line.  An error begins at the place `first`. -/
def constant (negative : Bool) (first : Span) : Run (Equation Expr) := do
  let t ← advance row
  match t.kind with
  | some (.number value) =>
      expectEnd row
      return .vertical (if negative then -value else value)
  | kind => Run.refuse ⟨.notConstant kind, first.merge t.span⟩

/-- A number, perhaps with a sign, that ends the line. -/
def parseVertical : Run (Equation Expr) := do
  let first ← peek row
  let negative ← optionalSign row
  constant row negative first.span

/-- Whether the line goes on with `name` and an equals sign. -/
def defines (name : String) : Run Bool where
  exec s :=
    let kindAt (offset : Nat) : Option TokenKind := (row[s.position + offset]?).bind (·.kind)
    .ok (.ok (kindAt 0 = some (.identifier name) ∧ kindAt 1 = some .equals), s)

/-- A line of plot equation. -/
def parseEquation (fuel : Nat) : Run (Equation Expr) := do
  let first ← peek row
  if first.kind = none then Run.refuse ⟨.emptyLine, first.span⟩
  else if ← defines row "x" then
    let _ ← advance row
    let _ ← advance row
    parseVertical row
  else
    if ← defines row "y" then
      let _ ← advance row
      let _ ← advance row
      let e ← parseExpression row fuel
      return .function e
    else
      let e ← parseExpression row fuel
      return .function e

end

end Cursor

end GlutSketch.Equation
