import GlutSketch.Proofs.Equation.Cutting
import GlutSketch.Proofs.Equation.Naming
import GlutSketch.Proofs.Equation.Parsing

/-!
# GlutSketch.Proofs.Equation.Height

What the limit on nesting says about the trees that are read.  A walk over a
tree goes as deep as the tree is high (`Expr.height`, `Formula.height`), while
the reader is on a deeper level only inside a right operand, a signed operand or
an argument (`Expr.levels`).  The levels are limited; the steps to a left
operand are not, since a chain of operators grows to the left.

* `height_le_of_isRead` -- an accepted tree is no higher than the limit and its
  steps to the left;
* `exists_isRead_of_height` -- there are accepted lines of every height.
-/

namespace GlutSketch.Equation

/-! ## Longest paths -/

mutual

/-- The length of the longest path from the root to a leaf, if a step to a left
operand counts `left`, any other step counts `other`, and a leaf counts
`leaf`. -/
def Expr.pathLength (leaf left other : Nat) : Expr → Nat
  | .number .. | .identifier .. => leaf
  | .binary _ l r _ =>
      max (left + l.pathLength leaf left other) (other + r.pathLength leaf left other)
  | .signed _ e _ => other + e.pathLength leaf left other
  | .call _ _ args _ => max leaf (other + pathLengths leaf left other args)

/-- The longest of the paths of several trees. -/
def pathLengths (leaf left other : Nat) : List Expr → Nat
  | [] => 0
  | e :: es => max (e.pathLength leaf left other) (pathLengths leaf left other es)

end

namespace Expr

/-- The nodes on the longest path. -/
def height (e : Expr) : Nat := e.pathLength 1 1 1

/-- The levels of nesting that reading the tree takes, apart from
parentheses. -/
def levels (e : Expr) : Nat := e.pathLength 1 0 1

/-- The most steps to a left operand on a path. -/
def leftSteps (e : Expr) : Nat := e.pathLength 0 1 0

end Expr

/-- The nodes on the longest path of a formula. -/
def Formula.height : Formula → Nat
  | constant _ | argument => 1
  | negation operand => 1 + operand.height
  | application _ operand => 1 + operand.height
  | binary _ l r => max (1 + l.height) (1 + r.height)

section

variable {leaf left other leaf' left' other' : Nat}

mutual

/-- Counting together counts no more than counting apart. -/
theorem pathLength_add_le : (e : Expr) →
    e.pathLength (leaf + leaf') (left + left') (other + other') ≤
      e.pathLength leaf left other + e.pathLength leaf' left' other'
  | .number .. | .identifier .. => Nat.le_refl _
  | .binary _ l r _ => by
      have hl := pathLength_add_le l
      have hr := pathLength_add_le r
      simp only [Expr.pathLength]
      omega
  | .signed _ e _ => by
      have he := pathLength_add_le e
      simp only [Expr.pathLength]
      omega
  | .call _ _ args _ => by
      have hargs := pathLengths_add_le args
      simp only [Expr.pathLength]
      omega

theorem pathLengths_add_le : (es : List Expr) →
    pathLengths (leaf + leaf') (left + left') (other + other') es ≤
      pathLengths leaf left other es + pathLengths leaf' left' other' es
  | [] => Nat.le_refl _
  | e :: es => by
      have he := pathLength_add_le e
      have hes := pathLengths_add_le es
      simp only [pathLengths]
      omega

end

end

/-- On a path to the deepest leaf every step but those to left operands goes one
level down. -/
theorem height_le_levels_add_leftSteps (e : Expr) : e.height ≤ e.levels + e.leftSteps :=
  @pathLength_add_le 1 0 1 0 1 0 e

/-! ## The limit -/

section

/-- An operation is as high as its left operand, and a level above its right
one. -/
theorem levels_operationTree (op : BinaryOp) (l r : Expr) :
    (operationTree op l r).levels = operationNesting l.levels r.levels := by
  rw [Expr.levels, operationTree, Expr.pathLength, Nat.zero_add, operationNesting]
  rfl

/-- Deeper operands make an operation nest as deeply or more. -/
theorem operationNesting_mono {l l' r r' : Nat} (hl : l ≤ l') (hr : r ≤ r') :
    operationNesting l r ≤ operationNesting l' r' := by
  unfold operationNesting
  omega

mutual

/-- A tree takes no more levels than reading its tokens does. -/
theorem IsSum.levels_le {ts : List Token} {e : Expr} {n : Nat} : IsSum ts e n → e.levels ≤ n
  | .product h => h.levels_le
  | .operation _ _ hl hr => by
      rw [levels_operationTree]
      exact operationNesting_mono hl.levels_le hr.levels_le

theorem IsProduct.levels_le {ts : List Token} {e : Expr} {n : Nat} : IsProduct ts e n → e.levels ≤ n
  | .unary h => h.levels_le
  | .operation _ _ hl hr => by
      rw [levels_operationTree]
      exact operationNesting_mono hl.levels_le hr.levels_le

theorem IsUnary.levels_le {ts : List Token} {e : Expr} {n : Nat} : IsUnary ts e n → e.levels ≤ n
  | .power h => h.levels_le
  | .signed _ _ h => Nat.add_le_add_left h.levels_le 1

theorem IsPower.levels_le {ts : List Token} {e : Expr} {n : Nat} : IsPower ts e n → e.levels ≤ n
  | .atom h => h.levels_le
  | .raised _ hl hr => by
      rw [levels_operationTree]
      exact operationNesting_mono hl.levels_le hr.levels_le

theorem IsAtom.levels_le {ts : List Token} {e : Expr} {n : Nat} : IsAtom ts e n → e.levels ≤ n
  | .number .. | .identifier .. | .emptyCall .. => Nat.le_refl 1
  | .call _ _ _ _ h => by
      have hargs := h.levels_le
      rw [Expr.levels, Expr.pathLength]
      omega
  | .grouped _ _ h => Nat.le_trans h.levels_le (Nat.le_add_left ..)
  | .absolute _ _ h => by
      have hbody := h.levels_le
      rw [Expr.levels] at hbody
      rw [Expr.levels, Expr.pathLength, pathLengths, pathLengths]
      omega

theorem IsArguments.levels_le {ts : List Token} {es : List Expr} {n : Nat} :
    IsArguments ts es n → pathLengths 1 0 1 es ≤ n
  | .last h => by
      rw [pathLengths, pathLengths, Nat.max_zero]
      exact h.levels_le
  | .more _ hl hr => by
      have hfirst := hl.levels_le
      have hothers := hr.levels_le
      rw [Expr.levels] at hfirst
      rw [pathLengths]
      omega

end

/-- Looking up names adds nothing to a tree. -/
theorem height_le_of_resolve {f : Formula} : (e : Expr) → e.resolve = .ok f → f.height ≤ e.height
  | .number .. => fun h => by
      cases h
      exact Nat.le_refl 1
  | .identifier name place => fun h => by
      obtain ⟨-, rfl⟩ | ⟨value, -, rfl⟩ := resolve_identifier_eq_ok_iff.1 h
      · exact Nat.le_refl 1
      · exact Nat.le_refl 1
  | .binary op l r place => fun h => by
      obtain ⟨g, g', hg, hg', rfl⟩ := resolve_binary_eq_ok_iff.1 h
      have hl := height_le_of_resolve l hg
      have hr := height_le_of_resolve r hg'
      simp only [Formula.height, Expr.height, Expr.pathLength] at hl hr ⊢
      omega
  | .signed sign e place => fun h => by
      rw [resolve_signed] at h
      obtain ⟨g, hg, rfl⟩ := Except.map_eq_ok_iff.1 h
      have he := height_le_of_resolve e hg
      rw [Expr.height] at he ⊢
      cases sign <;> simp only [Formula.height, Expr.pathLength] <;> omega
  | .call name place args span => fun h => by
      obtain ⟨b, arg, g, -, rfl, hg, rfl⟩ := resolve_call_eq_ok_iff.1 h
      have harg := height_le_of_resolve arg hg
      simp only [Formula.height, Expr.height, Expr.pathLength, pathLengths] at harg ⊢
      omega

/-- The line is read as the tree, as an expression or as the graph of one. -/
def IsRead (source : String) (e : Expr) : Prop :=
  readExpression source = .ok e ∨ read source = .ok (.function e)

variable {source : String} {e : Expr} {ts : List Token}

/-- A line whose tokens are an expression is read as the graph of that
expression. -/
theorem isRead_of_isExpression (hts : tokenize source = .ok ts) (he : IsExpression ts e) :
    readExpression source = .ok e ∧ read source = .ok (.function e) := by
  rw [readExpression, read, hts]
  exact ⟨parseExpression_eq_ok_iff.2 he,
    parseEquation_eq_ok_iff.2 (.graph (fun hx => not_isExpression_of_defines hx he) he)⟩

/-- The tokens of the line, without a definition that may stand before them, are
the expression. -/
theorem IsRead.exists_tokens (h : IsRead source e) :
    ∃ front ts, tokenize source = .ok (front ++ ts) ∧ IsExpression ts e := by
  rw [IsRead, readExpression, read] at h
  cases hts : tokenize source with
  | error err => simp [hts] at h
  | ok ts =>
      simp only [hts] at h
      rcases h with h | h
      · exact ⟨[], ts, rfl, parseExpression_eq_ok_iff.1 h⟩
      · obtain ⟨-, he⟩ | ⟨place, equals, rest, rfl, he⟩ :=
          isEquation_function_iff.1 (parseEquation_eq_ok_iff.1 h)
        · exact ⟨[], ts, rfl, he⟩
        · exact ⟨[⟨.identifier "y", place⟩, ⟨.equals, equals⟩], rest, rfl, he⟩

/-- **Height**: the tree of an accepted line takes no more levels than the
limit, and it is no higher than the limit and its steps to the left.  A formula
is no higher than the tree it comes from. -/
theorem height_le_of_isRead (h : IsRead source e) :
    e.levels ≤ maxNesting ∧ e.height ≤ maxNesting + e.leftSteps ∧
      ∀ f, e.resolve = .ok f → f.height ≤ e.height := by
  obtain ⟨front, ts, -, n, hsum, hn⟩ := h.exists_tokens
  have hlevels : e.levels ≤ maxNesting := Nat.le_trans hsum.levels_le hn
  refine ⟨hlevels, ?_, fun f => height_le_of_resolve e⟩
  calc e.height ≤ e.levels + e.leftSteps := height_le_levels_add_leftSteps e
    _ ≤ maxNesting + e.leftSteps := Nat.add_le_add_right hlevels _

/-! ## High trees -/

theorem height_pos (e : Expr) : 0 < e.height := by
  rw [Expr.height]
  cases e <;> rw [Expr.pathLength] <;> omega

theorem Formula.height_pos (f : Formula) : 0 < f.height := by
  cases f <;> rw [Formula.height] <;> omega

/-- The operators and operands that follow the first in a sum of the argument
with itself. -/
def moreTerms (n : Nat) : List Char := (List.replicate n ['+', 'x']).flatten

/-- The name at the end of a sum stops where the next term begins. -/
theorem lexeme?_moreTerms (n : Nat) : lexeme? ('x' :: moreTerms n) = some (.identifier "x", 1) := by
  cases n <;> rfl

/-- Each `+x` gives two tokens. -/
theorem tokensFrom_moreTerms (n start : Nat) :
    tokensFrom start (moreTerms (n + 1)) = (tokensFrom (start + 2) (moreTerms n)).map fun ts =>
      ⟨.plus, ⟨start, start + 1⟩⟩ :: ⟨.identifier "x", ⟨start + 1, start + 2⟩⟩ :: ts := by
  have hplus : lexeme? ('+' :: 'x' :: moreTerms n) = some (.plus, 1) := rfl
  have hmore : moreTerms (n + 1) = '+' :: 'x' :: moreTerms n := rfl
  rw [hmore, tokensFrom_token (by decide) hplus, Nat.sub_self, List.drop_zero,
    tokensFrom_token (by decide) (lexeme?_moreTerms n), Nat.sub_self, List.drop_zero]
  cases tokensFrom (start + 2) (moreTerms n) <;> rfl

/-- Each term makes the tree of what is before it one higher, and no more than
two levels are taken. -/
theorem exists_tokensFrom_moreTerms (n start : Nat) :
    ∃ ts, tokensFrom start (moreTerms n) = .ok ts ∧
      ∀ ls l m f, IsSum ls l m → m ≤ 2 → l.resolve = .ok f →
        ∃ e k g, IsSum (ls ++ ts) e k ∧ k ≤ 2 ∧ e.resolve = .ok g ∧ e.height = l.height + n ∧
          g.height = f.height + n := by
  induction n generalizing start with
  | zero =>
      refine ⟨[], by rw [moreTerms, List.replicate_zero, List.flatten_nil, tokensFrom], ?_⟩
      intro ls l m f hl hm hf
      exact ⟨l, m, f, by rwa [List.append_nil], hm, hf, rfl, rfl⟩
  | succ n ih =>
      obtain ⟨ts, hts, hgrows⟩ := ih (start + 2)
      refine ⟨_, by rw [tokensFrom_moreTerms, hts]; rfl, fun ls l m f hl hm hf => ?_⟩
      have hterm := (IsAtom.identifier "x" ⟨start + 1, start + 2⟩).toProduct
      have hnesting : operationNesting m 1 ≤ 2 := Nat.max_le.2 ⟨hm, Nat.le_refl 2⟩
      have hresolve : (operationTree .add l (.identifier "x" ⟨start + 1, start + 2⟩)).resolve =
          .ok (.binary .add f .argument) := resolve_binary_eq_ok_iff.2 ⟨f, _, hf, rfl, rfl⟩
      obtain ⟨e, k, g, he, hk, hg, hheight, hheight'⟩ :=
        hgrows _ _ _ _ (.operation ⟨start, start + 1⟩ .add hl hterm) hnesting hresolve
      refine ⟨e, k, g, by rwa [List.append_assoc] at he, hk, hg, ?_, ?_⟩
      · have hpos := height_pos l
        rw [hheight, Expr.height, operationTree]
        simp only [Expr.height, Expr.pathLength] at hpos ⊢
        omega
      · have hpos := f.height_pos
        rw [hheight']
        simp only [Formula.height]
        omega

/-- A sum of the argument with itself. -/
def longSum (n : Nat) : String := String.ofList ('x' :: moreTerms n)

/-- Lines of any height are accepted, on two levels. -/
theorem exists_isRead_of_height (n : Nat) :
    ∃ e f, readExpression (longSum n) = .ok e ∧ read (longSum n) = .ok (.function e) ∧
      classify (longSum n) = .ok (.function f) ∧ e.height = n + 1 ∧ f.height = n + 1 := by
  obtain ⟨ts, hts, hgrows⟩ := exists_tokensFrom_moreTerms n 1
  have hfirst := (IsAtom.identifier "x" ⟨0, 1⟩).toProduct
  obtain ⟨e, k, f, he, hk, hf, hheight, hheight'⟩ :=
    hgrows _ _ _ .argument (.product hfirst) (by decide) rfl
  have htokens : tokenize (longSum n) = .ok (⟨.identifier "x", ⟨0, 1⟩⟩ :: ts) := by
    rw [tokenize, longSum, String.toList_ofList, tokensFrom_token (by decide) (lexeme?_moreTerms n),
      Nat.sub_self, List.drop_zero, Nat.zero_add, hts]
    rfl
  obtain ⟨hexpression, hline⟩ := isRead_of_isExpression htokens ⟨k, he, Nat.le_trans hk (by decide)⟩
  refine ⟨e, f, hexpression, hline, ?_, ?_, ?_⟩
  · rw [classify, hline]
    dsimp only
    rw [hf]
    rfl
  · rw [hheight, Nat.add_comm]
    rfl
  · rw [hheight', Nat.add_comm]
    rfl

/-- A sum of 257 operands takes two levels, and the bound is about the steps to
the left. -/
theorem height_le_longSum :
    ∃ e, IsRead (longSum 256) e ∧ e.levels ≤ maxNesting ∧
      e.height ≤ maxNesting + e.leftSteps := by
  obtain ⟨e, f, hread, -⟩ := exists_isRead_of_height 256
  obtain ⟨hlevels, hheight, -⟩ := height_le_of_isRead (.inl hread)
  exact ⟨e, .inl hread, hlevels, hheight⟩

/-- Its tree is higher than the limit. -/
theorem longSum_not_height_le :
    ∃ e, readExpression (longSum 256) = .ok e ∧ read (longSum 256) = .ok (.function e) ∧
      ¬ e.height ≤ maxNesting := by
  obtain ⟨e, f, hread, hline, -, hheight, -⟩ := exists_isRead_of_height 256
  refine ⟨e, hread, hline, ?_⟩
  rw [hheight]
  decide

end

end GlutSketch.Equation
