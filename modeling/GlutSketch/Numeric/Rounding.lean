/-!
# GlutSketch.Numeric.Rounding

Whole numbers near exact values: `roundDiv` rounds a quotient to the nearest
whole number with a stated rule for halves, and `sqrtFloor` takes whole square
roots.  Both are exact, on natural numbers.
-/

namespace GlutSketch

/-! ## Powers -/

/-- The powers of two. -/
abbrev pow2 (k : Nat) : Nat := Nat.pow 2 k

/-- The powers of ten. -/
abbrev pow10 (k : Nat) : Nat := Nat.pow 10 k

/-! ## Quotients -/

/-- Which of two equally near candidates is taken. -/
inductive Tie where
  | toEven
  | awayFromZero
deriving DecidableEq, Repr

/-- The whole number nearest to `num / den`. -/
def roundDiv (num den : Nat) (tie : Tie) : Nat :=
  let q := num / den
  let r := num % den
  if 2 * r < den then q
  else if den < 2 * r then q + 1
  else match tie with
    | .awayFromZero => q + 1
    | .toEven => if q % 2 = 0 then q else q + 1

/-! ## Square roots -/

/-- The square root of `n < 4 ^ digits`, rounded down: one base-four digit of
`n` gives one binary digit of the root. -/
def sqrtDigits : (digits : Nat) → (n : Nat) → Nat
  | 0, _ => 0
  | digits + 1, n =>
      let root := 2 * sqrtDigits digits (n / 4)
      if (root + 1) * (root + 1) ≤ n then root + 1 else root

/-- The greatest whole number whose square is at most `n`. -/
def sqrtFloor (n : Nat) : Nat := sqrtDigits (n.log2 / 2 + 1) n

end GlutSketch
