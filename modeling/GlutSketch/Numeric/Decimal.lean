import GlutSketch.Numeric.Binary64

/-!
# GlutSketch.Numeric.Decimal

Decimal digits of a double.  `Magnitude.shortest` selects the fewest digits that
read back to the same double, the nearest such decimal if there are several.
`Decimal.toFloat` reads a decimal as the nearest double.
-/

namespace GlutSketch

/-- A decimal number `digits · 10 ^ exponent`. -/
structure Decimal where
  digits : Nat
  exponent : Int
deriving DecidableEq, Repr

/-! ## The decimals that read back -/

namespace Magnitude

/-- Compares `d` with `n · 2 ^ e`, exactly. -/
def compareDecimal (d : Decimal) (n : Nat) (e : Int) : Ordering :=
  compare (d.digits * pow10 d.exponent.toNat * pow2 (-e).toNat)
    (n * pow2 e.toNat * pow10 (-d.exponent).toNat)

/-- The gap to the double below is half the gap to the one above: the value is a
power of two at the lower end of its binade. -/
def NarrowBelow (x : Magnitude) : Prop := x.significand = pow2 52 ∧ -1074 < x.exponent

instance (x : Magnitude) : Decidable x.NarrowBelow := inferInstanceAs (Decidable (_ ∧ _))

/-- Among the reals that round to `x`: from halfway to the double below to
halfway to the double above, the ends included exactly when the significand is
even. -/
def ReadsBack (x : Magnitude) (d : Decimal) : Prop :=
  let low := if x.NarrowBelow then 4 * x.significand - 1 else 4 * x.significand - 2
  let below := compareDecimal d low (x.exponent - 2)
  let above := compareDecimal d (4 * x.significand + 2) (x.exponent - 2)
  (below = .gt ∧ above = .lt) ∨
    (x.significand % 2 = 0 ∧ (below = .eq ∨ above = .eq))

instance (x : Magnitude) (d : Decimal) : Decidable (x.ReadsBack d) :=
  inferInstanceAs (Decidable (_ ∨ _))

/-! ## Selection of the shortest -/

/-- The value is below `10 ^ k`. -/
def BelowTenPow (x : Magnitude) (k : Int) : Prop :=
  compareDecimal ⟨1, k⟩ x.significand x.exponent = .gt

instance (x : Magnitude) (k : Int) : Decidable (x.BelowTenPow k) :=
  inferInstanceAs (Decidable (_ = _))

/-- The least `k` with the value below `10 ^ k`, for a value that is not zero.
The estimate from the binary logarithm is at most two too small. -/
def decimalScale (x : Magnitude) : Int :=
  let estimate := ((x.significand.log2 : Int) + x.exponent) * 30103 / 100000
  if x.BelowTenPow estimate then estimate
  else if x.BelowTenPow (estimate + 1) then estimate + 1
  else estimate + 2

/-- The decimal nearest to the value among its two neighbours on the grid of the
multiples of `10 ^ g`, if one of them reads back. -/
def onGrid? (x : Magnitude) (tie : Tie) (g : Int) : Option Decimal :=
  let num := x.numerator * pow10 (-g).toNat
  let den := x.denominator * pow10 g.toNat
  let low : Decimal := ⟨num / den, g⟩
  let high : Decimal := ⟨num / den + 1, g⟩
  let near : Decimal := ⟨roundDiv num den tie, g⟩
  if x.ReadsBack low then
    if x.ReadsBack high then some near else some low
  else if x.ReadsBack high then some high
  else none

/-- The exact value of a magnitude as a decimal. -/
def exactDecimal (x : Magnitude) : Decimal :=
  ⟨x.numerator * Nat.pow 5 (-x.exponent).toNat, -((-x.exponent).toNat : Int)⟩

end Magnitude

/-- Moves zeros at the end of the digits into the exponent, at most as many as
`limit`. -/
def Decimal.stripZeros : (limit : Nat) → Decimal → Decimal
  | 0, d => d
  | limit + 1, d =>
      if d.digits ≠ 0 ∧ d.digits % 10 = 0 then
        Decimal.stripZeros limit ⟨d.digits / 10, d.exponent + 1⟩
      else d

/-- The fewest digits that read back to the same double, tried from one digit to
seventeen. -/
def Magnitude.shortest (x : Magnitude) (tie : Tie) : Decimal :=
  let scale := x.decimalScale
  let found := (List.range 17).findSome? fun n => x.onGrid? tie (scale - (n + 1 : Nat))
  Decimal.stripZeros 17 (found.getD x.exactDecimal)

/-! ## Reading -/

/-- The double nearest to the decimal; infinity beyond the range of doubles. -/
def Decimal.toFloat (d : Decimal) : Float :=
  Float.ofScientific d.digits (d.exponent < 0) d.exponent.natAbs

end GlutSketch
