import GlutSketch.Json.Value
import GlutSketch.Text.Digits

/-!
# GlutSketch.Json.Number

The numbers that a JSON spelling is read as.  A whole number keeps all its
digits.  A double is read quickly rather than to the last bit: as many leading
digits as fit into 64 bits make a whole number, which is then multiplied or
divided by one power of ten.
-/

namespace GlutSketch.Json

/-- The first number that 64 bits cannot hold. -/
def wordLimit : Nat := pow2 64

/-- Appends digits to a whole number as long as it stays below `wordLimit`.  The
digits from the first one that does not fit are left. -/
def appendDigits : (n : Nat) → List Char → Nat × List Char
  | n, [] => (n, [])
  | n, c :: cs =>
      let next := 10 * n + digitValue c
      if next < wordLimit then appendDigits next cs else (n, c :: cs)

/-- The powers of ten that are doubles go up to this exponent. -/
def maxTenPower : Nat := 308

/-- The double nearest to `10 ^ k`. -/
def tenPower (k : Nat) : Float := Float.ofScientific 1 false k

/-- Divides `x` by `10 ^ k`, in steps of the greatest power of ten while the
exponent is too large for one. -/
def divideTenPower (x : Float) (k : Nat) : Float :=
  if maxTenPower < k then
    if x == 0 then x else divideTenPower (x / tenPower maxTenPower) (k - maxTenPower)
  else x / tenPower k
termination_by k
decreasing_by simp only [maxTenPower] at *; omega

/-- Scales `x` by a power of ten; nothing if the result is too large for a
double. -/
def scaleTenPower? (x : Float) (exponent : Int) : Option Float :=
  if exponent < 0 then some (divideTenPower x exponent.natAbs)
  else if maxTenPower < exponent.natAbs then if x == 0 then some x else none
  else
    let scaled := x * tenPower exponent.natAbs
    if scaled.isInf then none else some scaled

namespace Number

/-- A whole number is spelled without a point and without an exponent. -/
def IsWhole (n : Number) : Prop := n.fraction = [] ∧ n.exponent = none

instance (n : Number) : Decidable n.IsWhole := inferInstanceAs (Decidable (_ ∧ _))

/-- The double a spelling is read as; nothing if it is too large. -/
def toFloat? (n : Number) : Option Float :=
  let (leading, dropped) := appendDigits 0 n.whole
  let (significand, ignored) := appendDigits leading n.fraction
  let shift : Int := dropped.length - (n.fraction.length - ignored.length : Nat)
  (scaleTenPower? (Float.ofNat significand) (n.exponent.getD 0 + shift)).map fun x =>
    if n.negative then -x else x

/-- The word of 64 bits that a spelling without sign, point and exponent stands
for. -/
def toUInt64? (n : Number) : Option UInt64 :=
  let value := digitsValue n.whole
  if n.negative = false ∧ n.IsWhole ∧ value < wordLimit then some (UInt64.ofNat value) else none

end Number

end GlutSketch.Json
