import GlutSketch.Numeric.Rounding

/-!
# GlutSketch.Numeric.Binary64

The exact value of a double.  A finite double is a sign and a `Magnitude`, a
natural number times a power of two; everything that has to be exact (rounding
to whole numbers, remainders, decimal digits) is computed on that pair with
natural numbers and never with approximate arithmetic.

`Binary64.ofFloat` takes a double apart.  The functions in the namespace
`Real64` go the other way round: they are operations from doubles to doubles or
whole numbers, each defined through the exact value.
-/

namespace GlutSketch

/-! ## The exact value -/

/-- A non-negative number `significand · 2 ^ exponent`. -/
structure Magnitude where
  significand : Nat
  exponent : Int
deriving DecidableEq, Repr

/-- A double, taken apart. -/
inductive Binary64 where
  | finite (negative : Bool) (magnitude : Magnitude)
  | infinite (negative : Bool)
  | nan
deriving DecidableEq, Repr

namespace Magnitude

/-- The numerator of the value, written over `denominator`. -/
def numerator (x : Magnitude) : Nat := x.significand * pow2 x.exponent.toNat

/-- The denominator of the value, a power of two. -/
def denominator (x : Magnitude) : Nat := pow2 (-x.exponent).toNat

/-- The greatest whole number that is at most the value. -/
def floor (x : Magnitude) : Nat := x.numerator / x.denominator

/-- The value is a whole number. -/
def IsWhole (x : Magnitude) : Prop := x.numerator % x.denominator = 0

instance (x : Magnitude) : Decidable x.IsWhole :=
  inferInstanceAs (Decidable (_ = _))

/-- The least whole number that is at least the value. -/
def ceil (x : Magnitude) : Nat := if x.IsWhole then x.floor else x.floor + 1

theorem denominator_pos (x : Magnitude) : 0 < x.denominator := Nat.two_pow_pos _

end Magnitude

/-- Takes a double apart: sign, significand and exponent of a finite one. -/
def Binary64.ofFloat (x : Float) : Binary64 :=
  let bits : Nat := x.toBits.toNat
  let negative := bits / pow2 63 == 1
  let biased : Nat := bits / pow2 52 % pow2 11
  let fraction : Nat := bits % pow2 52
  if biased = 2047 then
    if fraction = 0 then .infinite negative else .nan
  else if biased = 0 then .finite negative ⟨fraction, -1074⟩
  else .finite negative ⟨pow2 52 + fraction, (biased : Int) - 1075⟩

/-! ## Doubles from exact values -/

namespace Real64

/-- The power of two `2 ^ e`, for the exponents a double can hold; zero below
and infinity above. -/
def twoPow (e : Int) : Float :=
  if e < -1074 then 0
  else if e < -1022 then Float.ofBits (UInt64.ofNat (pow2 (e + 1074).toNat))
  else if e ≤ 1023 then Float.ofBits (UInt64.ofNat ((e + 1023).toNat * pow2 52))
  else Float.ofBits 0x7FF0000000000000

/-- The double nearest to `± x`, ties to even.  A significand that is too long,
or that reaches below the last place of the subnormal numbers, is rounded first;
the product is then exact or overflows to infinity. -/
def ofMagnitude (negative : Bool) (x : Magnitude) : Float :=
  let excess : Int := max ((x.significand.log2 : Int) - 52) (-1074 - x.exponent)
  let dropped := excess.toNat
  let significand := roundDiv x.significand (pow2 dropped) .toEven
  let v := if significand = 0 then 0
    else Float.ofNat significand * twoPow (x.exponent + dropped)
  if negative then -v else v

/-- Not a number. -/
def nan : Float := Float.ofBits 0x7FF8000000000000

/-- Positive infinity. -/
def infinity : Float := Float.ofBits 0x7FF0000000000000

/-- Circle constants, each the double nearest to its value. -/
def pi : Float := 3.141592653589793

/-- A full turn in radians. -/
def tau : Float := 6.283185307179586

/-- A quarter turn in radians. -/
def halfPi : Float := 1.5707963267948966

/-- The base of the natural logarithm. -/
def e : Float := 2.718281828459045

/-! ## Whole numbers near a double -/

/-- The double is an odd whole number. -/
def IsOddWhole (x : Float) : Prop :=
  match Binary64.ofFloat x with
  | .finite _ m => m.IsWhole ∧ m.floor % 2 = 1
  | _ => False

instance (x : Float) : Decidable (IsOddWhole x) := by
  unfold IsOddWhole; split <;> infer_instance

/-- The nearest whole number; a half goes away from zero.  Infinities and NaN
stay. -/
def round (x : Float) : Float :=
  match Binary64.ofFloat x with
  | .finite negative m =>
      let n := (2 * m.numerator + m.denominator) / (2 * m.denominator)
      if negative then -Float.ofNat n else Float.ofNat n
  | _ => x

/-- The least natural number that is at least `x`; zero for NaN and the
infinities. -/
def ceilNat (x : Float) : Nat :=
  match Binary64.ofFloat x with
  | .finite false m => m.ceil
  | _ => 0

/-- The greatest integer that is at most `x`; zero for NaN and the
infinities. -/
def floorInt (x : Float) : Int :=
  match Binary64.ofFloat x with
  | .finite false m => m.floor
  | .finite true m => -(m.ceil : Int)
  | _ => 0

/-! ## Remainders and distances -/

/-- The remainder of `x` on division by `y` that has the sign of `x`.  It is
exact. -/
def remainder (x y : Float) : Float :=
  match Binary64.ofFloat x, Binary64.ofFloat y with
  | .finite negative a, .finite _ b =>
      if b.significand = 0 then nan
      else
        -- both as multiples of one power of two
        let q := min a.exponent b.exponent
        let m := a.significand * pow2 (a.exponent - q).toNat
        let n := b.significand * pow2 (b.exponent - q).toNat
        ofMagnitude negative ⟨m % n, q⟩
  | .finite _ _, .infinite _ => x
  | _, _ => nan

/-- The remainder of `x` on division by `y`, moved up by the size of `y` if it
is negative. -/
def remainderEuclid (x y : Float) : Float :=
  let r := remainder x y
  if r < 0 then r + y.abs else r

/-- The greater of the two; NaN is ignored if the other is a number. -/
def maximum (x y : Float) : Float :=
  if x.isNaN then y else if x < y then y else x

/-- The square root of a magnitude, with all the places that decide how it is
rounded: the whole root of a significand of at least `2 ^ 112`, and one more
place that is set if something is left over. -/
def sqrtMagnitude (x : Magnitude) : Magnitude :=
  let shift := 112 + (x.exponent % 2).toNat
  let significand := x.significand * pow2 shift
  let root := sqrtFloor significand
  ⟨2 * root + if root * root = significand then 0 else 1, (x.exponent - shift) / 2 - 1⟩

/-- The length of the hypotenuse over the legs `x` and `y`: the double nearest
to the exact value, so that no square on the way can overflow or vanish.  An
infinite leg makes it infinite, whatever the other is. -/
def hypot (x y : Float) : Float :=
  match Binary64.ofFloat x, Binary64.ofFloat y with
  | .infinite _, _ => infinity
  | _, .infinite _ => infinity
  | .finite _ a, .finite _ b =>
      let q := min a.exponent b.exponent
      let m := a.significand * pow2 (a.exponent - q).toNat
      let n := b.significand * pow2 (b.exponent - q).toNat
      ofMagnitude false (sqrtMagnitude ⟨m * m + n * n, 2 * q⟩)
  | _, _ => nan

end Real64

end GlutSketch
