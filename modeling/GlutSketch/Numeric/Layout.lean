import GlutSketch.Numeric.Decimal

/-!
# GlutSketch.Numeric.Layout

How a double is written.  Four layouts are in use:

* `plainText`: the fewest digits that identify the number, never an exponent
  (`1`, `0.0000001`);
* `scientificText`: the same digits with one digit before the point and an
  exponent (`1.5e-7`);
* `fixedText`: a fixed number of decimal places of the exact value, ties to even
  (`0.667`);
* `Json` numbers, built from the first two in `GlutSketch.Json.Printer`.

A NaN is written `NaN` without a sign, an infinity `inf` or `-inf`, and a
negative zero keeps its sign.
-/

namespace GlutSketch

/-! ## Digits in place -/

/-- The decimal digits of a natural number. -/
def decimalDigits (n : Nat) : List Char := Nat.toDigits 10 n

namespace Decimal

/-- The power of ten of the leading digit. -/
def leadingExponent (d : Decimal) : Int :=
  d.exponent + ((decimalDigits d.digits).length - 1 : Nat)

/-- The digits before the point and the digits after it. -/
def places (d : Decimal) : List Char × List Char :=
  let digits := decimalDigits d.digits
  if 0 ≤ d.exponent then (digits ++ List.replicate d.exponent.toNat '0', [])
  else
    let after := (-d.exponent).toNat
    if digits.length ≤ after then (['0'], List.replicate (after - digits.length) '0' ++ digits)
    else (digits.take (digits.length - after), digits.drop (digits.length - after))

/-- Positional notation: a point only if digits follow it. -/
def plain (d : Decimal) : List Char :=
  match d.places with
  | (whole, []) => whole
  | (whole, fraction) => whole ++ '.' :: fraction

/-- One digit, a point and the other digits if there are any, and `e` with the
exponent; a positive exponent has a sign only if `plus` is set. -/
def scientific (d : Decimal) (plus : Bool) : List Char :=
  let exponent := d.leadingExponent
  let sign := if exponent < 0 then ['-'] else if plus then ['+'] else []
  let mantissa := match decimalDigits d.digits with
    | [] => []
    | [c] => [c]
    | c :: cs => c :: '.' :: cs
  mantissa ++ 'e' :: sign ++ decimalDigits exponent.natAbs

end Decimal

/-! ## Whole numbers of units in the last place -/

/-- Writes `units · 10 ^ (-places)` with exactly `places` digits after the
point. -/
def fixedDigits (units places : Nat) : List Char :=
  let digits := decimalDigits units
  let padded := List.replicate (places + 1 - digits.length) '0' ++ digits
  let whole := padded.take (padded.length - places)
  if places = 0 then whole else whole ++ '.' :: padded.drop (padded.length - places)

/-- The value in units of `10 ^ (-places)`, rounded to a whole number with ties
to even. -/
def Magnitude.units (x : Magnitude) (places : Nat) : Nat :=
  roundDiv (x.numerator * pow10 places) x.denominator .toEven

/-! ## Text of a double -/

/-- Writes a double given how a finite magnitude is written. -/
def signedText (x : Float) (write : Magnitude → List Char) : String :=
  match Binary64.ofFloat x with
  | .nan => "NaN"
  | .infinite negative => if negative then "-inf" else "inf"
  | .finite negative m => String.ofList (if negative then '-' :: write m else write m)

/-- The shortest decimal that reads back, zero included. -/
def Magnitude.shortestDecimal (x : Magnitude) (tie : Tie) : Decimal :=
  if x.significand = 0 then ⟨0, 0⟩ else x.shortest tie

/-- The fewest digits that identify the number, in positional notation. -/
def plainText (x : Float) : String :=
  signedText x fun m => (m.shortestDecimal .awayFromZero).plain

/-- The fewest digits that identify the number, in scientific notation. -/
def scientificText (x : Float) : String :=
  signedText x fun m => (m.shortestDecimal .awayFromZero).scientific false

/-- The exact value rounded to `places` decimal places, ties to even. -/
def fixedText (places : Nat) (x : Float) : String :=
  signedText x fun m => fixedDigits (m.units places) places

end GlutSketch
