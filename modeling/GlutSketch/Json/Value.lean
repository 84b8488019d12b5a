import GlutSketch.Numeric.Layout

/-!
# GlutSketch.Json.Value

JSON values as they are spelled.  A number keeps its digits, since some readers
need them (a whole number of 64 bits has no exact double).  A string that
contains half of a surrogate pair stands for no text; it is harmless in a place
that nobody reads, so it has a value of its own.
-/

namespace GlutSketch

/-- A number as it is spelled.  A fraction, if there is one, has at least one
digit. -/
structure Json.Number where
  negative : Bool
  whole : List Char
  fraction : List Char
  exponent : Option Int
deriving DecidableEq, Repr

/-- A JSON value.  The text of a string, or of a member's name, is missing if it
is not valid. -/
inductive Json where
  | null
  | bool (value : Bool)
  | number (value : Json.Number)
  | string (text : Option String)
  | array (elements : List Json)
  | object (members : List (Option String × Json))

namespace Json

/-- A string value. -/
def ofString (text : String) : Json := string (some text)

/-- A whole number. -/
def ofNat (n : Nat) : Json := number ⟨false, decimalDigits n, [], none⟩

/-- An object with valid names. -/
def ofMembers (members : List (String × Json)) : Json :=
  object (members.map fun (name, value) => (some name, value))

/-- The spelling of a decimal: digits around a point, with at least one digit
after it, if the leading digit's exponent is in `-5 .. 15`, and scientific
notation outside of that. -/
def Number.ofDecimal (negative : Bool) (d : Decimal) : Number :=
  if -5 ≤ d.leadingExponent ∧ d.leadingExponent ≤ 15 then
    match d.places with
    | (whole, []) => ⟨negative, whole, ['0'], none⟩
    | (whole, fraction) => ⟨negative, whole, fraction, none⟩
  else
    let digits := decimalDigits d.digits
    ⟨negative, digits.take 1, digits.drop 1, some d.leadingExponent⟩

/-- A double, spelled with the fewest digits that identify it.  JSON has no word
for NaN and the infinities. -/
def ofFloat (x : Float) : Json :=
  match Binary64.ofFloat x with
  | .finite negative m => number (.ofDecimal negative (m.shortestDecimal .toEven))
  | _ => null

end Json

end GlutSketch
