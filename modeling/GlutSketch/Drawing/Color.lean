import GlutSketch.Text.Digits

/-!
# GlutSketch.Drawing.Color

Colors of three bytes, written as six hexadecimal digits with or without a `#`
before them.  A text that is no color is never an error: it is drawn in black.
-/

namespace GlutSketch

/-- A color of three bytes. -/
structure Color where
  red : UInt8
  green : UInt8
  blue : UInt8
deriving DecidableEq, Repr

/-- The three channels of a color as doubles, zero to one for a `Color`. -/
structure Channels where
  red : Float
  green : Float
  blue : Float
deriving DecidableEq, Repr

namespace Color

/-- All channels off. -/
def black : Color := ⟨0, 0, 0⟩

/-- All channels at full strength. -/
def white : Color := ⟨255, 255, 255⟩

/-- The byte of two hexadecimal digits. -/
def byte? (a b : Char) : Option UInt8 := (hexDigitsValue? [a, b]).map UInt8.ofNat

/-- The color of six hexadecimal digits. -/
def ofDigits? : List Char → Option Color
  | [a, b, c, d, e, f] =>
      match byte? a b, byte? c d, byte? e f with
      | some red, some green, some blue => some ⟨red, green, blue⟩
      | _, _, _ => none
  | _ => none

/-- The color of six hexadecimal digits, perhaps after one `#`. -/
def ofHex? (text : String) : Option Color :=
  match text.toList with
  | '#' :: digits => ofDigits? digits
  | digits => ofDigits? digits

/-- The color a text is drawn in. -/
def ofText (text : String) : Color := (ofHex? text).getD black

/-- A byte as a fraction of the greatest byte. -/
def channel (b : UInt8) : Float := Float.ofNat b.toNat / 255

/-- The channels of a color. -/
def channels (c : Color) : Channels := ⟨channel c.red, channel c.green, channel c.blue⟩

end Color

end GlutSketch
