import GlutSketch.Equation.Error
import GlutSketch.Text.Digits
import GlutSketch.Text.WhiteSpace

/-!
# GlutSketch.Equation.Lexer

The lexemes of a line of plot equation.  `lexeme?` is the longest lexeme at the
front of a text, and `tokenize` cuts a line into lexemes, dropping the white
space between them.
-/

namespace GlutSketch.Equation

/-! ## Numerals -/

/-- A numeral as written: digits before and after the point, and the
exponent. -/
structure Numeral where
  whole : List Char
  fraction : List Char
  exponent : Int
deriving DecidableEq

/-- The number a numeral stands for, as the nearest double. -/
def Numeral.value (n : Numeral) : Float :=
  (Decimal.mk (digitsValue (n.whole ++ n.fraction)) (n.exponent - n.fraction.length)).toFloat

/-- The digits after a point at the front, and what follows them. -/
def splitFraction : List Char → List Char × List Char
  | '.' :: cs => splitDigits cs
  | cs => ([], cs)

/-- The exponent at the front, and what follows it.  The letter belongs to the
numeral only if digits come after it and its sign. -/
def splitExponent : List Char → Int × List Char
  | [] => (0, [])
  | c :: cs =>
      if c = 'e' ∨ c = 'E' then
        let (negative, unsigned) := splitSign cs
        match splitDigits unsigned with
        | ([], _) => (0, c :: cs)
        | (digits, rest) => (if negative then -digitsValue digits else digitsValue digits, rest)
      else (0, c :: cs)

/-- The longest numeral at the front, with what follows it: digits with or
without a point among or after them, or a point and digits, and then perhaps an
exponent. -/
def numeral? (cs : List Char) : Option (Numeral × List Char) :=
  let (whole, afterWhole) := splitDigits cs
  let (fraction, afterFraction) := splitFraction afterWhole
  if whole = [] ∧ fraction = [] then none
  else
    let (exponent, rest) := splitExponent afterFraction
    some (⟨whole, fraction, exponent⟩, rest)

/-- The number that a whole text stands for, if it is a numeral. -/
def number? (text : List Char) : Option Float :=
  match numeral? text with
  | some (n, []) => some n.value
  | _ => none

/-! ## Lexemes -/

/-- A character that begins an identifier. -/
def isNameStart (c : Char) : Bool := c.isAlpha || c == '_'

/-- A character that continues an identifier. -/
def isNamePart (c : Char) : Bool := c.isAlphanum || c == '_'

/-- The lexemes of one character. -/
def symbol? : Char → Option TokenKind
  | '+' => some .plus
  | '-' | '−' => some .minus
  | '*' | '×' | '⋅' => some .star
  | '/' | '÷' => some .slash
  | '^' => some .caret
  | '=' => some .equals
  | '(' => some .leftParen
  | ')' => some .rightParen
  | ',' => some .comma
  | '|' => some .bar
  | 'π' => some (.identifier "pi")
  | _ => none

/-- The longest lexeme at the front, and how many characters it has.  The number
of a numeral is known as soon as its digits are: the text that is cut out of the
line is never refused by `number?`. -/
def lexeme? (cs : List Char) : Option (TokenKind × Nat) :=
  match cs with
  | [] => none
  | '*' :: '*' :: _ => some (.caret, 2)
  | c :: rest =>
      if let some kind := symbol? c then some (kind, 1)
      else if isNameStart c then
        let name := c :: rest.takeWhile isNamePart
        some (.identifier (String.ofList name), name.length)
      else (numeral? cs).map fun (n, rest) => (.number n.value, cs.length - rest.length)

/-! ## Lines -/

/-- The tokens of a text whose first character has the place `start`. -/
def tokensFrom (start : Nat) : List Char → Except Error (List Token)
  | [] => .ok []
  | c :: cs =>
      if isWhiteSpace c then tokensFrom (start + 1) cs
      else match lexeme? (c :: cs) with
        | none => .error ⟨.unexpectedCharacter c, ⟨start, start + 1⟩⟩
        | some (kind, size) =>
            match tokensFrom (start + size) (cs.drop (size - 1)) with
            | .error e => .error e
            | .ok tokens => .ok (⟨kind, ⟨start, start + size⟩⟩ :: tokens)
termination_by cs => cs.length

/-- Cuts a line into tokens. -/
def tokenize (source : String) : Except Error (List Token) := tokensFrom 0 source.toList

end GlutSketch.Equation
