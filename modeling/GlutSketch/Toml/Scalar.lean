import GlutSketch.Numeric.Decimal
import GlutSketch.Text.Digits
import GlutSketch.Toml.Value

/-!
# GlutSketch.Toml.Scalar

The values of a TOML document that hold no other values: strings of four kinds,
numbers, and dates and times.  Each reader takes its value off the front of a
text and gives the rest.
-/

namespace GlutSketch.Toml

/-! ## Characters -/

/-- A space or tab. -/
def isBlank (c : Char) : Bool := c == ' ' || c == '\t'

/-- A character that may stand in a comment or string: a tab or no control
character of ASCII. -/
def isTextChar (c : Char) : Bool := c == '\t' || (0x20 ≤ c.toNat && c.toNat != 0x7F)

/-- Drops spaces and tabs. -/
def skipBlanks (cs : List Char) : List Char := cs.dropWhile isBlank

/-- Takes a line end off the front. -/
def newline? : List Char → Option (List Char)
  | '\n' :: rest => some rest
  | '\r' :: '\n' :: rest => some rest
  | _ => none

/-! ## Strings -/

/-- The character of a code point given by hexadecimal digits, unless it is half
of a pair or too large. -/
def codePoint? (digits : List Char) : Option Char := do
  let n ← hexDigitsValue? digits
  if n.isValidChar then some (Char.ofNat n) else none

/-- The character that a letter after a backslash stands for. -/
def escaped? : Char → Option Char
  | 'b' => some '\x08'
  | 't' => some '\t'
  | 'n' => some '\n'
  | 'f' => some '\x0c'
  | 'r' => some '\r'
  | '"' => some '"'
  | '\\' => some '\\'
  | _ => none

/-- A text read and the text after it. -/
abbrev TextRest := Option (List Char × List Char)

/-- Puts a character before the text read. -/
def TextRest.cons (c : Char) (r : TextRest) : TextRest :=
  r.map fun (text, rest) => (c :: text, rest)

/-- Reads a string in double quotes, after the first. -/
def basicText? : List Char → TextRest
  | [] => none
  | '"' :: rest => some ([], rest)
  | '\\' :: 'u' :: a :: b :: c :: d :: rest =>
      (codePoint? [a, b, c, d]).bind fun x => TextRest.cons x (basicText? rest)
  | '\\' :: 'U' :: a :: b :: c :: d :: e :: f :: g :: h :: rest =>
      (codePoint? [a, b, c, d, e, f, g, h]).bind fun x => TextRest.cons x (basicText? rest)
  | '\\' :: e :: rest => (escaped? e).bind fun x => TextRest.cons x (basicText? rest)
  | c :: rest => if isTextChar c && c != '\\' then TextRest.cons c (basicText? rest) else none

/-- Reads a string in single quotes, after the first. -/
def literalText? : List Char → TextRest
  | [] => none
  | '\'' :: rest => some ([], rest)
  | c :: rest => if isTextChar c then TextRest.cons c (literalText? rest) else none

/-- Nothing but blanks comes before the end of the line. -/
def endsLine (cs : List Char) : Bool := (newline? (skipBlanks cs)).isSome

/-- Reads a string in three double quotes, after the first three.  Up to two
quotes may stand before the last three.  While `skipping`, which a backslash at
the end of a line begins, blanks and line ends are dropped. -/
def multilineText? : (skipping : Bool) → List Char → TextRest
  | _, [] => none
  | _, '"' :: '"' :: '"' :: '"' :: '"' :: rest => some (['"', '"'], rest)
  | _, '"' :: '"' :: '"' :: '"' :: rest => some (['"'], rest)
  | _, '"' :: '"' :: '"' :: rest => some ([], rest)
  | skipping, '\r' :: '\n' :: rest =>
      if skipping then multilineText? true rest else TextRest.cons '\n' (multilineText? false rest)
  | _, '\\' :: 'u' :: a :: b :: c :: d :: rest =>
      (codePoint? [a, b, c, d]).bind fun x => TextRest.cons x (multilineText? false rest)
  | _, '\\' :: 'U' :: a :: b :: c :: d :: e :: f :: g :: h :: rest =>
      (codePoint? [a, b, c, d, e, f, g, h]).bind fun x =>
        TextRest.cons x (multilineText? false rest)
  | _, '\\' :: e :: rest =>
      if endsLine (e :: rest) then multilineText? true (e :: rest)
      else (escaped? e).bind fun x => TextRest.cons x (multilineText? false rest)
  | skipping, c :: rest =>
      if skipping && (isBlank c || c == '\n') then multilineText? true rest
      else if c == '\n' || (isTextChar c && c != '\\') then
        TextRest.cons c (multilineText? false rest)
      else none

/-- Reads a string in three single quotes, after the first three. -/
def multilineLiteral? : List Char → TextRest
  | [] => none
  | '\'' :: '\'' :: '\'' :: '\'' :: '\'' :: rest => some (['\'', '\''], rest)
  | '\'' :: '\'' :: '\'' :: '\'' :: rest => some (['\''], rest)
  | '\'' :: '\'' :: '\'' :: rest => some ([], rest)
  | '\r' :: '\n' :: rest => TextRest.cons '\n' (multilineLiteral? rest)
  | c :: rest =>
      if c == '\n' || isTextChar c then TextRest.cons c (multilineLiteral? rest) else none

/-- Reads a string of any kind.  A line end right after three quotes does not
count. -/
def string? : List Char → TextRest
  | '"' :: '"' :: '"' :: rest => multilineText? false ((newline? rest).getD rest)
  | '"' :: rest => basicText? rest
  | '\'' :: '\'' :: '\'' :: rest => multilineLiteral? ((newline? rest).getD rest)
  | '\'' :: rest => literalText? rest
  | _ => none

/-! ## Numbers -/

/-- Digits, with single underscores between them, after the first digit. -/
def moreDigits? (isDigit : Char → Bool) : List Char → TextRest
  | [] => some ([], [])
  | '_' :: c :: rest => if isDigit c then TextRest.cons c (moreDigits? isDigit rest) else none
  | c :: rest =>
      if isDigit c then TextRest.cons c (moreDigits? isDigit rest)
      else if c = '_' then none
      else some ([], c :: rest)

/-- Digits, at least one, with single underscores between them. -/
def digits? (isDigit : Char → Bool) : List Char → TextRest
  | [] => none
  | c :: rest => if isDigit c then TextRest.cons c (moreDigits? isDigit rest) else none

/-- A whole number without sign, which does not begin with a zero unless it is
one. -/
def wholeDigits? : List Char → TextRest
  | '0' :: rest => some (['0'], rest)
  | cs => digits? Char.isDigit cs

/-- A digit of base eight. -/
def isOctalDigit (c : Char) : Bool := '0' ≤ c && c ≤ '7'

/-- A digit of base two. -/
def isBinaryDigit (c : Char) : Bool := c == '0' || c == '1'

/-- A digit of base sixteen. -/
def isHexDigit (c : Char) : Bool := (hexValue? c).isSome

/-- The value of digits in a base of at most sixteen. -/
def valueInBase (base : Nat) (digits : List Char) : Nat :=
  digits.foldl (fun n c => base * n + (hexValue? c).getD 0) 0

/-- An integer, if 64 bits can hold it. -/
def integer? (n : Int) : Option Value :=
  if -(pow2 63 : Int) ≤ n ∧ n < (pow2 63 : Int) then some (.integer n) else none

/-- The digits after a point, if there is one. -/
def fraction? : List Char → TextRest
  | '.' :: rest => digits? Char.isDigit rest
  | cs => some ([], cs)

/-- The exponent, if there is one. -/
def exponent? : List Char → Option (Option Int × List Char)
  | [] => some (none, [])
  | c :: cs =>
      if c = 'e' ∨ c = 'E' then do
        let (negative, unsigned) := splitSign cs
        let (digits, rest) ← digits? Char.isDigit unsigned
        return (some (if negative then -digitsValue digits else digitsValue digits), rest)
      else some (none, c :: cs)

/-- A float with a sign, if it is not too large.  A negative one that is too
large is an infinity. -/
def float? (negative : Bool) (d : Decimal) : Option Value :=
  let x := d.toFloat
  if negative then some (.float (-x))
  else if x.isInf then none
  else some (.float x)

/-- Reads a number in base ten, after its sign. -/
def decimalNumber? (negative : Bool) (cs : List Char) : Option (Value × List Char) := do
  let (whole, afterWhole) ← wholeDigits? cs
  let (fraction, afterFraction) ← fraction? afterWhole
  let (exponent, rest) ← exponent? afterFraction
  if fraction = [] ∧ exponent = none then
    let n : Int := digitsValue whole
    return (← integer? (if negative then -n else n), rest)
  else
    let digits := digitsValue (whole ++ fraction)
    return (← float? negative ⟨digits, exponent.getD 0 - fraction.length⟩, rest)

/-- Reads a number without a sign in a base other than ten, after its two first
characters. -/
def basedNumber? (base : Nat) (isDigit : Char → Bool) (cs : List Char) :
    Option (Value × List Char) := do
  let (digits, rest) ← digits? isDigit cs
  return (← integer? (valueInBase base digits), rest)

/-- Reads a number after its sign, words for special values included. -/
def signedNumber? (negative : Bool) : List Char → Option (Value × List Char)
  | 'i' :: 'n' :: 'f' :: rest =>
      some (.float (if negative then -Real64.infinity else Real64.infinity), rest)
  | 'n' :: 'a' :: 'n' :: rest => some (.float Real64.nan, rest)
  | cs => decimalNumber? negative cs

/-- Reads a number. -/
def number? : List Char → Option (Value × List Char)
  | '0' :: 'x' :: rest => basedNumber? 16 isHexDigit rest
  | '0' :: 'o' :: rest => basedNumber? 8 isOctalDigit rest
  | '0' :: 'b' :: rest => basedNumber? 2 isBinaryDigit rest
  | '+' :: rest => signedNumber? false rest
  | '-' :: rest => signedNumber? true rest
  | cs => signedNumber? false cs

/-! ## Dates and times -/

/-- Two digits with a value in a range. -/
def twoDigits? (low high : Nat) : List Char → Option (Nat × List Char)
  | a :: b :: rest =>
      let n := digitsValue [a, b]
      if a.isDigit && b.isDigit && low ≤ n && n ≤ high then some (n, rest) else none
  | _ => none

/-- Takes a character off the front. -/
def char? (c : Char) : List Char → Option (List Char)
  | [] => none
  | d :: rest => if d = c then some rest else none

/-- The number of days of a month. -/
def daysInMonth (year month : Nat) : Nat :=
  if month = 2 then
    if year % 4 = 0 ∧ (year % 100 ≠ 0 ∨ year % 400 = 0) then 29 else 28
  else if month ∈ [4, 6, 9, 11] then 30
  else 31

/-- Takes a date off the front. -/
def date? (cs : List Char) : Option (List Char) := do
  let (century, afterCentury) ← twoDigits? 0 99 cs
  let (year, afterYear) ← twoDigits? 0 99 afterCentury
  let (month, afterMonth) ← twoDigits? 1 12 (← char? '-' afterYear)
  let (_, rest) ← twoDigits? 1 (daysInMonth (100 * century + year) month) (← char? '-' afterMonth)
  return rest

/-- Takes a fraction of a second off the front, if there is one. -/
def secondFraction (cs : List Char) : List Char :=
  match cs with
  | '.' :: rest =>
      match splitDigits rest with
      | ([], _) => cs
      | (_, after) => after
  | _ => cs

/-- Takes a time off the front. -/
def time? (cs : List Char) : Option (List Char) := do
  let (_, afterHour) ← twoDigits? 0 23 cs
  let (_, afterMinute) ← twoDigits? 0 59 (← char? ':' afterHour)
  let (_, rest) ← twoDigits? 0 60 (← char? ':' afterMinute)
  return secondFraction rest

/-- Takes the difference from universal time off the front. -/
def offset? : List Char → Option (List Char)
  | [] => none
  | c :: rest =>
      if c = 'Z' ∨ c = 'z' then some rest
      else if c = '+' ∨ c = '-' then do
        let (_, afterHour) ← twoDigits? 0 23 rest
        let (_, after) ← twoDigits? 0 59 (← char? ':' afterHour)
        return after
      else none

/-- Takes the time after a date off the front, if there is one. -/
def timeOfDate (cs : List Char) : List Char :=
  match cs with
  | c :: rest =>
      if c = 'T' ∨ c = 't' ∨ c = ' ' then
        match time? rest with
        | none => cs
        | some after => (offset? after).getD after
      else cs
  | [] => []

/-- Takes a date, a time or both off the front. -/
def dateTime? (cs : List Char) : Option (List Char) :=
  match date? cs with
  | some rest => some (timeOfDate rest)
  | none => time? cs

end GlutSketch.Toml
