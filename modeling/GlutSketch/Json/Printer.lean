import GlutSketch.Json.Value

/-!
# GlutSketch.Json.Printer

Writing JSON over several lines: an element or member a line, two spaces of
indentation per level, and an empty container as its two brackets.
-/

namespace GlutSketch.Json

/-! ## Scalars -/

/-- A hexadecimal digit in lower case. -/
def hexDigit (n : Nat) : Char := Nat.digitChar n

/-- The spelling of a character inside a string.  Only the quote, the backslash
and the control characters of ASCII are escaped. -/
def escape (c : Char) : List Char :=
  match c with
  | '"' => ['\\', '"']
  | '\\' => ['\\', '\\']
  | '\x08' => ['\\', 'b']
  | '\x0c' => ['\\', 'f']
  | '\n' => ['\\', 'n']
  | '\r' => ['\\', 'r']
  | '\t' => ['\\', 't']
  | c =>
      if c.toNat < 0x20 then
        ['\\', 'u', '0', '0', hexDigit (c.toNat / 16), hexDigit (c.toNat % 16)]
      else [c]

/-- A string in quotes. -/
def quote (text : List Char) : List Char := '"' :: (text.flatMap escape ++ ['"'])

/-- The spelling of an exponent, always with a sign. -/
def exponentText (e : Int) : List Char :=
  'e' :: (if e < 0 then '-' else '+') :: decimalDigits e.natAbs

/-- The spelling of a number. -/
def Number.text (n : Number) : List Char :=
  let sign := if n.negative then ['-'] else []
  let fraction := if n.fraction = [] then [] else '.' :: n.fraction
  let exponent := match n.exponent with
    | none => []
    | some e => exponentText e
  sign ++ n.whole ++ fraction ++ exponent

/-! ## Containers -/

/-- A new line, indented by `depth` levels. -/
def newLine (depth : Nat) : List Char := '\n' :: List.replicate (2 * depth) ' '

/-- The lines of a container between its brackets. -/
def bracketed (opening closing : Char) (depth : Nat) : List (List Char) → List Char
  | [] => [opening, closing]
  | items =>
      let lines := items.map (newLine (depth + 1) ++ ·)
      opening :: ([','].intercalate lines ++ newLine depth ++ [closing])

mutual

/-- Writes a value that stands `depth` levels deep. -/
def pretty (depth : Nat) : Json → List Char
  | null => ['n', 'u', 'l', 'l']
  | bool true => ['t', 'r', 'u', 'e']
  | bool false => ['f', 'a', 'l', 's', 'e']
  | number n => n.text
  | string text => quote (text.getD "").toList
  | array elements => bracketed '[' ']' depth (prettyElements (depth + 1) elements)
  | object members => bracketed '{' '}' depth (prettyMembers (depth + 1) members)

/-- Writes the elements of an array. -/
def prettyElements (depth : Nat) : List Json → List (List Char)
  | [] => []
  | v :: rest => v.pretty depth :: prettyElements depth rest

/-- Writes the members of an object. -/
def prettyMembers (depth : Nat) : List (Option String × Json) → List (List Char)
  | [] => []
  | (name, v) :: rest =>
      (quote (name.getD "").toList ++ ':' :: ' ' :: v.pretty depth) :: prettyMembers depth rest

end

/-- Writes a value over several lines, without a line end after it. -/
def print (v : Json) : String := String.ofList (v.pretty 0)

end GlutSketch.Json
