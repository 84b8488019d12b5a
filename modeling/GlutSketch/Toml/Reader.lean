import GlutSketch.Toml.Scalar

/-!
# GlutSketch.Toml.Reader

Reading a text as a TOML document.  A value may nest `maxNesting` levels deep,
and the readers of arrays and of tables in braces recurse on the levels that are
left.  The lists in them are read with as much fuel as the text has characters,
which is more than enough since each item takes one.
-/

namespace GlutSketch.Toml

/-! ## Keys -/

/-- A character of a key without quotes. -/
def isKeyChar (c : Char) : Bool := c.isAlphanum || c == '-' || c == '_'

/-- Reads a key without dots. -/
def simpleKey? (cs : List Char) : Option (String × List Char) :=
  match cs with
  | '"' :: rest => (basicText? rest).map fun (text, after) => (String.ofList text, after)
  | '\'' :: rest => (literalText? rest).map fun (text, after) => (String.ofList text, after)
  | cs =>
      match cs.takeWhile isKeyChar with
      | [] => none
      | name => some (String.ofList name, cs.dropWhile isKeyChar)

/-- Reads the keys of a path with dots between them, and the blanks around
each. -/
def keys? : (fuel : Nat) → List Char → Option (List String × List Char)
  | 0, _ => none
  | fuel + 1, cs => do
      let (key, afterKey) ← simpleKey? (skipBlanks cs)
      match skipBlanks afterKey with
      | '.' :: rest =>
          let (others, after) ← keys? fuel rest
          return (key :: others, after)
      | rest => return ([key], rest)

/-- Values nest less deep than this, and paths have fewer keys. -/
def nestingLimit : Nat := 80

/-- Reads a path: the keys before the last, and the last. -/
def keyPath? (cs : List Char) : Option ((List String × String) × List Char) := do
  let (keys, rest) ← keys? (cs.length + 1) cs
  let last ← keys.getLast?
  if keys.length < nestingLimit then return ((keys.dropLast, last), rest) else none

/-! ## Blank text -/

/-- Drops blanks, line ends and comments.  A character that may not stand in a
comment is left. -/
def skipFiller : (inComment : Bool) → List Char → List Char
  | _, [] => []
  | _, '\r' :: '\n' :: rest => skipFiller false rest
  | true, c :: rest =>
      if c == '\n' then skipFiller false rest
      else if isTextChar c then skipFiller true rest
      else c :: rest
  | false, c :: rest =>
      if isBlank c || c == '\n' then skipFiller false rest
      else if c == '#' then skipFiller true rest
      else c :: rest

/-- Takes the end of a line off the front: blanks, perhaps a comment, and the
line end or the end of the text. -/
def lineEnd? (cs : List Char) : Option (List Char) :=
  let rest := match skipBlanks cs with
    | '#' :: comment => comment.dropWhile isTextChar
    | rest => rest
  match rest with
  | [] => some []
  | rest => newline? rest

/-! ## Values -/

/-- How a value is read. -/
abbrev Reader := List Char → Option (Value × List Char)

/-- Reads the elements of an array after its bracket, and the closing one. -/
def elements? (read : Reader) : (fuel : Nat) → List Char → Option (List Value × List Char)
  | 0, _ => none
  | fuel + 1, cs =>
      match skipFiller false cs with
      | ']' :: rest => some ([], rest)
      | cs => do
          let (v, afterValue) ← read cs
          match skipFiller false afterValue with
          | ',' :: rest =>
              let (others, after) ← elements? read fuel rest
              return (v :: others, after)
          | ']' :: rest => return ([v], rest)
          | _ => none

/-- Reads a path, an equals sign and a value. -/
def assignment? (read : Reader) (cs : List Char) :
    Option (((List String × String) × Value) × List Char) := do
  let (path, afterPath) ← keyPath? cs
  let (v, rest) ← read (skipBlanks (← char? '=' afterPath))
  return ((path, v), rest)

/-- Reads the assignments of a table in braces, at least one, and the closing
brace. -/
def assignments? (read : Reader) :
    (fuel : Nat) → List Char → Option (List ((List String × String) × Value) × List Char)
  | 0, _ => none
  | fuel + 1, cs => do
      let (first, afterFirst) ← assignment? read cs
      match skipBlanks afterFirst with
      | ',' :: rest =>
          let (others, after) ← assignments? read fuel rest
          return (first :: others, after)
      | '}' :: rest => return ([first], rest)
      | _ => none

/-- The entries of a table in braces. -/
def entriesOfAssignments? (assignments : List ((List String × String) × Value)) :
    Option Entries :=
  assignments.foldlM (fun entries ((path, key), v) => setDotted? path key v entries) []

/-- Reads a table in braces after its brace. -/
def bracedTable? (read : Reader) (cs : List Char) : Option (Value × List Char) :=
  match skipBlanks cs with
  | '}' :: rest => some (.table .braces [], rest)
  | _ => do
      let (assignments, rest) ← assignments? read (cs.length + 1) cs
      return (.table .braces (← entriesOfAssignments? assignments), rest)

/-- Reads a value that is no array, no table in braces and no string. -/
def plainValue? (cs : List Char) : Option (Value × List Char) :=
  match cs with
  | 't' :: 'r' :: 'u' :: 'e' :: rest => some (.bool true, rest)
  | 'f' :: 'a' :: 'l' :: 's' :: 'e' :: rest => some (.bool false, rest)
  | cs =>
      match dateTime? cs with
      | some rest => some (.dateTime, rest)
      | none => number? cs

/-- Reads a value with `levels` levels of nesting left. -/
def value? : (levels : Nat) → Reader
  | _, [] => none
  | levels, c :: rest =>
      if c = '[' then
        match levels with
        | 0 => none
        | levels + 1 => do
            let (elements, after) ← elements? (value? levels) (rest.length + 1) rest
            return (.array elements, after)
      else if c = '{' then
        match levels with
        | 0 => none
        | levels + 1 => bracedTable? (value? levels) rest
      else if c = '"' ∨ c = '\'' then
        (string? (c :: rest)).map fun (text, after) => (.text (String.ofList text), after)
      else plainValue? (c :: rest)

/-! ## Statements -/

/-- Reads a header after its first bracket. -/
def header? (cs : List Char) : Option (Statement × List Char) :=
  match cs with
  | '[' :: rest => do
      let ((parents, key), afterPath) ← keyPath? rest
      return (.element parents key, ← char? ']' (← char? ']' afterPath))
  | cs => do
      let ((parents, key), afterPath) ← keyPath? cs
      return (.header parents key, ← char? ']' afterPath)

/-- Reads a statement. -/
def statement? : List Char → Option (Statement × List Char)
  | '[' :: rest => header? rest
  | cs => do
      let (((path, key), v), rest) ← assignment? (value? (nestingLimit - 1)) cs
      return (.set path key v, rest)

/-- Reads statements, each on a line of its own. -/
def statements? : (fuel : Nat) → List Char → Option (List Statement)
  | 0, _ => none
  | fuel + 1, cs =>
      match skipFiller false cs with
      | [] => some []
      | cs => do
          let (s, rest) ← statement? cs
          let others ← statements? fuel (← lineEnd? rest)
          return s :: others

/-- Drops the mark of the byte order. -/
def dropByteOrderMark : List Char → List Char
  | '\uFEFF' :: rest => rest
  | cs => cs

/-- Reads a document: its root table. -/
def parse? (text : String) : Option Entries := do
  let cs := dropByteOrderMark text.toList
  rootOfStatements? (← statements? (cs.length + 1) cs)

end GlutSketch.Toml
