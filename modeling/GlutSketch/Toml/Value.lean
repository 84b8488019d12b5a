/-!
# GlutSketch.Toml.Value

Values of a TOML document, and the rules by which tables may be opened and
extended.  A table knows how it came about (`Origin`): one written in braces is
closed, one opened by a header cannot be opened again or extended by dotted
keys, one implied by a longer header may be opened once, and one made by dotted
keys can be extended by dotted keys only.
-/

namespace GlutSketch.Toml

/-- How a table came about. -/
inductive Origin where
  | braces
  | header
  | implied
  | dotted
deriving DecidableEq, Repr

/-- A value.  Of dates and times only their presence is kept.  A list of tables
opened by headers is apart from arrays, since it can be extended. -/
inductive Value where
  | text (value : String)
  | integer (value : Int)
  | float (value : Float)
  | bool (value : Bool)
  | dateTime
  | array (elements : List Value)
  | table (origin : Origin) (entries : List (String × Value))
  | tables (elements : List (List (String × Value)))

/-- The keys of a table with their values. -/
abbrev Entries := List (String × Value)

/-- Gives a key, which is there, a new value. -/
def replaceKey (key : String) (value : Value) (entries : Entries) : Entries :=
  entries.map fun (k, v) => (k, if k = key then value else v)

/-- Adds a key, which must not be there. -/
def addKey? (key : String) (value : Value) (entries : Entries) : Option Entries :=
  match entries.lookup key with
  | none => some (entries ++ [(key, value)])
  | some _ => none

/-! ## Paths -/

/-- Changes the table at the end of a path by `change`, which is told the origin
of that table.  Tables that are missing on the way are made, with the origin
`made`; of a list of tables the path follows the last.  Dotted keys do not pass
through tables opened by headers. -/
def changeAt? (made : Origin) (change : Origin → Entries → Option Entries) :
    List String → Origin → Entries → Option Entries
  | [], origin, entries => change origin entries
  | key :: path, _, entries =>
      match entries.lookup key with
      | none => do
          let inner ← changeAt? made change path made []
          return entries ++ [(key, .table made inner)]
      | some (.table origin inner) =>
          if origin = .braces ∨ (made = .dotted ∧ origin = .header) then none
          else do
            let inner ← changeAt? made change path origin inner
            return replaceKey key (.table origin inner) entries
      | some (.tables elements) =>
          match elements.getLast? with
          | none => none
          | some last => do
              let last ← changeAt? made change path .header last
              return replaceKey key (.tables (elements.dropLast ++ [last])) entries
      | some _ => none

/-- Sets a dotted key inside the table whose entries are given. -/
def setDotted? (path : List String) (key : String) (value : Value) (entries : Entries) :
    Option Entries :=
  changeAt? .dotted (fun origin inner =>
    if path = [] ∨ origin = .dotted then addKey? key value inner else none) path .header entries

/-- Opens the table of a header. -/
def openTable? (parents : List String) (key : String) (root : Entries) : Option Entries :=
  changeAt? .implied (fun _ entries =>
    match entries.lookup key with
    | none => some (entries ++ [(key, .table .header [])])
    | some (.table .implied inner) => some (replaceKey key (.table .header inner) entries)
    | some _ => none) parents .header root

/-- Opens one more table of a list of tables. -/
def openElement? (parents : List String) (key : String) (root : Entries) : Option Entries :=
  changeAt? .implied (fun _ entries =>
    match entries.lookup key with
    | none => some (entries ++ [(key, .tables [[]])])
    | some (.tables elements) => some (replaceKey key (.tables (elements ++ [[]])) entries)
    | some _ => none) parents .header root

/-! ## Documents -/

/-- A part of a document; the path of a key is given without the key itself. -/
inductive Statement where
  | header (parents : List String) (key : String)
  | element (parents : List String) (key : String)
  | set (path : List String) (key : String) (value : Value)

/-- What has been read of a document: its root table, and the path of the table
that is open. -/
structure Document where
  root : Entries
  current : List String

/-- Adds a statement to a document. -/
def Document.add? (d : Document) : Statement → Option Document
  | .header parents key => do
      return ⟨← openTable? parents key d.root, parents ++ [key]⟩
  | .element parents key => do
      return ⟨← openElement? parents key d.root, parents ++ [key]⟩
  | .set path key value => do
      let root ← changeAt? .implied (fun _ entries => setDotted? path key value entries) d.current
        .header d.root
      return { d with root := root }

/-- The root table of a document. -/
def rootOfStatements? (statements : List Statement) : Option Entries :=
  (statements.foldlM Document.add? ⟨[], []⟩).map (·.root)

end GlutSketch.Toml
