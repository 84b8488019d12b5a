import GlutSketch.Preview.Picture

/-!
# GlutSketch.Command.Host

What a command needs of the machine it runs on: files, and a place for warnings.
A command runs over any monad with `Host`.  A write happens as a whole or not at
all.
-/

namespace GlutSketch

/-- What is written to a file. -/
inductive FileContent where
  | text (value : String)
  | picture (value : Picture)
deriving DecidableEq, Repr

/-- Files and warnings. -/
class Host (m : Type → Type) where
  /-- The text of a file, if it can be read as text. -/
  read : String → m (Option String)
  /-- There is a file or folder at a path. -/
  isThere : String → m Bool
  /-- Writes a file, and says whether this succeeded. -/
  write : String → FileContent → m Bool
  /-- Makes a folder with all folders above it, and says whether it is there
  afterwards. -/
  makeFolder : String → m Bool
  /-- Tells the user something while the command goes on. -/
  report : String → m Unit

end GlutSketch
