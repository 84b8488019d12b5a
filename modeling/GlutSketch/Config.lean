import GlutSketch.Numeric.Layout
import GlutSketch.Plot.Viewport
import GlutSketch.Toml.Reader

/-!
# GlutSketch.Config

The settings of the command line, as a TOML document.  Each setting has a
default, and a document that is not valid, or has a setting of the wrong type,
stands for the defaults as a whole.
-/

namespace GlutSketch

/-- Where programs are written, the window of new scenes, and the size of
previews in pixels. -/
structure Config where
  outputFile : String
  viewport : Viewport
  previewWidth : UInt32
  previewHeight : UInt32
deriving DecidableEq, Repr

namespace Toml.Value

/-- A text. -/
def asText? : Value → Option String
  | text value => some value
  | _ => none

/-- A number; integers count as well. -/
def asFloat? : Value → Option Float
  | float value => some value
  | integer value => some (Float.ofInt value)
  | _ => none

/-- A natural number of 32 bits. -/
def asUInt32? : Value → Option UInt32
  | integer value =>
      if 0 ≤ value ∧ value < (pow2 32 : Int) then some (UInt32.ofNat value.toNat) else none
  | _ => none

/-- A window: a table of its four bounds, or an array that begins with them. -/
def asViewport? : Value → Option Viewport
  | table _ entries => do
      return ⟨← (entries.lookup "x_min").bind asFloat?, ← (entries.lookup "x_max").bind asFloat?,
        ← (entries.lookup "y_min").bind asFloat?, ← (entries.lookup "y_max").bind asFloat?⟩
  | array (xMin :: xMax :: yMin :: yMax :: _) => do
      return ⟨← xMin.asFloat?, ← xMax.asFloat?, ← yMin.asFloat?, ← yMax.asFloat?⟩
  | _ => none

end Toml.Value

namespace Config

/-- The settings of a program that has no file of settings. -/
def default : Config := ⟨"freeglut_drawing.cpp", .default, 800, 600⟩

/-- Reads a setting, or takes its default if the document does not have it. -/
def setting? {α : Type} (read : Toml.Value → Option α) (default : α) (entries : Toml.Entries)
    (key : String) : Option α :=
  match entries.lookup key with
  | none => some default
  | some v => read v

/-- Reads the settings of a document. -/
def ofEntries? (entries : Toml.Entries) : Option Config := do
  return {
    outputFile := ← setting? Toml.Value.asText? default.outputFile entries "output_file"
    viewport := ← setting? Toml.Value.asViewport? default.viewport entries "viewport"
    previewWidth := ← setting? Toml.Value.asUInt32? default.previewWidth entries "preview_width"
    previewHeight :=
      ← setting? Toml.Value.asUInt32? default.previewHeight entries "preview_height" }

/-- The settings a text stands for. -/
def ofText (text : String) : Config := ((Toml.parse? text).bind ofEntries?).getD default

/-- The text of a file with the default settings. -/
def defaultText : String :=
  String.join <|
    ["# vectorgl configuration\n",
      "\n",
      "# File written by `vectorgl generate` when no -o is given\n",
      "output_file = \"", default.outputFile, "\"\n",
      "\n",
      "# Preview image size in pixels\n",
      "preview_width = ", toString default.previewWidth.toNat, "\n",
      "preview_height = ", toString default.previewHeight.toNat, "\n",
      "\n",
      "# Plotting window for newly created scenes\n",
      "[viewport]\n",
      "x_min = ", fixedText 1 default.viewport.xMin, "\n",
      "x_max = ", fixedText 1 default.viewport.xMax, "\n",
      "y_min = ", fixedText 1 default.viewport.yMin, "\n",
      "y_max = ", fixedText 1 default.viewport.yMax, "\n"]

end Config

end GlutSketch
