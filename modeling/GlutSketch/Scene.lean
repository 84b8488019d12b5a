import GlutSketch.Drawing.Shape
import GlutSketch.Plot.Function
import GlutSketch.Plot.Viewport

/-!
# GlutSketch.Scene

A scene: shapes, functions and the window in which the functions are shown.
Functions are addressed by id, and the lookups take the first function that has
it.
-/

namespace GlutSketch

/-- Shapes from back to front, functions in the order in which they are drawn,
and the window. -/
structure Scene where
  shapes : List Shape
  functions : List PlotFunction
  viewport : Viewport
deriving DecidableEq, Repr

/-- Changes to a function; what is missing stays as it is. -/
structure FunctionEdit where
  expression : Option String
  color : Option String
  visible : Option Bool
deriving DecidableEq, Repr

/-- The function after the changes.  Its id never changes. -/
def PlotFunction.edit (f : PlotFunction) (e : FunctionEdit) : PlotFunction :=
  { f with
    expression := e.expression.getD f.expression
    color := e.color.getD f.color
    visible := e.visible.getD f.visible }

/-- The colors of new functions, in turn. -/
def seriesColors : List String :=
  ["#FF0000", "#00AA00", "#0000FF", "#FF8800", "#AA00AA", "#008888", "#888800", "#444444"]

namespace Scene

/-! ## New scenes -/

/-- A scene without shapes and functions. -/
def default : Scene := ⟨[], [], .default⟩

/-- A sine wave and a vertical line. -/
def starter (viewport : Viewport) : Scene where
  shapes := []
  functions := [⟨⟨1⟩, "sin(x)", "#FF0000", true⟩, ⟨⟨2⟩, "x = 3", "#00AA00", true⟩]
  viewport := viewport

/-! ## Lookups -/

/-- The function with an id. -/
def function? (s : Scene) (id : FunctionId) : Option PlotFunction :=
  s.functions.find? fun f => f.id = id

/-- The place of the function with an id in the list. -/
def position? (s : Scene) (id : FunctionId) : Option Nat :=
  s.functions.findIdx? fun f => f.id = id

/-- An id greater than all others: one more than the greatest. -/
def nextId (s : Scene) : FunctionId :=
  ⟨s.functions.foldl (fun greatest f => max greatest f.id.value) 0 + 1⟩

/-! ## Changes -/

/-- Adds a shape in front of the others. -/
def addShape (s : Scene) (shape : Shape) : Scene := { s with shapes := s.shapes ++ [shape] }

/-- The function that is added to a scene: a parabola in the color whose turn it
is. -/
def newFunction (s : Scene) : PlotFunction where
  id := s.nextId
  expression := "x^2"
  color := seriesColors.getD (s.functions.length % seriesColors.length) "#FF0000"
  visible := true

/-- Adds a new function after the others. -/
def addFunction (s : Scene) : Scene := { s with functions := s.functions ++ [s.newFunction] }

/-- Edits the first function with an id, wherever there is one. -/
def editFirst (id : FunctionId) (e : FunctionEdit) : List PlotFunction → List PlotFunction
  | [] => []
  | f :: rest => if f.id = id then f.edit e :: rest else f :: editFirst id e rest

/-- Edits the function with an id. -/
def editFunction (s : Scene) (id : FunctionId) (e : FunctionEdit) : Scene :=
  { s with functions := editFirst id e s.functions }

/-- Takes the function with an id out of the scene. -/
def takeFunction (s : Scene) (id : FunctionId) : Option PlotFunction × Scene :=
  match s.position? id with
  | none => (none, s)
  | some i => (s.functions[i]?, { s with functions := s.functions.eraseIdx i })

/-- Removes the function with an id. -/
def removeFunction (s : Scene) (id : FunctionId) : Scene := (s.takeFunction id).2

/-- Sets the window. -/
def setViewport (s : Scene) (v : Viewport) : Scene := { s with viewport := v }

end Scene

end GlutSketch
