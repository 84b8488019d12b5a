import GlutSketch.Drawing.Tessellation
import GlutSketch.Numeric.Layout

/-!
# GlutSketch.Program.Text

The lines of a drawing program.  A body is a list of items: comments, blank
lines and passes, each of which has its lines.  Every number of a body is
written with a fixed number of places.
-/

namespace GlutSketch.Program

/-! ## Numbers -/

/-- A coordinate or channel: three places, an exact half of a thousandth going
away from zero, and no sign before a zero.  The exact halves among the doubles
are the odd multiples of a sixteenth. -/
def fixed3 (v : Float) : String :=
  if v.abs < 0.0005 then "0.000f"
  else if Real64.IsOddWhole (v * 16) then fixedText 3 (Real64.round (v * 1000) / 1000) ++ "f"
  else fixedText 3 v ++ "f"

/-- A pen size: one place. -/
def penText (v : Float) : String := fixedText 1 v ++ "f"

/-! ## Lines -/

/-- The indentation of a statement. -/
def indent : String := "    "

/-- A statement with arguments. -/
def callLine (name : String) (args : List String) : String :=
  indent ++ name ++ "(" ++ ", ".intercalate args ++ ");"

/-- A comment. -/
def commentLine (text : String) : String := indent ++ "// " ++ text

/-- Selects a color. -/
def colorLine (c : Channels) : String :=
  callLine "glColor3f" [fixed3 c.red, fixed3 c.green, fixed3 c.blue]

/-- Selects a pen. -/
def penLine : Pen → String
  | .lineWidth width => callLine "glLineWidth" [penText width]
  | .pointSize size => callLine "glPointSize" [penText size]

/-- A vertex of a block. -/
def vertexLine (v : Ndc) : String := indent ++ callLine "glVertex2f" [fixed3 v.x, fixed3 v.y]

/-- A block of vertices. -/
def blockLines (primitive : Primitive) (vertices : List Ndc) : List String :=
  callLine "glBegin" [primitive.constant] :: (vertices.map vertexLine ++ [callLine "glEnd" []])

/-- A pass: its color, its pen if it has one, and its block. -/
def passLines (p : Pass) : List String :=
  colorLine p.color :: (p.pen.toList.map penLine ++ blockLines p.primitive p.vertices)

/-! ## Items -/

/-- A part of a body. -/
inductive Item where
  | comment (text : String)
  | blank
  | pass (p : Pass)
deriving DecidableEq, Repr

/-- The lines of an item. -/
def Item.lines : Item → List String
  | comment text => [commentLine text]
  | blank => [""]
  | pass p => passLines p

/-- Lines as a text: each is followed by a line end. -/
def unlines (lines : List String) : String := String.join (lines.map (· ++ "\n"))

/-- The text of a body. -/
def bodyText (items : List Item) : String := unlines (items.flatMap Item.lines)

end GlutSketch.Program
