import GlutSketch.Drawing.Point

/-!
# GlutSketch.Drawing.Arc

Circles and arcs as lists of angles.  An arc runs from one angle to another in
equal steps of at most a degree.  How far it runs and in how many steps is
stated for any kind of angle (`AngleScale`), so that it can be read exactly as
well as on doubles.
-/

namespace GlutSketch

/-! ## Steps of an arc -/

/-- What an arc needs to know of a kind of angle. -/
structure AngleScale (α : Type) where
  /-- A full turn. -/
  turn : α
  /-- The remainder of an angle on division by a full turn, not negative. -/
  wrap : α → α
  /-- An angle in degrees. -/
  degrees : α → α
  /-- How many degrees an arc may exceed a whole number of steps by. -/
  tolerance : α
  /-- The least natural number that is not below a number. -/
  ceil : α → Nat
  /-- A natural number. -/
  ofNat : Nat → α

namespace AngleScale

variable {α : Type} [Add α] [Sub α] [Mul α] [Div α] [LE α] [DecidableLE α]

/-- How far an arc turns: once around at most, and forward from the start if the
end is before it. -/
def sweep (S : AngleScale α) (start stop : α) : α :=
  if S.turn ≤ stop - start then S.turn else S.wrap (stop - start)

/-- The number of steps of an arc: a step for each degree begun, and one at
least. -/
def steps (S : AngleScale α) (sweep : α) : Nat := max (S.ceil (S.degrees sweep - S.tolerance)) 1

/-- The angles of an arc, both ends included. -/
def angles (S : AngleScale α) (start stop : α) : List α :=
  let sweep := S.sweep start stop
  let steps := S.steps sweep
  (List.range (steps + 1)).map fun i => start + sweep * S.ofNat i / S.ofNat steps

end AngleScale

/-- Angles in radians, as doubles. -/
def AngleScale.radians : AngleScale Float where
  turn := Real64.tau
  wrap angle := Real64.remainderEuclid angle Real64.tau
  degrees angle := angle * (180 / Real64.pi)
  tolerance := 1e-9
  ceil := Real64.ceilNat
  ofNat := Float.ofNat

/-! ## Rims -/

/-- The points of an arc around `center`.  Its angles are clockwise on a
surface, where `y` points down. -/
def arcRim (center : Ndc) (radius startAngle endAngle : Float) : List Ndc :=
  (AngleScale.radians.angles startAngle endAngle).map fun angle =>
    ⟨center.x + angle.cos * radius, center.y - angle.sin * radius⟩

/-- The points of an ellipse around `center`, a degree apart and the first one
twice. -/
def ellipseRim (center : Ndc) (rx ry : Float) : List Ndc :=
  (List.range 361).map fun degree =>
    let angle := Float.ofNat degree * (Real64.pi / 180)
    ⟨center.x + angle.cos * rx, center.y + angle.sin * ry⟩

end GlutSketch
