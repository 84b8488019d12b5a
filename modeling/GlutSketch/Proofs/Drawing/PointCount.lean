import GlutSketch.Drawing.Tessellation

/-!
# GlutSketch.Proofs.Drawing.PointCount

A shape is drawn exactly if its kind accepts the number of its points.  What
each figure needs stands in a table of its own (`Figure.requiredPoints`), apart
from the patterns of points that have an outline; the two agree.

* `Geometry.outline?_eq_none_iff` -- the table against the patterns.
* `Shape.tessellate_of_hasPoints`, `Shape.tessellate_of_not_hasPoints` -- both
  outcomes.
-/

namespace GlutSketch

/-- A figure has no outline exactly if it does not accept the number of
points. -/
theorem Figure.outline?_eq_none_iff {f : Figure} {points : List Point} :
    f.outline? points = none ↔ ¬ f.requiredPoints.Accepts points.length := by
  match points with
  | [] | [_] | [_, _] | [_, _, _] | [_, _, _, _] | _ :: _ :: _ :: _ :: _ :: _ =>
      cases f <;> simp [outline?, requiredPoints, PointCount.Accepts]

/-- The same for a geometry with the points that it holds. -/
theorem Geometry.outline?_eq_none_iff {g : Geometry} :
    g.outline? = none ↔ ¬ g.kind.requiredPoints.Accepts g.points.length := by
  cases g with
  | figure f points => exact Figure.outline?_eq_none_iff
  | arc points startAngle endAngle =>
      match points with
      | [] | [_] | [_, _] | _ :: _ :: _ :: _ =>
          simp [outline?, kind, Geometry.points, ShapeKind.requiredPoints, PointCount.Accepts]

theorem Geometry.exists_outline? {g : Geometry}
    (h : g.kind.requiredPoints.Accepts g.points.length) : ∃ o, g.outline? = some o :=
  Option.ne_none_iff_exists'.1 fun hnone => outline?_eq_none_iff.1 hnone h

namespace Shape

/-- The kind of the shape accepts the number of its points. -/
def HasPoints (s : Shape) : Prop := s.kind.requiredPoints.Accepts s.geometry.points.length

instance (s : Shape) : Decidable s.HasPoints :=
  inferInstanceAs (Decidable (PointCount.Accepts _ _))

/-- A shape with the right number of points is always drawn. -/
theorem tessellate_of_hasPoints {s : Shape} (h : s.HasPoints) : ∃ t, s.tessellate = .ok t := by
  obtain ⟨o, houtline⟩ := Geometry.exists_outline? h
  exact ⟨_, by rw [tessellate, houtline]⟩

/-- Any other shape is refused by its kind and the number of its points. -/
theorem tessellate_of_not_hasPoints {s : Shape} (h : ¬ s.HasPoints) :
    s.tessellate = .error ⟨s.kind, s.geometry.points.length⟩ := by
  rw [tessellate, Geometry.outline?_eq_none_iff.2 h]

end Shape

end GlutSketch
