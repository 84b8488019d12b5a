import GlutSketch.Scene

/-!
# GlutSketch.Proofs.Scene.Numbers

The doubles of a scene.  `numbers` lists them, and `mapNumbers?` replaces each
of them by the result of a function, which may fail; everything else stays as it
is.

* `Scene.mapNumbers?_eq_some_self_iff` -- nothing changes exactly if no number
  changes.
-/

namespace GlutSketch

/-! ## Lists -/

section Lists

variable {α β : Type}

/-- Every element of a list has an image if the list has one. -/
theorem exists_of_mapM_eq_some {f : α → Option β} {as : List α} {bs : List β}
    (h : as.mapM f = some bs) : ∀ a ∈ as, ∃ b, f a = some b := by
  induction as generalizing bs with
  | nil =>
      intro a ha
      cases ha
  | cons a as ih =>
      rw [List.mapM_cons] at h
      obtain ⟨b, hb, h⟩ := Option.bind_eq_some_iff.1 h
      obtain ⟨bs', hbs, -⟩ := Option.bind_eq_some_iff.1 h
      intro a' ha'
      cases List.mem_cons.1 ha' with
      | inl heq => exact ⟨b, by rw [heq]; exact hb⟩
      | inr hmem => exact ih hbs a' hmem

/-- A list stays as it is exactly if every element does. -/
theorem mapM_eq_some_self_iff {f : α → Option α} {as : List α} :
    as.mapM f = some as ↔ ∀ a ∈ as, f a = some a := by
  induction as with
  | nil => simp
  | cons a as ih =>
      rw [List.mapM_cons, List.forall_mem_cons, ← ih]
      constructor
      · intro h
        obtain ⟨b, hb, h⟩ := Option.bind_eq_some_iff.1 h
        obtain ⟨bs, hbs, h⟩ := Option.bind_eq_some_iff.1 h
        cases h
        exact ⟨hb, hbs⟩
      · intro ⟨ha, has⟩
        rw [ha, has]
        rfl

/-- The same where an element stays as it is exactly if its parts do. -/
theorem mapM_eq_some_self_iff_flatMap {f : α → Option α} {parts : α → List β} {g : β → Option β}
    (h : ∀ a, f a = some a ↔ ∀ b ∈ parts a, g b = some b) {as : List α} :
    as.mapM f = some as ↔ ∀ b ∈ as.flatMap parts, g b = some b := by
  rw [mapM_eq_some_self_iff]
  simp only [h, List.mem_flatMap]
  exact ⟨fun hall b ⟨a, ha, hb⟩ => hall a ha b hb, fun hall a ha b hb => hall b ⟨a, ha, hb⟩⟩

end Lists

/-! ## The numbers of a scene -/

/-- Both coordinates. -/
def Point.numbers (p : Point) : List Float := [p.x, p.y]

/-- The width of the stroke. -/
def Style.numbers (s : Style) : List Float := [s.strokeWidth]

/-- The coordinates of the points, and the angles of an arc. -/
def Geometry.numbers : Geometry → List Float
  | figure _ points => points.flatMap Point.numbers
  | arc points startAngle endAngle => points.flatMap Point.numbers ++ [startAngle, endAngle]

/-- Those of the geometry and of the style. -/
def Shape.numbers (s : Shape) : List Float := s.geometry.numbers ++ s.style.numbers

/-- The four edges. -/
def Viewport.numbers (v : Viewport) : List Float := [v.xMin, v.xMax, v.yMin, v.yMax]

/-- Those of the shapes and of the window; a function has none. -/
def Scene.numbers (s : Scene) : List Float := s.shapes.flatMap Shape.numbers ++ s.viewport.numbers

/-! ## Replacing the numbers -/

variable (f : Float → Option Float)

/-- Replaces both coordinates. -/
def Point.mapNumbers? (p : Point) : Option Point := do
  return ⟨← f p.x, ← f p.y⟩

/-- Replaces the width of the stroke. -/
def Style.mapNumbers? (s : Style) : Option Style := do
  return { s with strokeWidth := ← f s.strokeWidth }

/-- Replaces the coordinates of the points, and the angles of an arc. -/
def Geometry.mapNumbers? : Geometry → Option Geometry
  | figure k points => do return figure k (← points.mapM (Point.mapNumbers? f))
  | arc points startAngle endAngle => do
      return arc (← points.mapM (Point.mapNumbers? f)) (← f startAngle) (← f endAngle)

/-- Replaces the numbers of the geometry and of the style. -/
def Shape.mapNumbers? (s : Shape) : Option Shape := do
  return ⟨← s.geometry.mapNumbers? f, ← s.style.mapNumbers? f⟩

/-- Replaces the four edges. -/
def Viewport.mapNumbers? (v : Viewport) : Option Viewport := do
  return ⟨← f v.xMin, ← f v.xMax, ← f v.yMin, ← f v.yMax⟩

/-- Replaces the numbers of the shapes and of the window. -/
def Scene.mapNumbers? (s : Scene) : Option Scene := do
  return ⟨← s.shapes.mapM (Shape.mapNumbers? f), s.functions, ← s.viewport.mapNumbers? f⟩

/-! ## Nothing changes -/

variable {f}

theorem Point.mapNumbers?_eq_some_self_iff {p : Point} :
    p.mapNumbers? f = some p ↔ ∀ x ∈ p.numbers, f x = some x := by
  obtain ⟨x, y⟩ := p
  simp only [mapNumbers?, numbers]
  cases hx : f x <;> cases hy : f y <;> simp [hx, hy]

theorem Style.mapNumbers?_eq_some_self_iff {s : Style} :
    s.mapNumbers? f = some s ↔ ∀ x ∈ s.numbers, f x = some x := by
  obtain ⟨strokeColor, fillColor, strokeWidth, filled⟩ := s
  simp only [mapNumbers?, numbers]
  cases hw : f strokeWidth <;> simp [hw]

/-- A list of points is unchanged exactly if each of its numbers is. -/
theorem mapM_points_eq_some_self_iff {points : List Point} :
    points.mapM (Point.mapNumbers? f) = some points ↔
      ∀ x ∈ points.flatMap Point.numbers, f x = some x :=
  mapM_eq_some_self_iff_flatMap (g := f) fun _ => Point.mapNumbers?_eq_some_self_iff

theorem Geometry.mapNumbers?_eq_some_self_iff {g : Geometry} :
    g.mapNumbers? f = some g ↔ ∀ x ∈ g.numbers, f x = some x := by
  cases g with
  | figure k points =>
      rw [numbers, ← mapM_points_eq_some_self_iff, mapNumbers?]
      cases hpoints : points.mapM (Point.mapNumbers? f) <;> simp
  | arc points startAngle endAngle =>
      rw [numbers, List.forall_mem_append, ← mapM_points_eq_some_self_iff, mapNumbers?]
      cases hpoints : points.mapM (Point.mapNumbers? f) <;> cases hstart : f startAngle <;>
        cases hend : f endAngle <;> simp [hstart, hend]

theorem Shape.mapNumbers?_eq_some_self_iff {s : Shape} :
    s.mapNumbers? f = some s ↔ ∀ x ∈ s.numbers, f x = some x := by
  obtain ⟨geometry, style⟩ := s
  rw [numbers, List.forall_mem_append, ← Geometry.mapNumbers?_eq_some_self_iff,
    ← Style.mapNumbers?_eq_some_self_iff, mapNumbers?]
  cases geometry.mapNumbers? f <;> cases style.mapNumbers? f <;> simp

theorem Viewport.mapNumbers?_eq_some_self_iff {v : Viewport} :
    v.mapNumbers? f = some v ↔ ∀ x ∈ v.numbers, f x = some x := by
  obtain ⟨xMin, xMax, yMin, yMax⟩ := v
  simp only [mapNumbers?, numbers]
  cases h₁ : f xMin <;> cases h₂ : f xMax <;> cases h₃ : f yMin <;> cases h₄ : f yMax <;>
    simp [h₁, h₂, h₃, h₄]

/-- A scene stays as it is exactly if each of its numbers does. -/
theorem Scene.mapNumbers?_eq_some_self_iff {s : Scene} :
    s.mapNumbers? f = some s ↔ ∀ x ∈ s.numbers, f x = some x := by
  obtain ⟨shapes, functions, viewport⟩ := s
  have hshapes : shapes.mapM (Shape.mapNumbers? f) = some shapes ↔
      ∀ x ∈ shapes.flatMap Shape.numbers, f x = some x :=
    mapM_eq_some_self_iff_flatMap (g := f) fun _ => Shape.mapNumbers?_eq_some_self_iff
  rw [numbers, List.forall_mem_append, ← hshapes, ← Viewport.mapNumbers?_eq_some_self_iff,
    mapNumbers?]
  cases shapes.mapM (Shape.mapNumbers? f) <;> cases viewport.mapNumbers? f <;> simp

end GlutSketch
