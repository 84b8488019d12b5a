import GlutSketch.Proofs.Drawing.PointCount

/-!
# GlutSketch.Proofs.Drawing.Passes

One law for the passes of all kinds of shape.  A geometry with the right number
of points has an outline, a list of vertices that depends on nothing else; a
style says which passes show it and in which color and with which pen.

* `Geometry.HasRim` -- the vertices of the outline, kind by kind.
* `Tessellation.Shows` -- the law: which passes there are, and what they look
  like.
* `Geometry.tessellate_law` -- a shape with the right number of points follows
  it, and any other is refused.
-/

namespace GlutSketch

/-! ## Kinds by how they are drawn -/

namespace ShapeKind

/-- The kinds without an inside. -/
def openKinds : List ShapeKind :=
  [.figure .line, .figure .point, .figure .freehand, .figure .bezier]

/-- The kinds that are filled through the vertices of their outline. -/
def cornerKinds : List ShapeKind :=
  [.figure .rectangle, .figure .triangle, .figure .polygon, .figure .star, .figure .pentagon,
    .figure .hexagon]

/-- The kinds that are filled as a fan around their center. -/
def fanKinds : List ShapeKind := [.figure .circle, .figure .ellipse, .arc]

/-- The kinds that are drawn whatever the width of the stroke is. -/
def solidKinds : List ShapeKind := [.figure .line, .figure .point]

/-- How the vertices of a fill are joined. -/
def fillPrimitive : ShapeKind → Primitive
  | .figure .rectangle => .quads
  | .figure .circle | .figure .ellipse | .arc => .triangleFan
  | _ => .polygon

/-- How the vertices of a stroke are joined. -/
def strokePrimitive : ShapeKind → Primitive
  | .figure .line => .lines
  | .figure .point => .points
  | .figure .freehand | .figure .bezier | .arc => .lineStrip
  | _ => .lineLoop

/-- The pen of a stroke: lines and points have a least width and a least
size. -/
def pen (width : Float) : ShapeKind → Pen
  | .figure .line => .lineWidth (Real64.maximum width 1)
  | .figure .point => .pointSize (Real64.maximum (width * 2) 5)
  | _ => .lineWidth width

end ShapeKind

/-! ## The law -/

/-- The vertices of the outline of a geometry, kind by kind. -/
def Geometry.HasRim (g : Geometry) (rim : List Ndc) : Prop :=
  match g.kind with
  | .figure .rectangle => ∃ a b : Point, g.points = [a, b] ∧
      rim = [⟨a.toNdc.x, a.toNdc.y⟩, ⟨b.toNdc.x, a.toNdc.y⟩, ⟨b.toNdc.x, b.toNdc.y⟩,
        ⟨a.toNdc.x, b.toNdc.y⟩]
  | .figure .circle | .figure .ellipse => rim.length = 361
  | .figure .line => rim = (g.points.take 2).map Point.toNdc
  | .figure .bezier => rim.length = 101
  | .arc => 2 ≤ rim.length
  | _ => rim = g.points.map Point.toNdc

/-- The passes of a geometry with an outline in a style. -/
structure Tessellation.Shows (g : Geometry) (rim : List Ndc) (style : Style) (t : Tessellation) :
    Prop where
  fill : t.fill.isSome ↔ style.filled ∧ g.kind ∉ ShapeKind.openKinds
  stroke : t.stroke.isSome ↔ 0 < style.strokeWidth ∨ g.kind ∈ ShapeKind.solidKinds
  fillPrimitive : ∀ p ∈ t.fill, p.primitive = g.kind.fillPrimitive
  fillColor : ∀ p ∈ t.fill, p.color = (Color.ofText style.fillColor).channels
  fillPen : ∀ p ∈ t.fill, p.pen = none
  strokePrimitive : ∀ p ∈ t.stroke, p.primitive = g.kind.strokePrimitive
  strokeColor : ∀ p ∈ t.stroke, p.color = (Color.ofText style.strokeColor).channels
  strokePen : ∀ p ∈ t.stroke, p.pen = some (g.kind.pen style.strokeWidth)
  strokeVertices : ∀ p ∈ t.stroke, p.vertices = rim
  cornerVertices : g.kind ∈ ShapeKind.cornerKinds → ∀ p ∈ t.fill, p.vertices = rim
  fanVertices : g.kind ∈ ShapeKind.fanKinds →
    ∀ p ∈ t.fill, p.vertices = (g.points.take 1).map Point.toNdc ++ rim

/-! ## Kinds in groups -/

namespace ShapeKind

variable {k : ShapeKind}

/-- A kind that is filled, and stroked with the width of the style. -/
structure IsPlain (k : ShapeKind) : Prop where
  notOpen : k ∉ openKinds
  notSolid : k ∉ solidKinds
  pen : ∀ width, k.pen width = .lineWidth width

/-- The shapes with corners are closed loops and fill no fan. -/
theorem of_mem_cornerKinds (h : k ∈ cornerKinds) :
    k.IsPlain ∧ k ∉ fanKinds ∧ k.strokePrimitive = .lineLoop := by
  simp only [cornerKinds, List.mem_cons, List.not_mem_nil, or_false] at h
  obtain rfl | rfl | rfl | rfl | rfl | rfl := h <;>
    exact ⟨⟨by decide, by decide, fun _ => rfl⟩, by decide, rfl⟩

/-- The round shapes are filled as a fan. -/
theorem of_mem_fanKinds (h : k ∈ fanKinds) :
    k.IsPlain ∧ k ∉ cornerKinds ∧ k.fillPrimitive = .triangleFan := by
  simp only [fanKinds, List.mem_cons, List.not_mem_nil, or_false] at h
  obtain rfl | rfl | rfl := h <;>
    exact ⟨⟨by decide, by decide, fun _ => rfl⟩, by decide, rfl⟩

end ShapeKind

/-! ## The passes of a style -/

namespace Style

variable {s : Style} {primitive : Primitive} {vertices : List Ndc} {p : Pass}

/-- A shape is filled exactly if its style says so. -/
theorem isSome_fillPass : (s.fillPass primitive vertices).isSome = s.filled := by
  cases h : s.filled <;> simp [fillPass, h]

/-- A shape is outlined exactly if its stroke has a width. -/
theorem isSome_strokePass : (s.strokePass primitive vertices).isSome ↔ 0 < s.strokeWidth := by
  by_cases h : 0 < s.strokeWidth <;> simp [strokePass, h]

theorem fillPass_eq_some_iff : s.fillPass primitive vertices = some p ↔
    s.filled ∧ p = ⟨primitive, (Color.ofText s.fillColor).channels, none, vertices⟩ := by
  cases h : s.filled <;> simp [fillPass, h, eq_comm]

theorem strokePass_eq_some_iff : s.strokePass primitive vertices = some p ↔
    0 < s.strokeWidth ∧ p = s.drawnPass primitive (.lineWidth s.strokeWidth) vertices := by
  by_cases h : 0 < s.strokeWidth <;> simp [strokePass, h, eq_comm]

end Style

/-! ## Outlines -/

namespace Outline

/-- The vertices of an outline. -/
def rim : Outline → List Ndc
  | area _ corners => corners
  | sector _ _ rim => rim
  | path vertices => vertices
  | segment a b => [a, b]
  | dots vertices => vertices

/-- The form of an outline is the one of the kind. -/
def Suits (g : Geometry) : Outline → Prop
  | area inside _ => g.kind ∈ ShapeKind.cornerKinds ∧ inside = g.kind.fillPrimitive
  | sector center edge _ => g.kind ∈ ShapeKind.fanKinds ∧ edge = g.kind.strokePrimitive ∧
      (g.points.take 1).map Point.toNdc = [center]
  | path _ => g.kind = .figure .freehand ∨ g.kind = .figure .bezier
  | segment _ _ => g.kind = .figure .line
  | dots _ => g.kind = .figure .point

/-- Beyond its form, nothing of an outline matters for the law. -/
theorem Suits.shows {g : Geometry} {o : Outline} (h : o.Suits g) (style : Style) :
    (o.tessellate style).Shows g o.rim style := by
  cases o with
  | area inside corners =>
      obtain ⟨hkind, rfl⟩ := h
      obtain ⟨⟨hopen, hsolid, hpen⟩, hfan, hloop⟩ := ShapeKind.of_mem_cornerKinds hkind
      constructor <;> simp +contextual [tessellate, rim, Style.isSome_fillPass,
        Style.isSome_strokePass, Style.fillPass_eq_some_iff, Style.strokePass_eq_some_iff,
        Style.drawnPass, hopen, hsolid, hpen, hfan, hloop]
  | sector center edge vertices =>
      obtain ⟨hkind, rfl, hcenter⟩ := h
      obtain ⟨⟨hopen, hsolid, hpen⟩, hcorner, htriangles⟩ := ShapeKind.of_mem_fanKinds hkind
      constructor <;> simp +contextual [tessellate, rim, Style.isSome_fillPass,
        Style.isSome_strokePass, Style.fillPass_eq_some_iff, Style.strokePass_eq_some_iff,
        Style.drawnPass, hopen, hsolid, hpen, hcorner, htriangles, hcenter]
  | path vertices =>
      obtain h | h := h <;> constructor <;> simp +contextual [tessellate, rim,
        Style.isSome_strokePass, Style.strokePass_eq_some_iff, Style.drawnPass, h, ShapeKind.pen,
        ShapeKind.openKinds, ShapeKind.solidKinds, ShapeKind.strokePrimitive]
  | segment a b =>
      have hkind : g.kind = .figure .line := h
      constructor <;> simp [tessellate, rim, Style.drawnPass, hkind, ShapeKind.pen,
        ShapeKind.openKinds, ShapeKind.solidKinds, ShapeKind.strokePrimitive, minLineWidth]
  | dots vertices =>
      have hkind : g.kind = .figure .point := h
      constructor <;> simp [tessellate, rim, Style.drawnPass, hkind, ShapeKind.pen,
        ShapeKind.openKinds, ShapeKind.solidKinds, ShapeKind.strokePrimitive, minPointSize]

end Outline

/-! ## Geometries -/

/-- A full turn has a point for every degree, and its first point again. -/
theorem length_ellipseRim (center : Ndc) (rx ry : Float) :
    (ellipseRim center rx ry).length = 361 := by
  simp [ellipseRim]

/-- An arc has two ends. -/
theorem two_le_length_arcRim (center : Ndc) (radius startAngle endAngle : Float) :
    2 ≤ (arcRim center radius startAngle endAngle).length := by
  have hsteps : 1 ≤ AngleScale.radians.steps (AngleScale.radians.sweep startAngle endAngle) :=
    Nat.le_max_right ..
  simpa [arcRim, AngleScale.angles] using hsteps

/-- The outline of a geometry has the form and the vertices of its kind. -/
theorem Geometry.of_outline? {g : Geometry} {o : Outline} (h : g.outline? = some o) :
    o.Suits g ∧ g.HasRim o.rim := by
  unfold outline? at h
  split at h
  · -- one case for each pattern of points that has an outline
    unfold Figure.outline? at h
    split at h <;> cases h <;> refine ⟨by simp [Outline.Suits, kind, points, ShapeKind.cornerKinds,
      ShapeKind.fanKinds, ShapeKind.fillPrimitive, ShapeKind.strokePrimitive], ?_⟩
    case h_1 => exact ⟨_, _, rfl, rfl⟩
    case h_2 => exact length_ellipseRim ..
    case h_3 => exact length_ellipseRim ..
    case h_6 => simp [HasRim, kind, Outline.rim, bezierVertices, bezierSteps]
    all_goals rfl
  · cases h
    exact ⟨by simp [Outline.Suits, kind, points, ShapeKind.fanKinds, ShapeKind.strokePrimitive],
      two_le_length_arcRim ..⟩
  · cases h

/-- **Shapes**: a shape is refused exactly if its kind does not accept the
number of its points, and the error has the kind, what it requires, and the
number.  Any other shape is drawn: the vertices of its outline are those of its
geometry, and the passes that show them in a style follow the law. -/
theorem Geometry.tessellate_law (g : Geometry) :
    (∀ style e, (⟨g, style⟩ : Shape).tessellate = .error e ↔
      ¬ g.kind.requiredPoints.Accepts g.points.length ∧ e.kind = g.kind ∧
        e.required = g.kind.requiredPoints ∧ e.found = g.points.length) ∧
      (g.kind.requiredPoints.Accepts g.points.length →
        ∃ rim, g.HasRim rim ∧ ∀ style, ∃ t,
          (⟨g, style⟩ : Shape).tessellate = .ok t ∧ t.Shows g rim style) := by
  by_cases hcount : g.kind.requiredPoints.Accepts g.points.length
  · obtain ⟨o, houtline⟩ := exists_outline? hcount
    obtain ⟨hsuits, hrim⟩ := of_outline? houtline
    have hok : ∀ style, (⟨g, style⟩ : Shape).tessellate = .ok (o.tessellate style) := by
      simp [Shape.tessellate, houtline]
    refine ⟨fun style e => by simp [hok, hcount], fun _ => ⟨o.rim, hrim, fun style => ?_⟩⟩
    exact ⟨_, hok style, hsuits.shows style⟩
  · refine ⟨fun style e => ?_, fun h => absurd h hcount⟩
    have herror := @Shape.tessellate_of_not_hasPoints ⟨g, style⟩ hcount
    obtain ⟨kind, found⟩ := e
    simp only [herror, Shape.kind, PointCountError.required, Except.error.injEq,
      PointCountError.mk.injEq]
    grind

/-- A triangle that is filled and has no stroke, and one with a corner too
few. -/
theorem Geometry.tessellate_law_triangle :
    let style : Style := ⟨"#000000", "#FF0000", 0, true⟩
    (∃ t, (⟨.figure .triangle [⟨0, 0⟩, ⟨1200, 0⟩, ⟨600, 700⟩], style⟩ : Shape).tessellate = .ok t ∧
        t.stroke = none ∧ ∃ p ∈ t.fill, p.primitive = .polygon ∧ p.pen = none ∧
          p.vertices = [⟨-1, 1⟩, ⟨1, 1⟩, ⟨0, -1⟩]) ∧
      (⟨.figure .triangle [⟨0, 0⟩, ⟨1200, 0⟩], style⟩ : Shape).tessellate =
        .error ⟨.figure .triangle, 2⟩ := by
  intro style
  have hcorners : ([⟨0, 0⟩, ⟨1200, 0⟩, ⟨600, 700⟩] : List Point).map Point.toNdc =
      [⟨-1, 1⟩, ⟨1, 1⟩, ⟨0, -1⟩] := by decide +kernel
  have hwidth : ¬0 < style.strokeWidth := by decide +kernel
  constructor
  · obtain ⟨rim, hrim, hpasses⟩ :=
      (tessellate_law (.figure .triangle [⟨0, 0⟩, ⟨1200, 0⟩, ⟨600, 700⟩])).2 (by decide)
    obtain ⟨t, ht, hshows⟩ := hpasses style
    obtain ⟨p, hp⟩ := Option.isSome_iff_exists.1 (hshows.fill.2 ⟨rfl, by decide⟩)
    have hvertices := hshows.cornerVertices (by decide) p hp
    refine ⟨t, ht, ?_, p, hp, hshows.fillPrimitive p hp, hshows.fillPen p hp, ?_⟩
    · exact Option.not_isSome_iff_eq_none.1 fun h =>
        (hshows.stroke.1 h).elim hwidth (by decide)
    · rw [hvertices, ← hcorners]
      exact hrim
  · exact ((tessellate_law (.figure .triangle [⟨0, 0⟩, ⟨1200, 0⟩])).1 style _).2
      ⟨by decide, rfl, rfl, rfl⟩

end GlutSketch
