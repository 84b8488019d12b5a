import GlutSketch.Drawing.Tessellation
import GlutSketch.Proofs.Numeric.Whole

/-!
# GlutSketch.Proofs.Drawing.Finite

Which shapes are drawn with finite numbers.  The points of a shape stay finite
in normalized coordinates, and so do its colors and the width of its lines.
What is computed from several points may overflow: the rim of a circle, an
ellipse or an arc, and a Bezier curve; and so may the size of a point, which is
twice the width of the stroke.

* `Point.isFinite_normalize_iff` -- normalized coordinates.
* `Outline.DrawsFinite` -- nothing that is computed and drawn overflows.
* `Shape.isFinite_passes_iff` -- the passes of a shape with finite numbers.
-/

namespace GlutSketch

open Real64

/-! ## Finite parts -/

/-- Both coordinates are finite. -/
def Point.IsFinite (p : Point) : Prop := p.x.isFinite ∧ p.y.isFinite

/-- Both coordinates are finite. -/
def Ndc.IsFinite (v : Ndc) : Prop := v.x.isFinite ∧ v.y.isFinite

/-- The width of lines or the size of points. -/
def Pen.size : Pen → Float
  | .lineWidth width => width
  | .pointSize size => size

/-- The color, the pen and the vertices of a pass are finite. -/
structure Pass.IsFinite (p : Pass) : Prop where
  color : p.color.red.isFinite ∧ p.color.green.isFinite ∧ p.color.blue.isFinite
  pen : ∀ pen ∈ p.pen, pen.size.isFinite
  vertices : ∀ v ∈ p.vertices, v.IsFinite

/-- A byte as a fraction is finite, so every color is. -/
theorem Color.isFinite_channel (b : UInt8) : (Color.channel b).isFinite := by
  have hbyte := @ulpLe_ofNat b.toNat 7 (Unpacked.log2_le_of_lt b.toNat_lt) (by decide)
  have hdivisor : TwoPowLe 7 255 := by decide +kernel
  exact (UlpLe.div (l := 11) hbyte hdivisor (by decide) (by decide) (by decide)).isFinite

/-! ## Normalized coordinates -/

section Normalize

variable {x size : Float}

/-- Half of a coordinate over the size of a surface. -/
theorem ulpLe_div_mul_two (hsize : TwoPowLe 9 size) (hx : x.isFinite) :
    UlpLe 966 (x / size * 2) := by
  have htwo : UlpLe (-51) 2 := by decide +kernel
  have hquotient : UlpLe 963 (x / size) :=
    (isFinite_iff_ulpLe.1 hx).div hsize (by decide) (by decide) (by decide)
  exact hquotient.mul htwo (by decide) (by decide) (by decide)

theorem ulpLe_one : UlpLe 966 1 := by decide +kernel

/-- The horizontal coordinate stays finite exactly if it is finite. -/
theorem isFinite_div_mul_two_sub_one_iff (hsize : TwoPowLe 9 size) :
    (x / size * 2 - 1).isFinite ↔ x.isFinite := by
  constructor
  · intro h
    exact isFinite_of_div (isFinite_of_mul (isFinite_of_sub h).1).1
  · intro hx
    have hdifference : UlpLe 968 (x / size * 2 - 1) :=
      (ulpLe_div_mul_two hsize hx).sub ulpLe_one (by decide) (by decide) (by decide)
    exact hdifference.isFinite

/-- The vertical coordinate as well, although it is turned around. -/
theorem isFinite_one_sub_div_mul_two_iff (hsize : TwoPowLe 9 size) :
    (1 - x / size * 2).isFinite ↔ x.isFinite := by
  constructor
  · intro h
    exact isFinite_of_div (isFinite_of_mul (isFinite_of_sub h).2).1
  · intro hx
    have hdifference : UlpLe 968 (1 - x / size * 2) :=
      ulpLe_one.sub (ulpLe_div_mul_two hsize hx) (by decide) (by decide) (by decide)
    exact hdifference.isFinite

end Normalize

/-- On a surface of at least 512 pixels each way, normalized coordinates are
finite exactly if the pixels are. -/
theorem Point.isFinite_normalize_iff {p : Point} {e : Extent} (hwidth : TwoPowLe 9 e.width)
    (hheight : TwoPowLe 9 e.height) : (p.normalize e).IsFinite ↔ p.IsFinite :=
  and_congr (isFinite_div_mul_two_sub_one_iff hwidth) (isFinite_one_sub_div_mul_two_iff hheight)

/-- The drawing surface is large enough to keep every finite point finite. -/
theorem Point.isFinite_toNdc {p : Point} (h : p.IsFinite) : p.toNdc.IsFinite := by
  have hwidth : TwoPowLe 9 Extent.drawing.width := by decide +kernel
  have hheight : TwoPowLe 9 Extent.drawing.height := by decide +kernel
  exact (isFinite_normalize_iff hwidth hheight).2 h

/-! ## Outlines -/

namespace Outline

/-- The points of a shape that its outline goes through are finite. -/
def HasFinitePoints : Outline → Prop
  | area _ corners => ∀ v ∈ corners, v.IsFinite
  | sector center _ _ => center.IsFinite
  | path _ => True
  | segment a b => a.IsFinite ∧ b.IsFinite
  | dots vertices => ∀ v ∈ vertices, v.IsFinite

/-- What is computed for an outline is finite where the style draws it. -/
def DrawsFinite (s : Style) : Outline → Prop
  | area .. => True
  | sector _ _ rim => s.filled ∨ 0 < s.strokeWidth → ∀ v ∈ rim, v.IsFinite
  | path vertices => 0 < s.strokeWidth → ∀ v ∈ vertices, v.IsFinite
  | segment .. => True
  | dots _ => (maximum (s.strokeWidth * 2) minPointSize).isFinite

end Outline

section Passes

variable {s : Style} {vertices : List Ndc}

/-- A pass in the color of the stroke. -/
theorem Style.isFinite_drawnPass_iff {primitive : Primitive} {pen : Pen} :
    (s.drawnPass primitive pen vertices).IsFinite ↔
      pen.size.isFinite ∧ ∀ v ∈ vertices, v.IsFinite := by
  constructor
  · intro h
    exact ⟨h.pen pen rfl, h.vertices⟩
  · rintro ⟨hpen, hvertices⟩
    refine ⟨⟨Color.isFinite_channel _, Color.isFinite_channel _, Color.isFinite_channel _⟩, ?_,
      hvertices⟩
    intro pen' hpen'
    cases hpen'
    exact hpen

/-- A fill is finite if its vertices are, and so is a fill that is left out. -/
theorem Style.isFinite_fillPass_iff {primitive : Primitive} :
    (∀ p ∈ (s.fillPass primitive vertices).toList, p.IsFinite) ↔
      (s.filled → ∀ v ∈ vertices, v.IsFinite) := by
  unfold fillPass
  split
  · rename_i hfilled
    rw [Option.toList_some, List.forall_mem_singleton, forall_prop_of_true hfilled]
    constructor
    · intro h
      exact h.vertices
    · intro hvertices
      exact ⟨⟨Color.isFinite_channel _, Color.isFinite_channel _, Color.isFinite_channel _⟩,
        by simp, hvertices⟩
  · rename_i hfilled
    simp [hfilled]

/-- A stroke is finite unless it is drawn and one of its points is not. -/
theorem Style.isFinite_strokePass_iff (hwidth : s.strokeWidth.isFinite) {primitive : Primitive} :
    (∀ p ∈ (s.strokePass primitive vertices).toList, p.IsFinite) ↔
      (0 < s.strokeWidth → ∀ v ∈ vertices, v.IsFinite) := by
  unfold strokePass
  split
  · rename_i hstroke
    rw [Option.toList_some, List.forall_mem_singleton, forall_prop_of_true hstroke,
      isFinite_drawnPass_iff]
    exact and_iff_right hwidth
  · rename_i hstroke
    simp [hstroke]

/-- The passes of an outline through finite points. -/
theorem Outline.isFinite_passes_iff (hwidth : s.strokeWidth.isFinite) {o : Outline}
    (hpoints : o.HasFinitePoints) :
    (∀ p ∈ (o.tessellate s).passes, p.IsFinite) ↔ o.DrawsFinite s := by
  have hone : minLineWidth.isFinite := by decide +kernel
  rw [Tessellation.passes, List.forall_mem_append]
  cases o with
  | area inside corners =>
      refine iff_of_true ⟨?_, ?_⟩ trivial
      · exact Style.isFinite_fillPass_iff.2 fun _ => hpoints
      · exact (Style.isFinite_strokePass_iff hwidth).2 fun _ => hpoints
  | sector center edge rim =>
      have hcenter : center.IsFinite := hpoints
      have hfill : (s.filled → ∀ v ∈ center :: rim, v.IsFinite) ↔
          (s.filled → ∀ v ∈ rim, v.IsFinite) := by
        rw [List.forall_mem_cons, and_iff_right hcenter]
      rw [DrawsFinite, or_imp, ← hfill]
      exact and_congr Style.isFinite_fillPass_iff (Style.isFinite_strokePass_iff hwidth)
  | path vertices =>
      exact (and_iff_right (by simp [tessellate])).trans (Style.isFinite_strokePass_iff hwidth)
  | segment a b =>
      have hends : ∀ v ∈ [a, b], v.IsFinite := by simpa [HasFinitePoints] using hpoints
      refine iff_of_true ⟨by simp [tessellate], ?_⟩ trivial
      rw [tessellate, Option.toList_some, List.forall_mem_singleton]
      exact Style.isFinite_drawnPass_iff.2 ⟨isFinite_maximum hwidth hone, hends⟩
  | dots vertices =>
      rw [and_iff_right (by simp [tessellate]), tessellate, Option.toList_some,
        List.forall_mem_singleton, Style.isFinite_drawnPass_iff]
      exact and_iff_left hpoints

end Passes

/-! ## Shapes -/

theorem Figure.hasFinitePoints_of_outline? {f : Figure} {points : List Point} {o : Outline}
    (hpoints : ∀ p ∈ points, p.IsFinite) (h : f.outline? points = some o) :
    o.HasFinitePoints := by
  have hcorners : ∀ v ∈ points.map Point.toNdc, v.IsFinite :=
    List.forall_mem_map.2 fun p hp => Point.isFinite_toNdc (hpoints p hp)
  unfold outline? at h
  split at h
  · cases h
    simp only [List.map_cons, List.forall_mem_cons, Ndc.IsFinite] at hcorners
    simp [Outline.HasFinitePoints, rectangleCorners, Ndc.IsFinite, hcorners]
  · cases h
    exact hcorners _ List.mem_cons_self
  · cases h
    exact hcorners _ List.mem_cons_self
  · cases h
    exact ⟨hcorners _ List.mem_cons_self, hcorners _ (by simp)⟩
  · cases h
    exact hcorners
  · cases h
    trivial
  · cases h
    trivial
  all_goals first | (cases h; exact hcorners) | cases h

/-- The outline of a geometry with finite points has finite points. -/
theorem Geometry.hasFinitePoints_of_outline? {g : Geometry} {o : Outline}
    (hpoints : ∀ p ∈ g.points, p.IsFinite) (h : g.outline? = some o) : o.HasFinitePoints := by
  unfold outline? at h
  split at h
  · exact Figure.hasFinitePoints_of_outline? hpoints h
  · cases h
    exact Point.isFinite_toNdc (hpoints _ List.mem_cons_self)
  · cases h

/-- Nothing that is computed and drawn for a shape overflows. -/
def Shape.DrawsFinite (s : Shape) : Prop := ∀ o ∈ s.geometry.outline?, o.DrawsFinite s.style

/-- **Finite shapes**: a shape with finite points and a finite stroke has finite
passes exactly if nothing that is drawn of it overflows. -/
theorem Shape.isFinite_passes_iff {s : Shape} (hpoints : ∀ p ∈ s.geometry.points, p.IsFinite)
    (hwidth : s.style.strokeWidth.isFinite) :
    (∀ t, s.tessellate = .ok t → ∀ p ∈ t.passes, p.IsFinite) ↔ s.DrawsFinite := by
  unfold tessellate DrawsFinite
  cases houtline : s.geometry.outline? with
  | none => simp
  | some o =>
      have hfinite := Geometry.hasFinitePoints_of_outline? hpoints houtline
      simp [← Outline.isFinite_passes_iff hwidth hfinite]

/-- A figure whose vertices are its own points is always drawn with finite
numbers. -/
theorem Shape.drawsFinite_of_points {f : Figure} {points : List Point} {style : Style}
    (hpoints : ∀ p ∈ points, p.IsFinite) (hf : f ∉ [.circle, .ellipse, .bezier, .point]) :
    (⟨.figure f points, style⟩ : Shape).DrawsFinite := by
  have hcorners : ∀ v ∈ points.map Point.toNdc, v.IsFinite :=
    List.forall_mem_map.2 fun p hp => Point.isFinite_toNdc (hpoints p hp)
  intro o ho
  change f.outline? points = some o at ho
  unfold Figure.outline? at ho
  split at ho
  all_goals first | (simp at hf; done) | skip
  · cases ho
    trivial
  · cases ho
    trivial
  · cases ho
    trivial
  · cases ho
    exact fun _ => hcorners
  all_goals first | (cases ho; trivial) | cases ho

end GlutSketch
