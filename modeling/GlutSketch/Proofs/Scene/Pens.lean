import GlutSketch.Proofs.Drawing.Passes
import GlutSketch.Proofs.Program.Pens
import GlutSketch.Proofs.Scene.Finite

/-!
# GlutSketch.Proofs.Scene.Pens

When every pen that the program of a scene sets is usable.  A stroke is drawn if
its width is greater than zero, but the width is written with one place, so a
narrow stroke sets a pen of size zero.  Lines and points have a least size, and
graphs a fixed one.

* `Shape.HasUsablePen` -- the widths that a kind of shape can be drawn with.
* `Scene.hasUsablePens_recompute_iff` -- the program of a scene.
-/

namespace GlutSketch

open Real64

/-! ## Least sizes -/

/-- A positive whole number is large enough for the size of a pen. -/
theorem lt_value_ofNat {n : ℕ} (hn : 0 < n) (hlt : n < 2 ^ 53) :
    1 / 20 < value (Float.ofNat n) := by
  have hone : (1 : ℚ) ≤ n := by exact_mod_cast hn
  rw [value_ofNat hn hlt]
  linarith

/-- A size with a least one can only overflow. -/
theorem lt_value_maximum {x y : Float} (hy : y.isFinite) (hleast : 1 / 20 < value y)
    (h : (maximum x y).isFinite) : 1 / 20 < value (maximum x y) := by
  unfold maximum at *
  split at h
  · rename_i hnan
    rwa [if_pos hnan]
  · rename_i hnan
    rw [if_neg hnan]
    split at h
    · rename_i hlt
      rwa [if_pos hlt]
    · rename_i hlt
      rw [if_neg hlt]
      exact hleast.trans_le (not_lt.1 (mt (lt_iff_value_lt h hy).2 hlt))

/-! ## Shapes -/

/-- The pen of a shape is usable, if the shape can be drawn: a line or a point
needs a size that does not overflow, and the other kinds need a width of more
than half of a tenth, if they have a stroke at all. -/
def Shape.HasUsablePen (s : Shape) : Prop :=
  s.kind.requiredPoints.Accepts s.geometry.points.length →
    match s.kind with
    | .figure .line => (maximum s.style.strokeWidth 1).isFinite
    | .figure .point => (maximum (s.style.strokeWidth * 2) 5).isFinite
    | _ => 0 < s.style.strokeWidth →
        s.style.strokeWidth.isFinite ∧ 1 / 20 < value s.style.strokeWidth

/-- The only pen of a shape is the one of its stroke. -/
theorem Shape.isUsable_passes_iff {s : Shape} :
    (∀ t, s.tessellate = .ok t → ∀ p ∈ t.passes, ∀ pen ∈ p.pen, pen.IsUsable) ↔
      (s.HasPoints → 0 < s.style.strokeWidth ∨ s.kind ∈ ShapeKind.solidKinds →
        (s.kind.pen s.style.strokeWidth).IsUsable) := by
  by_cases hcount : s.HasPoints
  · obtain ⟨o, houtline⟩ := Geometry.exists_outline? hcount
    have hshows := (Geometry.of_outline? houtline).1.shows s.style
    have hok : s.tessellate = .ok (o.tessellate s.style) := by rw [tessellate, houtline]
    rw [hok, imp_iff_right hcount]
    simp only [Except.ok.injEq, forall_eq', Tessellation.passes, List.mem_append,
      Option.mem_toList]
    constructor
    · intro h hstroke
      obtain ⟨p, hp⟩ := Option.isSome_iff_exists.1 (hshows.stroke.2 hstroke)
      exact h p (.inr hp) _ (hshows.strokePen p hp)
    · rintro h p (hp | hp) pen hpen
      · rw [hshows.fillPen p hp] at hpen
        cases hpen
      · rw [hshows.strokePen p hp] at hpen
        cases hpen
        exact h (hshows.stroke.1 (Option.isSome_of_mem hp))
  · exact iff_of_true (by simp [tessellate_of_not_hasPoints hcount]) fun h => absurd h hcount

/-- The pen of a shape matters only if the shape is drawn with it. -/
theorem Shape.hasUsablePen_iff {s : Shape} :
    s.HasUsablePen ↔ (s.HasPoints → 0 < s.style.strokeWidth ∨ s.kind ∈ ShapeKind.solidKinds →
        (s.kind.pen s.style.strokeWidth).IsUsable) := by
  unfold HasUsablePen
  refine imp_congr_right fun _ => ?_
  cases s.kind with
  | arc => simp [ShapeKind.solidKinds, ShapeKind.pen, Pen.IsUsable, Pen.size]
  | figure f =>
      cases f with
      | line =>
          have hwide := @lt_value_maximum s.style.strokeWidth 1 (by decide)
            (lt_value_ofNat one_pos (by decide))
          simpa [ShapeKind.solidKinds, ShapeKind.pen, Pen.IsUsable, Pen.size] using hwide
      | point =>
          have hwide := @lt_value_maximum (s.style.strokeWidth * 2) 5 (by decide)
            (lt_value_ofNat (by decide) (by decide))
          simpa [ShapeKind.solidKinds, ShapeKind.pen, Pen.IsUsable, Pen.size] using hwide
      | _ => simp [ShapeKind.solidKinds, ShapeKind.pen, Pen.IsUsable, Pen.size]

/-! ## Scenes -/

namespace Scene

/-- Graphs have a usable pen, so the pens of a body are usable if those of the
shapes are. -/
theorem isUsable_passes_iff (s : Scene) :
    (∀ p, Program.Item.pass p ∈ s.recompute.body → ∀ pen ∈ p.pen, pen.IsUsable) ↔
      ∀ shape ∈ s.shapes, shape.HasUsablePen := by
  have hbody : s.recompute.body = (synthesize s.shapes s.sampleAll.functions).body := rfl
  have hwide : 1 / 20 < value 2 := lt_value_ofNat two_pos (by decide)
  have hgraph : (Pen.lineWidth Program.graphLineWidth).IsUsable := ⟨by decide +kernel, hwide⟩
  simp only [hbody, Program.pass_mem_body, Shape.hasUsablePen_iff, ← Shape.isUsable_passes_iff]
  constructor
  · intro h shape hshape t ht p hp
    exact h p (.inl ⟨shape, hshape, t, ht, hp⟩)
  · rintro h p (⟨shape, hshape, t, ht, hp⟩ | ⟨f, -, run, -, rfl⟩)
    · exact h shape hshape t ht p hp
    · rintro pen hpen
      obtain rfl : Pen.lineWidth Program.graphLineWidth = pen := Option.some.inj hpen
      exact hgraph

/-- The pens of a program are those of its passes. -/
theorem hasUsablePens_iff_passes (s : Scene) :
    Program.HasUsablePens s.recompute.program ↔
      ∀ p, Program.Item.pass p ∈ s.recompute.body → ∀ pen ∈ p.pen, pen.IsUsable :=
  Program.hasUsablePens_iff (Program.onLines_body s.shapes s.sampleAll.functions)

/-- **Usable pens**: the program of a scene sets only pens that are written with
a size greater than zero, exactly if no shape has a stroke that is too narrow
for its kind.  The graphs never fail, and neither do the least sizes of lines
and points unless a size overflows. -/
theorem hasUsablePens_recompute_iff (s : Scene) :
    Program.HasUsablePens s.recompute.program ↔ ∀ shape ∈ s.shapes, shape.HasUsablePen := by
  rw [hasUsablePens_iff_passes, isUsable_passes_iff]

/-- A scene with a rectangle that has a narrow stroke. -/
def narrowRectangle : Scene :=
  ⟨[⟨.figure .rectangle [⟨300, 200⟩, ⟨900, 500⟩], ⟨"#000000", "#FFFFFF", 0.04, false⟩⟩], [],
    .default⟩

/-- The stroke is drawn, with a line width of `0.0f`. -/
theorem not_hasUsablePens_narrowRectangle :
    load? narrowRectangle.save = some narrowRectangle ∧
      ¬Program.HasUsablePens narrowRectangle.recompute.program := by
  have hload : load? narrowRectangle.save = some narrowRectangle :=
    load?_save_of_hasExactSpelling (by decide +kernel)
  refine ⟨hload, fun h => ?_⟩
  have hparts : Binary64.ofFloat 0.04 = .finite false ⟨5764607523034235, -57⟩ := by
    decide +kernel
  have hwide := (isUsable_passes_iff narrowRectangle).1 ((hasUsablePens_iff_passes _).1 h) _
    List.mem_cons_self rfl (by decide +kernel)
  simp only [value, hparts, Magnitude.value] at hwide
  norm_num at hwide

end Scene

end GlutSketch
