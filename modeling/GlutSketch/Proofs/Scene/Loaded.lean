import GlutSketch.Proofs.Json.Finite
import GlutSketch.Proofs.Scene.Numbers
import GlutSketch.Scene.File

/-!
# GlutSketch.Proofs.Scene.Loaded

A scene that was loaded has finite numbers only, since a number that is too
large for a double is not accepted and the defaults are finite.

* `Scene.isFinite_of_load?` -- every number of a loaded scene is finite.
-/

namespace GlutSketch

/-! ## Fields -/

section Fields

variable {α β : Type} {P : β → Prop}

/-- What holds of every image holds of the elements of a list of images. -/
theorem forall_of_mapM_eq_some {f : α → Option β} (hf : ∀ a b, f a = some b → P b) {as : List α}
    {bs : List β} (h : as.mapM f = some bs) : ∀ b ∈ bs, P b := by
  induction as generalizing bs with
  | nil =>
      cases h
      intro b hb
      cases hb
  | cons a as ih =>
      rw [List.mapM_cons] at h
      obtain ⟨b, hb, h⟩ := Option.bind_eq_some_iff.1 h
      obtain ⟨bs', hbs, h⟩ := Option.bind_eq_some_iff.1 h
      cases h
      exact List.forall_mem_cons.2 ⟨hf a b hb, ih hbs⟩

/-- What holds of every element that is read holds of a list that is read. -/
theorem forall_of_asList? {read : Json → Option β} (hread : ∀ v b, read v = some b → P b)
    {v : Json} {bs : List β} (h : Json.asList? read v = some bs) : ∀ b ∈ bs, P b := by
  unfold Json.asList? at h
  split at h
  · exact forall_of_mapM_eq_some hread h
  · cases h

/-- What holds of everything that is read holds of a required field. -/
theorem of_required? {read : Json → Option β} (hread : ∀ v b, read v = some b → P b)
    {field : Option Json} {b : β} (h : Json.required? read field = some b) : P b := by
  obtain ⟨v, -, hv⟩ := Option.bind_eq_some_iff.1 h
  exact hread v b hv

/-- A field with a default is what was read or the default. -/
theorem of_optional? {read : Json → Option β} (hread : ∀ v b, read v = some b → P b) {default : β}
    (hdefault : P default) {field : Option Json} {b : β}
    (h : Json.optional? read default field = some b) : P b := by
  cases field with
  | none =>
      cases h
      exact hdefault
  | some v => exact hread v b h

end Fields

theorem isFinite_of_required? {field : Option Json} {x : Float}
    (h : Json.required? Json.asFloat? field = some x) : x.isFinite :=
  of_required? (P := fun x : Float => x.isFinite) (fun _ _ => Json.isFinite_of_asFloat?) h

/-! ## Parts of a scene -/

theorem Point.isFinite_of_ofJson? {v : Json} {p : Point} (h : ofJson? v = some p) :
    ∀ x ∈ p.numbers, x.isFinite := by
  unfold ofJson? at h
  split at h
  · obtain ⟨x, hx, h⟩ := Option.bind_eq_some_iff.1 h
    obtain ⟨y, hy, h⟩ := Option.bind_eq_some_iff.1 h
    cases h
    simp [numbers, isFinite_of_required? hx, isFinite_of_required? hy]
  · cases h

theorem Style.isFinite_of_ofJson? {v : Json} {s : Style} (h : ofJson? v = some s) :
    ∀ x ∈ s.numbers, x.isFinite := by
  have hdefault : default.strokeWidth.isFinite := by decide +kernel
  unfold ofJson? at h
  split at h
  · obtain ⟨strokeColor, -, h⟩ := Option.bind_eq_some_iff.1 h
    obtain ⟨fillColor, -, h⟩ := Option.bind_eq_some_iff.1 h
    obtain ⟨strokeWidth, hwidth, h⟩ := Option.bind_eq_some_iff.1 h
    obtain ⟨filled, -, h⟩ := Option.bind_eq_some_iff.1 h
    cases h
    have hfinite := of_optional? (P := fun x : Float => x.isFinite)
      (fun _ _ => Json.isFinite_of_asFloat?) hdefault hwidth
    simp [numbers, hfinite]
  · cases h

/-- A geometry is made of finite numbers, whichever kind it is. -/
theorem Geometry.isFinite_of_ofFields? {k : ShapeKind} {fields : List (Option Json)} {g : Geometry}
    (h : ofFields? k fields = some g) : ∀ x ∈ g.numbers, x.isFinite := by
  have hpoints : ∀ {field : Option Json} {points : List Point},
      Json.required? (Json.asList? Point.ofJson?) field = some points →
        ∀ x ∈ points.flatMap Point.numbers, x.isFinite := by
    intro field points hfield x hx
    obtain ⟨p, hp, hmem⟩ := List.mem_flatMap.1 hx
    exact of_required? (fun _ _ => forall_of_asList? fun _ _ => Point.isFinite_of_ofJson?)
      hfield p hp x hmem
  unfold ofFields? at h
  split at h
  · obtain ⟨points, hfield, h⟩ := Option.map_eq_some_iff.1 h
    cases h
    exact hpoints hfield
  · obtain ⟨points, hfield, h⟩ := Option.bind_eq_some_iff.1 h
    obtain ⟨startAngle, hstart, h⟩ := Option.bind_eq_some_iff.1 h
    obtain ⟨endAngle, hend, h⟩ := Option.bind_eq_some_iff.1 h
    cases h
    rw [numbers, List.forall_mem_append]
    exact ⟨hpoints hfield,
      by simp [isFinite_of_required? hstart, isFinite_of_required? hend]⟩
  · cases h

theorem Geometry.isFinite_of_ofJson? {v : Json} {g : Geometry} (h : ofJson? v = some g) :
    ∀ x ∈ g.numbers, x.isFinite := by
  unfold ofJson? at h
  split at h
  · obtain ⟨split, -, h⟩ := Option.bind_eq_some_iff.1 h
    obtain ⟨fields, -, h⟩ := Option.bind_eq_some_iff.1 h
    exact isFinite_of_ofFields? h
  · cases h

/-- A shape that is read has finite numbers only. -/
theorem Shape.isFinite_of_ofJson? {v : Json} {s : Shape} (h : ofJson? v = some s) :
    ∀ x ∈ s.numbers, x.isFinite := by
  have hdefault : ∀ x ∈ Style.default.numbers, x.isFinite := by decide +kernel
  unfold ofJson? at h
  split at h
  · obtain ⟨geometry, hgeometry, h⟩ := Option.bind_eq_some_iff.1 h
    obtain ⟨style, hstyle, h⟩ := Option.bind_eq_some_iff.1 h
    cases h
    rw [numbers, List.forall_mem_append]
    exact ⟨of_required? (fun _ _ => Geometry.isFinite_of_ofJson?) hgeometry,
      of_optional? (fun _ _ => Style.isFinite_of_ofJson?) hdefault hstyle⟩
  · cases h

theorem Viewport.isFinite_of_ofJson? {v : Json} {w : Viewport} (h : ofJson? v = some w) :
    ∀ x ∈ w.numbers, x.isFinite := by
  unfold ofJson? at h
  split at h
  · obtain ⟨xMin, hxMin, h⟩ := Option.bind_eq_some_iff.1 h
    obtain ⟨xMax, hxMax, h⟩ := Option.bind_eq_some_iff.1 h
    obtain ⟨yMin, hyMin, h⟩ := Option.bind_eq_some_iff.1 h
    obtain ⟨yMax, hyMax, h⟩ := Option.bind_eq_some_iff.1 h
    cases h
    simp [numbers, isFinite_of_required? hxMin, isFinite_of_required? hxMax,
      isFinite_of_required? hyMin, isFinite_of_required? hyMax]
  · cases h

/-! ## Scenes -/

/-- **Loaded scenes**: every number of a scene that is read is finite. -/
theorem Scene.isFinite_of_ofJson? {v : Json} {s : Scene} (h : ofJson? v = some s) :
    ∀ x ∈ s.numbers, x.isFinite := by
  have hdefault : ∀ x ∈ Viewport.default.numbers, x.isFinite := by decide +kernel
  have hnone : ∀ shape ∈ ([] : List Shape), ∀ x ∈ shape.numbers, x.isFinite := by simp
  unfold ofJson? at h
  split at h
  · obtain ⟨shapes, hshapes, h⟩ := Option.bind_eq_some_iff.1 h
    obtain ⟨functions, -, h⟩ := Option.bind_eq_some_iff.1 h
    obtain ⟨viewport, hviewport, h⟩ := Option.bind_eq_some_iff.1 h
    cases h
    rw [numbers, List.forall_mem_append, List.forall_mem_flatMap]
    exact ⟨of_optional? (fun _ _ => forall_of_asList? fun _ _ => Shape.isFinite_of_ofJson?)
        hnone hshapes,
      of_optional? (fun _ _ => Viewport.isFinite_of_ofJson?) hdefault hviewport⟩
  · cases h

/-- Every number of a loaded scene is finite. -/
theorem Scene.isFinite_of_load? {text : String} {s : Scene} (h : load? text = some s) :
    ∀ x ∈ s.numbers, x.isFinite := by
  obtain ⟨v, -, hv⟩ := Option.bind_eq_some_iff.1 h
  exact isFinite_of_ofJson? hv

end GlutSketch
