import GlutSketch.Proofs.Json.Reread
import GlutSketch.Proofs.Scene.Numbers
import GlutSketch.Scene.File

/-!
# GlutSketch.Proofs.Scene.RoundTrip

A scene that is saved and loaded.  Kinds, texts, ids and lists come back as they
were; every double comes back as the double its spelling is read as, which is
not always the same one.

* `Scene.ofJson?_toJson` -- the record of a scene, number by number.
* `Scene.isWritable_toJson` -- what is saved can be read.
* `Scene.load?_save`, `Scene.load?_save_eq_self_iff`, `Scene.load?_save_spec` --
  the whole text.
* `Scene.load?_save_of_hasExactSpelling` -- scenes of short numbers are kept.
-/

namespace GlutSketch

open Json (reread?)

/-! ## Points, styles and windows -/

/-- A point comes back with its numbers reread. -/
theorem Point.ofJson?_toJson (p : Point) : ofJson? p.toJson = p.mapNumbers? reread? := by
  have hnames : fieldNames.Nodup := by decide
  have hfields : p.toJson.fields? fieldNames = some [some (.ofFloat p.x), some (.ofFloat p.y)] :=
    Json.fields?_ofMembers hnames
  rw [ofJson?, hfields]
  rfl

theorem Style.ofJson?_toJson (s : Style) : ofJson? s.toJson = s.mapNumbers? reread? := by
  have hnames : fieldNames.Nodup := by decide
  have hfields : s.toJson.fields? fieldNames = some [some (.ofString s.strokeColor),
      some (.ofString s.fillColor), some (.ofFloat s.strokeWidth), some (.bool s.filled)] :=
    Json.fields?_ofMembers hnames
  rw [ofJson?, hfields]
  rfl

theorem Viewport.ofJson?_toJson (v : Viewport) : ofJson? v.toJson = v.mapNumbers? reread? := by
  have hnames : fieldNames.Nodup := by decide
  have hfields : v.toJson.fields? fieldNames = some [some (.ofFloat v.xMin),
      some (.ofFloat v.xMax), some (.ofFloat v.yMin), some (.ofFloat v.yMax)] :=
    Json.fields?_ofMembers hnames
  rw [ofJson?, hfields]
  rfl

/-- A function has no doubles. -/
theorem PlotFunction.ofJson?_toJson (f : PlotFunction) : ofJson? f.toJson = some f := by
  have hnames : fieldNames.Nodup := by decide
  have hfields : f.toJson.fields? fieldNames = some [some (.ofNat f.id.value.toNat),
      some (.ofString f.expression), some (.ofString f.color), some (.bool f.visible)] :=
    Json.fields?_ofMembers hnames
  rw [ofJson?, hfields]
  simp only [Json.required?, Option.bind_some, Json.asUInt64?_ofNat]
  rfl

/-! ## Geometries -/

/-- A kind is found by its name. -/
theorem ShapeKind.ofName?_name (k : ShapeKind) : ofName? k.name = some k := by
  cases k with
  | figure f => cases f <;> decide
  | arc => decide

namespace Geometry

/-- The members of a geometry, apart from its kind. -/
def fieldMembers (g : Geometry) : List (String × Json) :=
  (g.kind.pointsName, .array (g.points.map Point.toJson)) ::
    match g with
    | figure .. => []
    | arc _ startAngle endAngle =>
        [("start_angle", .ofFloat startAngle), ("end_angle", .ofFloat endAngle)]

theorem toJson_eq (g : Geometry) :
    g.toJson = .ofMembers ((kindName, .ofString g.kind.name) :: g.fieldMembers) := rfl

/-- A geometry is written with the fields of its kind, in order. -/
theorem fieldMembers_names (g : Geometry) : g.fieldMembers.map (·.1) = g.kind.fieldNames := by
  cases g <;> rfl

/-- No field is named like the kind. -/
theorem kindName_notMem_fieldNames (k : ShapeKind) : kindName ∉ k.fieldNames := by
  cases k with
  | figure f => cases f <;> decide
  | arc => decide

/-- The fields of a geometry have different names. -/
theorem fieldNames_nodup (k : ShapeKind) : k.fieldNames.Nodup := by
  cases k with
  | figure f => exact List.nodup_cons.2 ⟨List.not_mem_nil, List.nodup_nil⟩
  | arc => decide

/-- The kind is found under its name, and the other members are left. -/
theorem splitKind?_toJson (g : Geometry) :
    splitKind? g.toJson = some (g.kind, .ofMembers g.fieldMembers) := by
  have hnames : ((kindName, Json.ofString g.kind.name) :: g.fieldMembers).map (·.1) =
      kindName :: g.kind.fieldNames := by
    rw [List.map_cons, fieldMembers_names]
  have hnodup : (((kindName, Json.ofString g.kind.name) :: g.fieldMembers).map (·.1)).Nodup := by
    rw [hnames]
    exact List.nodup_cons.2 ⟨kindName_notMem_fieldNames _, fieldNames_nodup _⟩
  have hmember := Json.member?_of_mem hnodup List.mem_cons_self
  have hothers : (Json.named ((kindName, Json.ofString g.kind.name) :: g.fieldMembers)).filter
      (·.1 ≠ some kindName) = Json.named g.fieldMembers := by
    refine (List.filter_cons_of_neg (by simp)).trans (List.filter_eq_self.2 ?_)
    intro member hmem
    obtain ⟨⟨name, v⟩, hfield, rfl⟩ := List.mem_map.1 hmem
    have hname : name ≠ kindName := by
      rintro rfl
      refine kindName_notMem_fieldNames g.kind ?_
      rw [← fieldMembers_names]
      exact List.mem_map.2 ⟨_, hfield, rfl⟩
    simp [hname]
  rw [toJson_eq, Json.ofMembers_eq, splitKind?, hmember]
  simp only [Json.ofString, ShapeKind.ofName?_name]
  exact congrArg (fun others => some (g.kind, Json.object others)) hothers

/-- The fields of a geometry are found again. -/
theorem fields?_fieldMembers (g : Geometry) :
    (Json.ofMembers g.fieldMembers).fields? g.kind.fieldNames =
      some (g.fieldMembers.map (some ·.2)) := by
  rw [← fieldMembers_names]
  refine Json.fields?_ofMembers ?_
  rw [fieldMembers_names]
  exact fieldNames_nodup _

/-- A list of points comes back point by point. -/
theorem asList?_points (points : List Point) :
    Json.asList? Point.ofJson? (.array (points.map Point.toJson)) =
      points.mapM (Point.mapNumbers? reread?) := by
  rw [Json.asList?_map]
  simp only [Point.ofJson?_toJson]

/-- The fields of a geometry give it back with its numbers reread. -/
theorem ofFields?_fieldMembers (g : Geometry) :
    ofFields? g.kind (g.fieldMembers.map (some ·.2)) = g.mapNumbers? reread? := by
  cases g with
  | figure k points =>
      show (Json.asList? Point.ofJson? (.array (points.map Point.toJson))).map (figure k) = _
      rw [asList?_points, mapNumbers?]
      cases points.mapM (Point.mapNumbers? reread?) <;> rfl
  | arc points startAngle endAngle =>
      show ((Json.asList? Point.ofJson? (.array (points.map Point.toJson))).bind fun points' =>
        (reread? startAngle).bind fun start => (reread? endAngle).bind fun stop =>
          some (arc points' start stop)) = _
      rw [asList?_points]
      rfl

/-! ### Soundness

The members of a geometry are kept until its kind is known, so they have to be in the
range of doubles also where nobody reads them. -/

/-- A number that can be reread is sound. -/
theorem isSound_ofFloat {x y : Float} (h : reread? x = some y) (depth : Nat) :
    (Json.ofFloat x).isSound depth := by
  unfold reread? Json.ofFloat at h
  unfold Json.ofFloat
  cases hx : Binary64.ofFloat x with
  | finite negative m =>
      rw [hx] at h
      simp only [Json.asFloat?] at h
      simp [Json.isSound, h]
  | infinite negative => rfl
  | nan => rfl

theorem isSound_point {p q : Point} (h : p.mapNumbers? reread? = some q) (depth : Nat) :
    p.toJson.isSound (depth + 1) := by
  obtain ⟨x, hx, h⟩ := Option.bind_eq_some_iff.1 h
  obtain ⟨y, hy, -⟩ := Option.bind_eq_some_iff.1 h
  refine Json.isSound_ofMembers ?_
  intro member hmember
  simp only [List.mem_cons, List.not_mem_nil, or_false] at hmember
  obtain rfl | rfl := hmember
  · exact isSound_ofFloat hx depth
  · exact isSound_ofFloat hy depth

theorem areSound_points {points : List Point}
    (h : ∀ p ∈ points, ∃ q, p.mapNumbers? reread? = some q)
    (depth : Nat) : Json.areSound (depth + 1) (points.map Point.toJson) := by
  induction points with
  | nil => rfl
  | cons p points ih =>
      obtain ⟨q, hq⟩ := h p List.mem_cons_self
      rw [List.map_cons, Json.areSound, isSound_point hq,
        ih fun p' hp' => h p' (List.mem_cons_of_mem p hp')]
      rfl

theorem isSound_points {points : List Point} {qs : List Point}
    (h : points.mapM (Point.mapNumbers? reread?) = some qs) (depth : Nat) :
    (Json.array (points.map Point.toJson)).isSound (depth + 2) := by
  rw [Json.isSound, Nat.add_sub_cancel (depth + 1) 1, areSound_points (exists_of_mapM_eq_some h)]
  simp

/-- A geometry whose numbers are all read is sound. -/
theorem isSound_toJson {g g' : Geometry} (h : g.mapNumbers? reread? = some g') :
    g.toJson.isSound maxDepth := by
  rw [toJson_eq]
  show (Json.ofMembers _).isSound (123 + 1)
  refine Json.isSound_ofMembers ?_
  cases g with
  | figure k points =>
      obtain ⟨qs, hqs, -⟩ := Option.bind_eq_some_iff.1 h
      intro member hmember
      simp only [fieldMembers, List.mem_cons, List.not_mem_nil, or_false] at hmember
      obtain rfl | rfl := hmember
      · rfl
      · exact isSound_points hqs 121
  | arc points startAngle endAngle =>
      obtain ⟨qs, hqs, h⟩ := Option.bind_eq_some_iff.1 h
      obtain ⟨start, hstart, h⟩ := Option.bind_eq_some_iff.1 h
      obtain ⟨stop, hstop, -⟩ := Option.bind_eq_some_iff.1 h
      intro member hmember
      simp only [fieldMembers, List.mem_cons, List.not_mem_nil, or_false] at hmember
      obtain rfl | rfl | rfl | rfl := hmember
      · rfl
      · exact isSound_points hqs 121
      · exact isSound_ofFloat hstart 123
      · exact isSound_ofFloat hstop 123

/-- A geometry comes back with its numbers reread. -/
theorem ofJson?_toJson (g : Geometry) : ofJson? g.toJson = g.mapNumbers? reread? := by
  have hread : ((splitKind? g.toJson).bind fun split =>
      (split.2.fields? split.1.fieldNames).bind fun fields => ofFields? split.1 fields) =
        g.mapNumbers? reread? := by
    rw [splitKind?_toJson, Option.bind_some, fields?_fieldMembers, Option.bind_some,
      ofFields?_fieldMembers]
  show (if g.toJson.isSound maxDepth then (splitKind? g.toJson).bind fun split =>
    (split.2.fields? split.1.fieldNames).bind fun fields => ofFields? split.1 fields else none) = _
  rw [hread]
  cases h : g.mapNumbers? reread? with
  | none => split <;> rfl
  | some g' => rw [if_pos (isSound_toJson h)]

end Geometry

/-! ## Scenes -/

theorem Shape.ofJson?_toJson (s : Shape) : ofJson? s.toJson = s.mapNumbers? reread? := by
  have hnames : fieldNames.Nodup := by decide
  have hfields : s.toJson.fields? fieldNames = some [some s.geometry.toJson, some s.style.toJson] :=
    Json.fields?_ofMembers hnames
  rw [ofJson?, hfields]
  simp only [Json.required?, Json.optional?, Option.bind_some, Geometry.ofJson?_toJson,
    Style.ofJson?_toJson]
  rfl

/-- The functions are read back as they were. -/
theorem asList?_functions (functions : List PlotFunction) :
    Json.asList? PlotFunction.ofJson? (.array (functions.map PlotFunction.toJson)) =
      some functions := by
  rw [Json.asList?_map, mapM_eq_some_self_iff]
  exact fun f _ => f.ofJson?_toJson

theorem asList?_shapes (shapes : List Shape) :
    Json.asList? Shape.ofJson? (.array (shapes.map Shape.toJson)) =
      shapes.mapM (Shape.mapNumbers? reread?) := by
  rw [Json.asList?_map]
  simp only [Shape.ofJson?_toJson]

/-- **Records**: a scene comes back from its own record with every number
reread. -/
theorem Scene.ofJson?_toJson (s : Scene) : ofJson? s.toJson = s.mapNumbers? reread? := by
  have hnames : fieldNames.Nodup := by decide
  have hfields : s.toJson.fields? fieldNames =
      some [some (.array (s.shapes.map Shape.toJson)),
        some (.array (s.functions.map PlotFunction.toJson)), some s.viewport.toJson] :=
    Json.fields?_ofMembers hnames
  rw [ofJson?, hfields]
  simp only [Json.optional?, asList?_shapes, asList?_functions, Viewport.ofJson?_toJson]
  rfl

/-! ## Texts -/

theorem Point.isWritable_toJson (p : Point) : p.toJson.IsWritable := by
  refine Json.isWritable_ofMembers ?_
  simp [Json.isWritable_ofFloat]

theorem Style.isWritable_toJson (s : Style) : s.toJson.IsWritable := by
  refine Json.isWritable_ofMembers ?_
  simp [Json.isWritable_ofFloat, Json.isWritable_ofString, Json.IsWritable]

theorem Viewport.isWritable_toJson (v : Viewport) : v.toJson.IsWritable := by
  refine Json.isWritable_ofMembers ?_
  simp [Json.isWritable_ofFloat]

theorem PlotFunction.isWritable_toJson (f : PlotFunction) : f.toJson.IsWritable := by
  refine Json.isWritable_ofMembers ?_
  simp [Json.isWritable_ofNat, Json.isWritable_ofString, Json.IsWritable]

theorem Geometry.isWritable_toJson (g : Geometry) : g.toJson.IsWritable := by
  have hpoints := Json.isWritable_array Point.isWritable_toJson g.points
  refine Json.isWritable_ofMembers ?_
  cases g with
  | figure k points => simpa [Json.isWritable_ofString] using hpoints
  | arc points startAngle endAngle =>
      simpa [Json.isWritable_ofString, Json.isWritable_ofFloat] using hpoints

theorem Shape.isWritable_toJson (s : Shape) : s.toJson.IsWritable := by
  refine Json.isWritable_ofMembers ?_
  simp [s.geometry.isWritable_toJson, s.style.isWritable_toJson]

/-- The record of a scene can be written and read. -/
theorem Scene.isWritable_toJson (s : Scene) : s.toJson.IsWritable := by
  have hshapes := Json.isWritable_array Shape.isWritable_toJson s.shapes
  have hfunctions := Json.isWritable_array PlotFunction.isWritable_toJson s.functions
  refine Json.isWritable_ofMembers ?_
  simp [hshapes, hfunctions, s.viewport.isWritable_toJson]

/-- Loading a saved scene gives the scene with every number replaced by the
number its spelling is read as; it fails exactly if one of them is not read. -/
theorem Scene.load?_save (s : Scene) : load? s.save = s.mapNumbers? reread? := by
  rw [load?, save, Json.parse?_print s.isWritable_toJson, Option.bind_some, ofJson?_toJson]

/-- A scene is loaded as it was saved exactly if each of its numbers is read as
it was written. -/
theorem Scene.load?_save_eq_self_iff {s : Scene} :
    load? s.save = some s ↔ ∀ x ∈ s.numbers, reread? x = some x := by
  rw [load?_save, mapNumbers?_eq_some_self_iff]

/-- A scene is loaded as it was saved if the digits of each number, the point
left out, make a whole number of 53 binary digits, and the point is moved by 22
places at most. -/
theorem Scene.load?_save_of_hasExactSpelling {s : Scene}
    (h : ∀ x ∈ s.numbers, Json.HasExactSpelling x) : load? s.save = some s :=
  load?_save_eq_self_iff.2 fun x hx => Json.reread?_of_hasExactSpelling (h x hx)

/-- **Saving and loading**: a saved scene changes only in its numbers, and it is
loaded as it was exactly if each of them is read as it was written. -/
theorem Scene.load?_save_spec (s : Scene) :
    load? s.save = s.mapNumbers? reread? ∧
      (load? s.save = some s ↔ ∀ x ∈ s.numbers, reread? x = some x) :=
  ⟨load?_save s, load?_save_eq_self_iff⟩

/-- One eleventh has sixteen digits that 53 bits cannot hold, and is read as a
neighbour. -/
theorem reread?_eleventh : reread? 0.09090909090909091 ≠ some 0.09090909090909091 := by
  decide +kernel

/-- A window of finite edges that is not loaded as it was saved. -/
theorem Scene.load?_save_ne_self :
    (∀ x ∈ (Scene.mk [] [] ⟨-10, 10, -10, 0.09090909090909091⟩).numbers, x.isFinite) ∧
      load? (Scene.mk [] [] ⟨-10, 10, -10, 0.09090909090909091⟩).save ≠
        some (Scene.mk [] [] ⟨-10, 10, -10, 0.09090909090909091⟩) := by
  refine ⟨by decide +kernel, fun h => ?_⟩
  exact reread?_eleventh (load?_save_eq_self_iff.1 h _ (by simp [numbers, Viewport.numbers]))

end GlutSketch
