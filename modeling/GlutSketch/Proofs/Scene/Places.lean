import Mathlib.Data.List.Nodup
import GlutSketch.Proofs.Json.Members
import GlutSketch.Proofs.Scene.RoundTrip

/-!
# GlutSketch.Proofs.Scene.Places

The places of a scene file, and what is read there field by field.  Every record
has its parts; the parts of a geometry depend on its kind.

* `Place`, `Place.parts` -- what a value stands for, and its fields.
* `SameRecord`, `Place.read?_of_sameRecord` -- records with fields that are read
  alike.
* `Fails`, `Place.read?_eq_none` -- a record with a field that cannot be read.
-/

namespace GlutSketch

/-! ## Places -/

/-- What a value of a scene file stands for. -/
inductive Place where
  | scene
  | viewport
  | shape
  | style
  | geometry
  | function
  | point
  | list (element : Place)

namespace Place

/-- What is read in a place. -/
def Value : Place → Type
  | scene => Scene
  | viewport => Viewport
  | shape => Shape
  | style => Style
  | geometry => Geometry
  | function => PlotFunction
  | point => Point
  | list p => List p.Value

/-- How a place is read. -/
def read? : (p : Place) → Json → Option p.Value
  | scene => Scene.ofJson?
  | viewport => Viewport.ofJson?
  | shape => Shape.ofJson?
  | style => Style.ofJson?
  | geometry => Geometry.ofJson?
  | function => PlotFunction.ofJson?
  | point => Point.ofJson?
  | list p => Json.asList? p.read?

/-- How deep the value in a place may nest if it is kept until the kind of a
geometry is known. -/
def room : Place → Option Nat
  | geometry => some Geometry.maxDepth
  | point => some (Geometry.maxDepth - 2)
  | list p => p.room.map (· + 1)
  | _ => none

end Place

/-- A field of a record: its name, the place of its value if that is no scalar,
and the values that are as good as no value. -/
structure Part where
  name : String
  place : Option Place
  IsDefault : Json → Prop

namespace Part

/-- A field that has to be there. -/
def required (name : String) (place : Option Place) : Part := ⟨name, place, fun _ => False⟩

/-- A field that has a default. -/
def optional {α : Type} (name : String) (place : Option Place) (read : Json → Option α)
    (default : α) : Part :=
  ⟨name, place, fun v => read v = some default⟩

end Part

/-- The kind of a geometry that has one. -/
def Geometry.kind? (v : Json) : Option ShapeKind := (splitKind? v).map (·.1)

/-- The fields of a geometry of a kind, apart from the kind itself. -/
def ShapeKind.parts : ShapeKind → List Part
  | figure f => [.required (figure f).pointsName (some (.list .point))]
  | arc =>
      [.required "points" (some (.list .point)), .required "start_angle" none,
        .required "end_angle" none]

namespace Place

/-- The fields of the value `v` in a place, in their order. -/
def parts (p : Place) (v : Json) : List Part :=
  match p with
  | scene =>
      [.optional "shapes" (some (.list .shape)) (Json.asList? Shape.ofJson?) [],
        .optional "functions" (some (.list .function)) (Json.asList? PlotFunction.ofJson?) [],
        .optional "viewport" (some .viewport) Viewport.ofJson? .default]
  | viewport =>
      [.required "x_min" none, .required "x_max" none, .required "y_min" none,
        .required "y_max" none]
  | shape =>
      [.required "geometry" (some .geometry),
        .optional "style" (some .style) Style.ofJson? .default]
  | style =>
      [.optional "stroke_color" none Json.asText? Style.default.strokeColor,
        .optional "fill_color" none Json.asText? Style.default.fillColor,
        .optional "stroke_width" none Json.asFloat? Style.default.strokeWidth,
        .optional "filled" none Json.asBool? Style.default.filled]
  | geometry =>
      .required Geometry.kindName none :: ((Geometry.kind? v).map ShapeKind.parts).getD []
  | function =>
      [.required "id" none, .required "expression" none, .required "color" none,
        .optional "visible" none Json.asBool? true]
  | point => [.required "x" none, .required "y" none]
  | list _ => []

/-- The names of the fields. -/
def names (p : Place) (v : Json) : List String := (p.parts v).map (·.name)

end Place

/-- The parts of a geometry are its fields. -/
theorem ShapeKind.names_parts (k : ShapeKind) : k.parts.map (·.name) = k.fieldNames := by
  cases k <;> rfl

/-- A geometry has the name of its kind and the fields of that kind. -/
theorem Place.names_geometry {v : Json} {k : ShapeKind} (h : Geometry.kind? v = some k) :
    geometry.names v = Geometry.kindName :: k.fieldNames := by
  rw [names, parts, h, Option.map_some, Option.getD_some, List.map_cons, k.names_parts]
  rfl

/-- No record has two fields of one name. -/
theorem Place.nodup_names (p : Place) (v : Json) : (p.names v).Nodup := by
  cases p with
  | geometry =>
      cases h : Geometry.kind? v with
      | none =>
          rw [names, parts, h]
          exact List.nodup_singleton _
      | some k =>
          rw [names_geometry h]
          exact List.nodup_cons.2
            ⟨Geometry.kindName_notMem_fieldNames k, Geometry.fieldNames_nodup k⟩
  | list => exact List.nodup_nil
  | _ => simp only [names, parts, List.map, Part.required, Part.optional]; decide

/-- The names of a record are those of its parts, in the same places. -/
theorem Place.getElem?_names (p : Place) {v : Json} {part : Part} {i : Nat}
    (h : (p.parts v)[i]? = some part) : (p.names v)[i]? = some part.name := by
  rw [names, List.getElem?_map, h]
  rfl

/-- A field is known by its name. -/
theorem Place.eq_of_name {p : Place} {v : Json} {part other : Part} (hpart : part ∈ p.parts v)
    (hother : other ∈ p.parts v) (h : part.name = other.name) : part = other :=
  List.inj_on_of_nodup_map (p.nodup_names v) hpart hother h

/-! ## Fields -/

/-- Two fields are read alike: they are the same, or one is missing and the
other as good as missing, or their values are read alike. -/
inductive SameField (part : Part) : Option Json → Option Json → Prop
  | refl (f : Option Json) : SameField part f f
  | default {v : Json} (h : part.IsDefault v) : SameField part none (some v)
  | value {q : Place} {v w : Json} (hplace : part.place = some q) (h : q.read? v = q.read? w) :
      SameField part (some v) (some w)

namespace SameField

variable {name : String} {q : Place} {f f' : Option Json} {α : Type} {read : Json → Option α}
  {default : α}

/-- A scalar that has to be there can only be the same. -/
theorem eq (h : SameField (.required name none) f f') : f = f' := by
  cases h with
  | refl => rfl
  | default h => exact h.elim
  | value hplace => cases hplace

/-- Fields that are read alike give the same required value. -/
theorem required? (h : SameField (.required name (some q)) f f') :
    Json.required? q.read? f = Json.required? q.read? f' := by
  cases h with
  | refl => rfl
  | default h => exact h.elim
  | value hplace h =>
      cases hplace
      exact h

/-- Fields that are read alike give the same value, or the default. -/
theorem optional? (h : SameField (.optional name none read default) f f') :
    Json.optional? read default f = Json.optional? read default f' := by
  cases h with
  | refl => rfl
  | default h => exact h.symm
  | value hplace => cases hplace

theorem optional?_place (q : Place) {default : q.Value}
    (h : SameField (.optional name (some q) q.read? default) f f') :
    Json.optional? q.read? default f = Json.optional? q.read? default f' := by
  cases h with
  | refl => rfl
  | default h => exact h.symm
  | value hplace h =>
      cases hplace
      exact h

end SameField

/-- Two values of a place with the same parts, which are read alike. -/
structure SameRecord (p : Place) (v w : Json) : Prop where
  kind : p = .geometry → Geometry.kind? v = Geometry.kind? w
  sound : ∀ depth ∈ p.room, v.isSound depth = w.isSound depth
  fields : Option.Rel (Json.Agree SameField (p.parts v)) (v.fields? (p.names v))
    (w.fields? (p.names v))

section

variable {v w : Json}

theorem Point.ofJson?_of_sameRecord (h : SameRecord .point v w) : ofJson? v = ofJson? w := by
  have hfields : Option.Rel _ (v.fields? fieldNames) (w.fields? fieldNames) := h.fields
  unfold ofJson?
  generalize v.fields? fieldNames = fs, w.fields? fieldNames = fs' at hfields
  cases hfields with
  | none => rfl
  | some hfields =>
      obtain _ | ⟨hx, _ | ⟨hy, ⟨⟩⟩⟩ := hfields
      rw [hx.eq, hy.eq]

theorem Viewport.ofJson?_of_sameRecord (h : SameRecord .viewport v w) : ofJson? v = ofJson? w := by
  have hfields : Option.Rel _ (v.fields? fieldNames) (w.fields? fieldNames) := h.fields
  unfold ofJson?
  generalize v.fields? fieldNames = fs, w.fields? fieldNames = fs' at hfields
  cases hfields with
  | none => rfl
  | some hfields =>
      obtain _ | ⟨hxMin, _ | ⟨hxMax, _ | ⟨hyMin, _ | ⟨hyMax, ⟨⟩⟩⟩⟩⟩ := hfields
      rw [hxMin.eq, hxMax.eq, hyMin.eq, hyMax.eq]

theorem Style.ofJson?_of_sameRecord (h : SameRecord .style v w) : ofJson? v = ofJson? w := by
  have hfields : Option.Rel _ (v.fields? fieldNames) (w.fields? fieldNames) := h.fields
  unfold ofJson?
  generalize v.fields? fieldNames = fs, w.fields? fieldNames = fs' at hfields
  cases hfields with
  | none => rfl
  | some hfields =>
      obtain _ | ⟨hstroke, _ | ⟨hfill, _ | ⟨hwidth, _ | ⟨hfilled, ⟨⟩⟩⟩⟩⟩ := hfields
      simp only [hstroke.optional?, hfill.optional?, hwidth.optional?, hfilled.optional?]

theorem PlotFunction.ofJson?_of_sameRecord (h : SameRecord .function v w) :
    ofJson? v = ofJson? w := by
  have hfields : Option.Rel _ (v.fields? fieldNames) (w.fields? fieldNames) := h.fields
  unfold ofJson?
  generalize v.fields? fieldNames = fs, w.fields? fieldNames = fs' at hfields
  cases hfields with
  | none => rfl
  | some hfields =>
      obtain _ | ⟨hid, _ | ⟨hexpression, _ | ⟨hcolor, _ | ⟨hvisible, ⟨⟩⟩⟩⟩⟩ := hfields
      simp only [hid.eq, hexpression.eq, hcolor.eq, hvisible.optional?]

/-- Records with the same fields give the same shape. -/
theorem Shape.ofJson?_of_sameRecord (h : SameRecord .shape v w) : ofJson? v = ofJson? w := by
  have hfields : Option.Rel _ (v.fields? fieldNames) (w.fields? fieldNames) := h.fields
  unfold ofJson?
  generalize v.fields? fieldNames = fs, w.fields? fieldNames = fs' at hfields
  cases hfields with
  | none => rfl
  | some hfields =>
      obtain _ | ⟨hgeometry, _ | ⟨hstyle, ⟨⟩⟩⟩ := hfields
      have hgeometry : Json.required? Geometry.ofJson? _ = Json.required? Geometry.ofJson? _ :=
        hgeometry.required?
      have hstyle : Json.optional? Style.ofJson? .default _ =
          Json.optional? Style.ofJson? .default _ :=
        SameField.optional?_place .style hstyle
      simp only [hgeometry, hstyle]

/-- Records with the same fields give the same scene. -/
theorem Scene.ofJson?_of_sameRecord (h : SameRecord .scene v w) : ofJson? v = ofJson? w := by
  have hfields : Option.Rel _ (v.fields? fieldNames) (w.fields? fieldNames) := h.fields
  unfold ofJson?
  generalize v.fields? fieldNames = fs, w.fields? fieldNames = fs' at hfields
  cases hfields with
  | none => rfl
  | some hfields =>
      obtain _ | ⟨hshapes, _ | ⟨hfunctions, _ | ⟨hviewport, ⟨⟩⟩⟩⟩ := hfields
      have hshapes : Json.optional? (Json.asList? Shape.ofJson?) [] _ =
          Json.optional? (Json.asList? Shape.ofJson?) [] _ :=
        SameField.optional?_place (.list .shape) hshapes
      have hfunctions : Json.optional? (Json.asList? PlotFunction.ofJson?) [] _ =
          Json.optional? (Json.asList? PlotFunction.ofJson?) [] _ :=
        SameField.optional?_place (.list .function) hfunctions
      have hviewport : Json.optional? Viewport.ofJson? .default _ =
          Json.optional? Viewport.ofJson? .default _ :=
        SameField.optional?_place .viewport hviewport
      simp only [hshapes, hfunctions, hviewport]

end

/-! ## Geometries -/

namespace Geometry

open Json (member?)

section

variable {members members' : List (Option String × Json)} {name : String} {v w : Json}

/-- The kind of an object depends on one member only. -/
theorem kind?_congr (h : member? kindName members = member? kindName members') :
    kind? (.object members) = kind? (.object members') := by
  unfold kind? splitKind?
  simp only [h]
  split
  · cases ShapeKind.ofName? _ <;> rfl
  · rfl

/-- The kind of an array depends on its first element only. -/
theorem kind?_array (tag : Json) (rest rest' : List Json) :
    kind? (.array (tag :: rest)) = kind? (.array (tag :: rest')) := by
  unfold kind?
  cases tag with
  | string text =>
      cases text with
      | none => rfl
      | some name =>
          simp only [splitKind?]
          cases ShapeKind.ofName? name <;> rfl
  | _ => rfl

theorem member?_others (h : name ≠ kindName) :
    member? name (members.filter fun (text, _) => text ≠ some kindName) = member? name members := by
  have hboth : ∀ m : Option String × Json,
      (decide (m.1 = some name) && decide (m.1 ≠ some kindName)) = decide (m.1 = some name) := by
    intro m
    by_cases hm : m.1 = some name
    · have hne : m.1 ≠ some kindName := by
        rw [hm]
        exact fun heq => h (Option.some.inj heq)
      simp [hm, h]
    · simp [hm]
  unfold member?
  rw [List.filter_filter]
  simp only [hboth]

theorem all_isSome_others :
    (members.filter fun (text, _) => text ≠ some kindName).all (·.1.isSome) =
      members.all (·.1.isSome) := by
  rw [List.all_filter]
  congr 1
  funext m
  obtain ⟨_ | text, v⟩ := m <;> simp

/-- The kind is one more field, before those of the kind. -/
theorem fields?_of_splitKind? {k : ShapeKind} {others : Json}
    (h : splitKind? v = some (k, others)) :
    ∃ tag, v.fields? (kindName :: k.fieldNames) =
      (others.fields? k.fieldNames).map (some tag :: ·) := by
  unfold splitKind? at h
  split at h
  · next members =>
      split at h
      · next tag htag =>
          obtain ⟨k', -, hk⟩ := Option.bind_eq_some_iff.1 h
          cases hk
          have hmember : ∀ name ∈ k.fieldNames,
              member? name (members.filter fun (text, _) => text ≠ some kindName) =
                member? name members :=
            fun name hname =>
              member?_others (by rintro rfl; exact kindName_notMem_fieldNames k hname)
          refine ⟨.string (some tag), ?_⟩
          simp only [Json.fields?, all_isSome_others, Json.mapM_congr hmember]
          split
          · rw [List.mapM_cons, htag]
            cases k.fieldNames.mapM (member? · members) <;> rfl
          · rfl
      · cases h
  · next tag elements =>
      obtain ⟨k', -, hk⟩ := Option.bind_eq_some_iff.1 h
      cases hk
      refine ⟨.string (some tag), ?_⟩
      simp only [Json.fields?, List.length_cons, Nat.add_le_add_iff_right, Nat.add_sub_add_right]
      split <;> rfl
  · cases h

/-- A geometry is read by its kind, from the kind and the fields of the kind. -/
theorem ofJson?_eq (v : Json) :
    ofJson? v = if v.isSound maxDepth then (kind? v).bind fun k =>
      (v.fields? (kindName :: k.fieldNames)).bind fun fs => ofFields? k fs.tail else none := by
  unfold ofJson? kind?
  split
  · cases hsplit : splitKind? v with
    | none => rfl
    | some split =>
        obtain ⟨k, others⟩ := split
        obtain ⟨tag, htag⟩ := fields?_of_splitKind? hsplit
        rw [Option.map_some, Option.bind_some, htag]
        show (others.fields? k.fieldNames).bind (ofFields? k) = _
        cases others.fields? k.fieldNames <;> rfl
  · rfl

/-- Records with the same fields give the same geometry, although its members
are kept until the kind is known. -/
theorem ofJson?_of_sameRecord (h : SameRecord .geometry v w) : ofJson? v = ofJson? w := by
  rw [ofJson?_eq, ofJson?_eq, h.sound maxDepth rfl, ← h.kind rfl]
  cases hk : kind? v with
  | none => rfl
  | some k =>
      have hfields := h.fields
      rw [Place.names_geometry hk] at hfields
      simp only [Option.bind_some]
      generalize v.fields? (kindName :: k.fieldNames) = fs,
        w.fields? (kindName :: k.fieldNames) = fs' at hfields
      cases hfields with
      | none => rfl
      | some hfields =>
          rw [Place.parts, hk] at hfields
          cases k with
          | figure f =>
              obtain _ | ⟨hk, _ | ⟨hpoints, ⟨⟩⟩⟩ := hfields
              have hpoints : Json.required? (Json.asList? Point.ofJson?) _ =
                  Json.required? (Json.asList? Point.ofJson?) _ := hpoints.required?
              simp only [Option.bind_some, List.tail_cons, ofFields?, hpoints]
          | arc =>
              obtain _ | ⟨hk, _ | ⟨hpoints, _ | ⟨hstart, _ | ⟨hstop, ⟨⟩⟩⟩⟩⟩ := hfields
              have hpoints : Json.required? (Json.asList? Point.ofJson?) _ =
                  Json.required? (Json.asList? Point.ofJson?) _ := hpoints.required?
              simp only [Option.bind_some, List.tail_cons, ofFields?, hpoints, hstart.eq, hstop.eq]

end

end Geometry

/-- A record is read by its fields. -/
theorem Place.read?_of_sameRecord {p : Place} {v w : Json} (hp : ∀ q, p ≠ .list q)
    (h : SameRecord p v w) : p.read? v = p.read? w := by
  cases p with
  | scene => exact Scene.ofJson?_of_sameRecord h
  | viewport => exact Viewport.ofJson?_of_sameRecord h
  | shape => exact Shape.ofJson?_of_sameRecord h
  | style => exact Style.ofJson?_of_sameRecord h
  | geometry => exact Geometry.ofJson?_of_sameRecord h
  | function => exact PlotFunction.ofJson?_of_sameRecord h
  | point => exact Point.ofJson?_of_sameRecord h
  | list q => exact absurd rfl (hp q)

/-! ## Fields that cannot be read -/

/-- One of the fields has a value that its place does not accept. -/
inductive Fails : List Part → List (Option Json) → Prop
  | here {part parts q v fs} (hplace : part.place = some q) (h : q.read? v = none) :
      Fails (part :: parts) (some v :: fs)
  | there {part parts f fs} (h : Fails parts fs) : Fails (part :: parts) (f :: fs)

theorem Fails.exists_place {parts : List Part} {fs : List (Option Json)} (h : Fails parts fs) :
    ∃ part ∈ parts, part.place ≠ none := by
  induction h with
  | @here part _ q _ _ hplace => exact ⟨part, List.mem_cons_self, by simp [hplace]⟩
  | there h ih =>
      obtain ⟨part, hmem, hplace⟩ := ih
      exact ⟨part, List.mem_cons_of_mem _ hmem, hplace⟩

/-- A value has no fields in a place, or one of them is not accepted. -/
def Unreadable (p : Place) (v : Json) : Prop :=
  ∀ fs, v.fields? (p.names v) = some fs → Fails (p.parts v) fs

section

variable {v : Json} {fs : List (Option Json)}

theorem Shape.ofJson?_eq_none (h : Unreadable .shape v) : ofJson? v = none := by
  unfold ofJson?
  split
  · next heq =>
      obtain ⟨hplace, hnone⟩ | ⟨⟨hplace, hnone⟩ | ⟨⟨⟩⟩⟩ := h _ heq <;> cases hplace
      · have hgeometry : Json.required? Geometry.ofJson? (some _) = none := hnone
        simp [hgeometry]
      · have hstyle : Json.optional? Style.ofJson? .default (some _) = none := hnone
        simp [hstyle]
  · rfl

/-- A scene with an unreadable field is refused. -/
theorem Scene.ofJson?_eq_none (h : Unreadable .scene v) : ofJson? v = none := by
  unfold ofJson?
  split
  · next heq =>
      obtain ⟨hplace, hnone⟩ | ⟨⟨hplace, hnone⟩ | ⟨⟨hplace, hnone⟩ | ⟨⟨⟩⟩⟩⟩ := h _ heq <;>
        cases hplace
      · have hshapes : Json.optional? (Json.asList? Shape.ofJson?) [] (some _) = none := hnone
        simp [hshapes]
      · have hfunctions : Json.optional? (Json.asList? PlotFunction.ofJson?) [] (some _) = none :=
          hnone
        simp [hfunctions]
      · have hviewport : Json.optional? Viewport.ofJson? .default (some _) = none := hnone
        simp [hviewport]
  · rfl

/-- The points are the only part of a geometry that is no scalar. -/
theorem Geometry.ofFields?_eq_none {k : ShapeKind} (hfails : Fails k.parts fs) :
    ofFields? k fs = none := by
  have hpoints {v : Json} (h : (Place.list .point).read? v = none) :
      Json.required? (Json.asList? Point.ofJson?) (some v) = none := h
  unfold ofFields?
  split
  · obtain ⟨hplace, hnone⟩ | ⟨⟨⟩⟩ := hfails
    cases hplace
    rw [hpoints hnone]
    rfl
  · obtain ⟨hplace, hnone⟩ | ⟨⟨hplace, hnone⟩ | ⟨⟨hplace, hnone⟩ | ⟨⟨⟩⟩⟩⟩ := hfails <;> cases hplace
    rw [hpoints hnone]
    rfl
  · rfl

theorem Geometry.ofJson?_eq_none (h : Unreadable .geometry v) : ofJson? v = none := by
  rw [ofJson?_eq]
  split
  · refine Option.bind_eq_none_iff.2 fun k hk => Option.bind_eq_none_iff.2 fun fs hfs => ?_
    have hfails := h fs (by rwa [Place.names_geometry hk])
    rw [Place.parts, hk] at hfails
    cases hfails with
    | here hplace => cases hplace
    | there hfails => exact ofFields?_eq_none hfails
  · rfl

/-- A record with a field that cannot be read cannot be read. -/
theorem Place.read?_eq_none {p : Place} (hp : ∀ q, p ≠ .list q) (h : Unreadable p v) :
    p.read? v = none := by
  -- Without a part of its own place, nothing fails but the fields as a whole.
  have hscalar (hplace : ∀ part ∈ p.parts v, part.place = none) : v.fields? (p.names v) = none := by
    refine Option.eq_none_iff_forall_ne_some.2 fun fs hfs => ?_
    obtain ⟨part, hpart, hne⟩ := (h fs hfs).exists_place
    exact hne (hplace part hpart)
  cases p with
  | scene => exact Scene.ofJson?_eq_none h
  | shape => exact Shape.ofJson?_eq_none h
  | geometry => exact Geometry.ofJson?_eq_none h
  | list q => exact absurd rfl (hp q)
  | viewport =>
      have hnone : v.fields? Viewport.fieldNames = none := hscalar (by simp [parts, Part.required])
      rw [read?, Viewport.ofJson?, hnone]
      rfl
  | style =>
      have hnone : v.fields? Style.fieldNames = none := hscalar (by simp [parts, Part.optional])
      rw [read?, Style.ofJson?, hnone]
      rfl
  | function =>
      have hnone : v.fields? PlotFunction.fieldNames = none :=
        hscalar (by simp [parts, Part.required, Part.optional])
      rw [read?, PlotFunction.ofJson?, hnone]
      rfl
  | point =>
      have hnone : v.fields? Point.fieldNames = none := hscalar (by simp [parts, Part.required])
      rw [read?, Point.ofJson?, hnone]
      rfl

end

end GlutSketch
