import Mathlib.Logic.Relation
import GlutSketch.Proofs.Json.Tokens
import GlutSketch.Proofs.Scene.Places

/-!
# GlutSketch.Proofs.Scene.Respelling

The spellings of one scene.  At every place of a scene file the members of a
record may stand in another order, members with unknown names may be added,
defaults may be left out or written down, and a record other than a geometry may
be written as the array of its fields; the scene stays the same.  The parts of a
geometry are kept until its kind is known, so what is added there has to be
sound; a name that is repeated is refused.

* `Respelled` -- one change, at any place.
* `Respelled.read?_eq` -- the value in the place does not change.
* `Repeats.read?_eq_none` -- a known name that is repeated, at any place.
* `Scene.load?_respelled` -- whole texts.
-/

namespace GlutSketch

open Json (named)

/-- The records that may be written as the array of their fields.  A geometry
may not. -/
def Place.IsRecord : Place → Prop
  | .geometry | .list _ => False
  | _ => True

/-! ## Changes -/

/-- The value of a place is spelled in another way, by one change. -/
inductive Respelled : Place → Json → Json → Prop
  /-- The members of an object in another order. -/
  | permuted {p : Place} {members members' : List (Option String × Json)}
      (h : members.Perm members') : Respelled p (.object members) (.object members')
  /-- A member with a name that is not known.  If it is kept until the kind of a
  geometry is known, its value has to be sound. -/
  | foreign {p : Place} {name : String} {v : Json} {members : List (Option String × Json)}
      (hname : name ∉ p.names (.object members))
      (hroom : ∀ depth ∈ p.room, v.isSound (depth - 1)) :
      Respelled p (.object members) (.object ((some name, v) :: members))
  /-- A field that is missing, with its default. -/
  | default {p : Place} {part : Part} {v : Json} {members : List (Option String × Json)}
      (hpart : part ∈ p.parts (.object members)) (hdefault : part.IsDefault v)
      (habsent : ∀ m ∈ members, m.1 ≠ some part.name) :
      Respelled p (.object members) (.object ((some part.name, v) :: members))
  /-- An object with all its fields, as the array of the fields. -/
  | listed {p : Place} {values : List Json} (hp : p.IsRecord)
      (hlength : values.length = (p.names (.array values)).length) :
      Respelled p (.object (named ((p.names (.array values)).zip values))) (.array values)
  /-- A change in the value of a member. -/
  | member {p q : Place} {part : Part} {v w : Json} {before after : List (Option String × Json)}
      (hpart : part ∈ p.parts (.object (before ++ (some part.name, v) :: after)))
      (hplace : part.place = some q) (h : Respelled q v w) :
      Respelled p (.object (before ++ (some part.name, v) :: after))
        (.object (before ++ (some part.name, w) :: after))
  /-- A change in a field of a record that is written as an array. -/
  | field {p q : Place} {part : Part} {v w : Json} {before after : List Json}
      (hpart : (p.parts (.array (before ++ v :: after)))[before.length]? = some part)
      (hplace : part.place = some q) (h : Respelled q v w) :
      Respelled p (.array (before ++ v :: after)) (.array (before ++ w :: after))
  /-- A change in an element of a list. -/
  | element {q : Place} {v w : Json} {before after : List Json} (h : Respelled q v w) :
      Respelled (.list q) (.array (before ++ v :: after)) (.array (before ++ w :: after))

/-- The name of a field is repeated, at some place in the value of a place. -/
inductive Repeats : Place → Json → Prop
  | here {p : Place} {part : Part} {members : List (Option String × Json)}
      (hpart : part ∈ p.parts (.object members))
      (h : 1 < members.countP fun m => m.1 = some part.name) : Repeats p (.object members)
  | member {p q : Place} {part : Part} {v : Json} {members : List (Option String × Json)}
      (hpart : part ∈ p.parts (.object members)) (hplace : part.place = some q)
      (hmem : (some part.name, v) ∈ members) (h : Repeats q v) : Repeats p (.object members)
  | field {p q : Place} {part : Part} {v : Json} {elements : List Json} {i : Nat}
      (hpart : (p.parts (.array elements))[i]? = some part) (hplace : part.place = some q)
      (hmem : elements[i]? = some v) (h : Repeats q v) : Repeats p (.array elements)
  | element {q : Place} {v : Json} {elements : List Json} (hmem : v ∈ elements) (h : Repeats q v) :
      Repeats (.list q) (.array elements)

/-- An object with all the fields of a record, in any order and among members
that are not known, can be written as the array of the fields. -/
theorem Respelled.listed_among {p : Place} {values : List Json}
    {members others : List (Option String × Json)} (hp : p.IsRecord)
    (hlength : values.length = (p.names (.array values)).length)
    (hmembers : members.Perm (others ++ named ((p.names (.array values)).zip values)))
    (hothers : ∀ m ∈ others, ∃ name, m.1 = some name ∧ name ∉ p.names (.array values) ∧
      ∀ depth ∈ p.room, m.2.isSound (depth - 1)) :
    Relation.EqvGen (Respelled p) (.object members) (.array values) := by
  have hnames (v : Json) : p.names v = p.names (.array values) := by
    cases p with
    | geometry | list => exact hp.elim
    | _ => rfl
  refine .trans _ _ _ (.rel _ _ (.permuted hmembers)) ?_
  clear hmembers
  induction others with
  | nil => exact .rel _ _ (.listed hp hlength)
  | cons m others ih =>
      obtain ⟨⟨name, hname, hforeign, hroom⟩, hrest⟩ := List.forall_mem_cons.1 hothers
      obtain ⟨text, v⟩ := m
      obtain rfl : text = some name := hname
      have hstep : Respelled p (.object (others ++ named ((p.names (.array values)).zip values)))
          (.object ((some name, v) :: (others ++ named ((p.names (.array values)).zip values)))) :=
        .foreign (by rwa [hnames]) hroom
      exact .trans _ _ _ (.symm _ _ (.rel _ _ hstep)) (ih hrest)

/-! ## What is kept -/

section

variable {p q : Place} {part : Part} {v w : Json} {depth : Nat}

/-- A part that has to be there, and what is in it may nest `depth` deep. -/
structure Part.IsKept (part : Part) (depth : Nat) : Prop where
  room : ∀ q, part.place = some q → q.room = some depth
  not_isDefault : ∀ v, ¬ part.IsDefault v

theorem Part.isKept_scalar (name : String) (depth : Nat) : (required name none).IsKept depth where
  room q hq := by cases hq
  not_isDefault _ := id

theorem Part.isKept_points (name : String) :
    (required name (some (.list .point))).IsKept (Geometry.maxDepth - 1) where
  room q hq := by
    cases hq
    rfl
  not_isDefault _ := id

/-- The fields of a geometry keep within its depth. -/
theorem ShapeKind.isKept_parts {k : ShapeKind} (hpart : part ∈ k.parts) :
    part.IsKept (Geometry.maxDepth - 1) := by
  cases k with
  | figure f =>
      rw [parts, List.mem_singleton] at hpart
      exact hpart ▸ Part.isKept_points _
  | arc =>
      simp only [parts, List.mem_cons, List.not_mem_nil, or_false] at hpart
      rcases hpart with rfl | rfl | rfl
      · exact Part.isKept_points _
      · exact Part.isKept_scalar _ _
      · exact Part.isKept_scalar _ _

/-- A geometry and its points have no defaults, and the points are the only part
of a geometry that is no scalar. -/
theorem Place.isKept_parts (hpart : part ∈ p.parts v) (hroom : p.room = some depth) :
    part.IsKept (depth - 1) := by
  cases p with
  | geometry =>
      cases hroom
      rcases List.mem_cons.1 hpart with rfl | hpart
      · exact Part.isKept_scalar _ _
      · cases hk : Geometry.kind? v with
        | none => simp [hk] at hpart
        | some k =>
            rw [hk] at hpart
            exact ShapeKind.isKept_parts hpart
  | point =>
      simp only [parts, List.mem_cons, List.not_mem_nil, or_false] at hpart
      rcases hpart with rfl | rfl <;> exact Part.isKept_scalar _ _
  | list => cases hpart
  | _ => cases hroom

theorem Place.room_of_list (hroom : (list q).room = some depth) : q.room = some (depth - 1) := by
  obtain ⟨inner, hinner, rfl⟩ := Option.map_eq_some_iff.1 hroom
  exact hinner

/-- A change keeps a value sound. -/
theorem Respelled.isSound_eq (h : Respelled p v w) :
    ∀ depth ∈ p.room, v.isSound depth = w.isSound depth := by
  induction h with
  | permuted h => exact fun depth _ => Json.isSound_perm h
  | foreign hname hroom => exact fun depth hdepth => (Json.isSound_cons _ (hroom depth hdepth)).symm
  | default hpart hdefault habsent =>
      exact fun depth hdepth => absurd hdefault ((Place.isKept_parts hpart hdepth).not_isDefault _)
  | listed hp hlength => exact fun depth _ => Json.isSound_zip hlength
  | member hpart hplace h ih =>
      exact fun depth hdepth =>
        Json.isSound_object_replaced (ih _ ((Place.isKept_parts hpart hdepth).room _ hplace))
  | field hpart hplace h ih =>
      exact fun depth hdepth => Json.isSound_array_replaced
        (ih _ ((Place.isKept_parts (List.mem_of_getElem? hpart) hdepth).room _ hplace))
  | element h ih =>
      exact fun depth hdepth => Json.isSound_array_replaced (ih _ (Place.room_of_list hdepth))

end

/-! ## What is read -/

section

variable {p q : Place} {part : Part} {name : String} {v w : Json}
  {members members' : List (Option String × Json)}

/-- The field of the kind is a scalar, so a field that is none has another
name. -/
theorem Geometry.name_ne_kindName (hpart : part ∈ Place.parts .geometry v)
    (hplace : part.place = some q) : part.name ≠ kindName := by
  intro hname
  have hkind : Part.required kindName none ∈ Place.parts .geometry v := List.mem_cons_self
  rw [Place.eq_of_name hpart hkind hname] at hplace
  cases hplace

theorem rel_of_eq {o o' : Option (Option Json)} (h : o = o') :
    Option.Rel (SameField part) o o' := by
  rw [h]
  cases o' with
  | none => exact .none
  | some f => exact .some (.refl f)

/-- Values with the same fields. -/
theorem SameRecord.of_fields? (hkind : p = .geometry → Geometry.kind? v = Geometry.kind? w)
    (hsound : ∀ depth ∈ p.room, v.isSound depth = w.isSound depth)
    (hfields : v.fields? (p.names v) = w.fields? (p.names v)) : SameRecord p v w := by
  refine ⟨hkind, hsound, ?_⟩
  rw [← hfields]
  cases hfs : v.fields? (p.names v) with
  | none => exact .none
  | some fs =>
      have hlength := Json.length_fields? hfs
      rw [Place.names, List.length_map] at hlength
      exact .some (.refl (fun _ _ => .refl _) hlength.symm)

/-- Objects are lists of nothing. -/
theorem Place.read?_object (h : SameRecord p (.object members) (.object members')) :
    p.read? (.object members) = p.read? (.object members') := by
  cases p with
  | list q => rfl
  | _ =>
      refine read?_of_sameRecord (fun q hq => ?_) h
      cases hq

/-- Members in another order are read alike. -/
theorem read?_permuted (h : members.Perm members') :
    p.read? (.object members) = p.read? (.object members') :=
  Place.read?_object (.of_fields? (fun _ => Geometry.kind?_congr (Json.member?_perm _ h))
    (fun _ _ => Json.isSound_perm h) (Json.fields?_perm h))

/-- A member that no field asks for is passed over, if it is sound where members
are kept. -/
theorem read?_foreign (hname : name ∉ p.names (.object members))
    (hroom : ∀ depth ∈ p.room, v.isSound (depth - 1)) :
    p.read? (.object members) = p.read? (.object ((some name, v) :: members)) := by
  refine Place.read?_object (.of_fields? ?_ ?_ (Json.fields?_cons_of_notMem v hname).symm)
  · rintro rfl
    have hne : Geometry.kindName ≠ name := by
      rintro rfl
      exact hname List.mem_cons_self
    exact Geometry.kind?_congr (Json.member?_append_of_ne hne [] members).symm
  · exact fun depth hdepth => (Json.isSound_cons name (hroom depth hdepth)).symm

/-- A default may be written down. -/
theorem read?_default (hpart : part ∈ p.parts (.object members)) (hdefault : part.IsDefault v)
    (habsent : ∀ m ∈ members, m.1 ≠ some part.name) :
    p.read? (.object members) = p.read? (.object ((some part.name, v) :: members)) := by
  have hroom {depth : Nat} (hdepth : p.room = some depth) : False :=
    (Place.isKept_parts hpart hdepth).not_isDefault v hdefault
  refine Place.read?_object ⟨?_, fun depth hdepth => (hroom hdepth).elim, ?_⟩
  · rintro rfl
    exact (hroom rfl).elim
  · refine Json.fields?_object_rel (by simp) fun other hother => ?_
    by_cases hname : other.name = part.name
    · rw [Place.eq_of_name hother hpart hname, Json.member?_of_absent habsent,
        Json.member?_cons_of_absent v habsent]
      exact .some (.default hdefault)
    · exact rel_of_eq (Json.member?_append_of_ne hname [] members).symm

/-- A record may be written as the array of its fields. -/
theorem read?_listed {values : List Json} (hp : p.IsRecord)
    (hlength : values.length = (p.names (.array values)).length) :
    p.read? (.object (named ((p.names (.array values)).zip values))) = p.read? (.array values) := by
  have hnames : p.names (.object (named ((p.names (.array values)).zip values))) =
      p.names (.array values) := by
    cases p with
    | geometry | list => exact hp.elim
    | _ => rfl
  refine Place.read?_of_sameRecord ?_ (.of_fields? ?_ ?_ ?_)
  · rintro q rfl
    exact hp
  · rintro rfl
    exact hp.elim
  · exact fun _ _ => Json.isSound_zip hlength
  · rw [hnames]
    exact Json.fields?_zip (p.nodup_names _) hlength

/-- A change inside a member of an object changes nothing outside. -/
theorem read?_member {before after : List (Option String × Json)}
    (hpart : part ∈ p.parts (.object (before ++ (some part.name, v) :: after)))
    (hplace : part.place = some q) (hread : q.read? v = q.read? w)
    (hsound : ∀ depth ∈ q.room, v.isSound depth = w.isSound depth) :
    p.read? (.object (before ++ (some part.name, v) :: after)) =
      p.read? (.object (before ++ (some part.name, w) :: after)) := by
  have hother {name : String} (hname : name ≠ part.name) :
      Json.member? name (before ++ (some part.name, v) :: after) =
        Json.member? name (before ++ (some part.name, w) :: after) := by
    rw [Json.member?_append_of_ne hname, Json.member?_append_of_ne hname]
  refine Place.read?_object ⟨?_, ?_, ?_⟩
  · rintro rfl
    exact Geometry.kind?_congr (hother (Geometry.name_ne_kindName hpart hplace).symm)
  · exact fun depth hdepth =>
      Json.isSound_object_replaced (hsound _ ((Place.isKept_parts hpart hdepth).room _ hplace))
  · refine Json.fields?_object_rel (by simp) fun other hmem => ?_
    by_cases hname : other.name = part.name
    · rw [Place.eq_of_name hmem hpart hname]
      have hreplaced := Json.member?_replaced part.name v w before after
      generalize Json.member? part.name (before ++ (some part.name, v) :: after) = f,
        Json.member? part.name (before ++ (some part.name, w) :: after) = f' at hreplaced
      cases hreplaced with
      | none => exact .none
      | some h =>
          obtain ⟨rfl, rfl⟩ := h
          exact .some (.value hplace hread)
    · exact rel_of_eq (hother hname)

/-- A change inside a field of an array changes nothing outside. -/
theorem read?_field {before after : List Json}
    (hpart : (p.parts (.array (before ++ v :: after)))[before.length]? = some part)
    (hplace : part.place = some q) (hread : q.read? v = q.read? w)
    (hsound : ∀ depth ∈ q.room, v.isSound depth = w.isSound depth) :
    p.read? (.array (before ++ v :: after)) = p.read? (.array (before ++ w :: after)) := by
  refine Place.read?_of_sameRecord ?_ ⟨?_, ?_, ?_⟩
  · rintro q rfl
    cases hpart
  · rintro rfl
    cases before with
    | nil =>
        cases hpart
        cases hplace
    | cons tag before => exact Geometry.kind?_array tag _ _
  · exact fun depth hdepth => Json.isSound_array_replaced
      (hsound _ ((Place.isKept_parts (List.mem_of_getElem? hpart) hdepth).room _ hplace))
  · exact Json.fields?_array_replaced (fun _ _ => .refl _) (.value hplace hread) hpart

/-- A change inside an element of a list changes nothing outside. -/
theorem read?_element {before after : List Json} (hread : q.read? v = q.read? w) :
    (Place.list q).read? (.array (before ++ v :: after)) =
      (Place.list q).read? (.array (before ++ w :: after)) := by
  show (before ++ v :: after).mapM q.read? = (before ++ w :: after).mapM q.read?
  rw [List.mapM_append, List.mapM_append, List.mapM_cons, List.mapM_cons, hread]

end

/-- **One change**: a change leaves what is read as it is. -/
theorem Respelled.read?_eq {p : Place} {v w : Json} (h : Respelled p v w) :
    p.read? v = p.read? w := by
  induction h with
  | permuted h => exact read?_permuted h
  | foreign hname hroom => exact read?_foreign hname hroom
  | default hpart hdefault habsent => exact read?_default hpart hdefault habsent
  | listed hp hlength => exact read?_listed hp hlength
  | member hpart hplace h ih => exact read?_member hpart hplace ih h.isSound_eq
  | field hpart hplace h ih => exact read?_field hpart hplace ih h.isSound_eq
  | element h ih => exact read?_element ih

/-! ## Repeated names -/

/-- A field with a value that its place does not accept. -/
theorem Fails.of_getElem? {q : Place} {part : Part} {parts : List Part} {v : Json}
    {fs : List (Option Json)} {i : Nat} (hpart : parts[i]? = some part)
    (hplace : part.place = some q) (hfield : fs[i]? = some (some v)) (h : q.read? v = none) :
    Fails parts fs := by
  induction i generalizing parts fs with
  | zero =>
      cases parts with
      | nil => cases hpart
      | cons first parts =>
          cases fs with
          | nil => cases hfield
          | cons f fs =>
              cases hpart
              cases hfield
              exact .here hplace h
  | succ i ih =>
      cases parts with
      | nil => cases hpart
      | cons first parts =>
          cases fs with
          | nil => cases hfield
          | cons f fs => exact .there (ih hpart hfield)

section

variable {p q : Place} {part : Part} {v : Json}

/-- A field that stands twice is refused. -/
theorem read?_repeated {members : List (Option String × Json)}
    (hpart : part ∈ p.parts (.object members))
    (h : 1 < members.countP fun m => m.1 = some part.name) : p.read? (.object members) = none := by
  refine Place.read?_eq_none ?_ fun fs hfs => ?_
  · rintro q rfl
    cases hpart
  · obtain ⟨i, hi⟩ := List.getElem?_of_mem hpart
    obtain ⟨f, hf, -⟩ := Json.getElem?_fields?_object hfs (p.getElem?_names hi)
    rw [Json.member?_eq_none h] at hf
    cases hf

/-- What is refused in a member is refused as a whole. -/
theorem read?_member_eq_none {members : List (Option String × Json)}
    (hpart : part ∈ p.parts (.object members)) (hplace : part.place = some q)
    (hmem : (some part.name, v) ∈ members) (h : q.read? v = none) :
    p.read? (.object members) = none := by
  refine Place.read?_eq_none ?_ fun fs hfs => ?_
  · rintro q rfl
    cases hpart
  · obtain ⟨i, hi⟩ := List.getElem?_of_mem hpart
    obtain ⟨f, hf, hfield⟩ := Json.getElem?_fields?_object hfs (p.getElem?_names hi)
    rw [Json.eq_of_member? hf hmem] at hfield
    exact .of_getElem? hi hplace hfield h

theorem read?_field_eq_none {elements : List Json} {i : Nat}
    (hpart : (p.parts (.array elements))[i]? = some part) (hplace : part.place = some q)
    (hmem : elements[i]? = some v) (h : q.read? v = none) : p.read? (.array elements) = none := by
  refine Place.read?_eq_none ?_ fun fs hfs => ?_
  · rintro q rfl
    cases hpart
  · exact .of_getElem? hpart hplace (Json.getElem?_fields?_array hfs hmem) h

/-- What is refused in an element is refused as a whole. -/
theorem read?_element_eq_none {elements : List Json} (hmem : v ∈ elements) (h : q.read? v = none) :
    (Place.list q).read? (.array elements) = none := by
  refine Option.eq_none_iff_forall_ne_some.2 fun values hvalues => ?_
  obtain ⟨value, hvalue⟩ := exists_of_mapM_eq_some hvalues v hmem
  rw [h] at hvalue
  cases hvalue

end

/-- A value with a repeated name is not read. -/
theorem Repeats.read?_eq_none {p : Place} {v : Json} (h : Repeats p v) : p.read? v = none := by
  induction h with
  | here hpart h => exact read?_repeated hpart h
  | member hpart hplace hmem h ih => exact read?_member_eq_none hpart hplace hmem ih
  | field hpart hplace hmem h ih => exact read?_field_eq_none hpart hplace hmem ih
  | element hmem h ih => exact read?_element_eq_none hmem ih

/-! ## Texts -/

/-- Loading a text is reading the value that it spells. -/
theorem Scene.load?_eq {text : String} {v : Json} (h : v.IsSpelledBy text) :
    load? text = ofJson? v := by
  rw [load?, Json.parse?_eq_some_iff.2 h, Option.bind_some]

/-- Scenes that are respelled any number of times are the same scene. -/
theorem Respelled.ofJson?_eq {v w : Json} (h : Relation.EqvGen (Respelled .scene) v w) :
    Scene.ofJson? v = Scene.ofJson? w := by
  induction h with
  | rel _ _ h => exact h.read?_eq
  | refl => rfl
  | symm _ _ _ ih => exact ih.symm
  | trans _ _ _ _ _ ih ih' => exact ih.trans ih'

/-- **Respelled scenes**: a text is loaded by the value that it spells.  The
texts of two values that differ by any number of changes are loaded as the same
scene, and a text in which a known name is repeated is not loaded. -/
theorem Scene.load?_respelled :
    (∀ text s, load? text = some s ↔ ∃ v : Json, v.IsSpelledBy text ∧ ofJson? v = some s) ∧
    (∀ text text' (v v' : Json), v.IsSpelledBy text → v'.IsSpelledBy text' →
      Relation.EqvGen (Respelled .scene) v v' → load? text' = load? text) ∧
    ∀ text (v : Json), v.IsSpelledBy text → Repeats .scene v → load? text = none := by
  refine ⟨?_, ?_, ?_⟩
  · intro text s
    rw [load?, Option.bind_eq_some_iff]
    simp only [Json.parse?_eq_some_iff]
  · intro text text' v v' hv hv' h
    rw [load?_eq hv, load?_eq hv', Respelled.ofJson?_eq h]
  · intro text v hv h
    rw [load?_eq hv]
    exact h.read?_eq_none

/-- A scene of one shape, whose geometry has the members. -/
def Scene.recordOfShape (members : List (String × Json)) : Json :=
  .ofMembers [("shapes", .array [.ofMembers [("geometry", .ofMembers members)]])]

theorem Scene.isWritable_recordOfShape {members : List (String × Json)}
    (h : ∀ member ∈ members, member.2.IsWritable) : (recordOfShape members).IsWritable := by
  have hshape : (Json.ofMembers [("geometry", .ofMembers members)]).IsWritable :=
    Json.isWritable_ofMembers (List.forall_mem_singleton.2 (Json.isWritable_ofMembers h))
  exact Json.isWritable_ofMembers (List.forall_mem_singleton.2 ⟨hshape, trivial⟩)

/-- A change of the geometry is a change of the scene. -/
theorem Respelled.recordOfShape {members members' : List (String × Json)}
    (h : Respelled .geometry (.ofMembers members) (.ofMembers members')) :
    Respelled .scene (Scene.recordOfShape members) (Scene.recordOfShape members') := by
  have hshape := @Respelled.member .shape _ (.required "geometry" (some .geometry)) _ _ [] []
    List.mem_cons_self rfl h
  have hshapes := @Respelled.element .shape _ _ [] [] hshape
  exact @Respelled.member .scene _
    (.optional "shapes" (some (.list .shape)) (Json.asList? Shape.ofJson?) []) _ _ [] []
    List.mem_cons_self rfl hshapes

/-- The changes of a part, one after the other, are changes of the whole. -/
theorem Respelled.eqvGen_map {p q : Place} {whole : Json → Json} {v w : Json}
    (hwhole : ∀ v w, Respelled p v w → Respelled q (whole v) (whole w))
    (h : Relation.EqvGen (Respelled p) v w) :
    Relation.EqvGen (Respelled q) (whole v) (whole w) := by
  induction h with
  | rel v w h => exact .rel _ _ (hwhole v w h)
  | refl v => exact .refl _
  | symm _ _ _ ih => exact .symm _ _ ih
  | trans _ _ _ _ _ ih ih' => exact .trans _ _ _ ih ih'

/-- A scene of one point. -/
def Scene.recordOfPoint (point : Json) : Json :=
  recordOfShape [("kind", .ofString "point"), ("points", .array [point])]

theorem Respelled.recordOfPoint {v w : Json} (h : Respelled .point v w) :
    Respelled .scene (Scene.recordOfPoint v) (Scene.recordOfPoint w) := by
  have hpart : Part.required "points" (some (.list .point)) ∈ Place.parts .geometry
      (.ofMembers [("kind", .ofString "point"), ("points", .array [v])]) :=
    List.mem_cons_of_mem _ List.mem_cons_self
  exact recordOfShape (@Respelled.member .geometry _ _ _ _ [(some "kind", .ofString "point")] []
    hpart rfl (@Respelled.element .point _ _ [] [] h))

/-- A point is written as its two coordinates, or with their names in any order,
and a third number that is not known. -/
theorem Scene.load?_respelled_point :
    load? (recordOfPoint (.array [.ofNat 300, .ofNat 200])).print =
      load? (recordOfPoint
        (.ofMembers [("z", .ofNat 0), ("y", .ofNat 200), ("x", .ofNat 300)])).print := by
  have hwritable {p : Json} (h : p.IsWritable) : (recordOfPoint p).IsWritable :=
    isWritable_recordOfShape (List.forall_mem_cons.2
      ⟨Json.isWritable_ofString _, List.forall_mem_singleton.2 ⟨h, trivial⟩⟩)
  have hnamed : (Json.ofMembers
      [("z", .ofNat 0), ("y", .ofNat 200), ("x", .ofNat 300)]).IsWritable :=
    Json.isWritable_ofMembers (by simp [Json.isWritable_ofNat])
  have hlisted : (Json.array [.ofNat 300, .ofNat 200]).IsWritable :=
    ⟨Json.isWritable_ofNat _, Json.isWritable_ofNat _, trivial⟩
  have hpoint := @Respelled.listed_among .point [.ofNat 300, .ofNat 200]
    [(some "z", .ofNat 0), (some "y", .ofNat 200), (some "x", .ofNat 300)]
    [(some "z", .ofNat 0)] trivial rfl (.cons _ (.swap ..))
    (List.forall_mem_singleton.2 ⟨"z", rfl, by decide, by decide +kernel⟩)
  exact load?_respelled.2.1 _ _ _ _
    (Json.parse?_eq_some_iff.1 (Json.parse?_print (hwritable hnamed)))
    (Json.parse?_eq_some_iff.1 (Json.parse?_print (hwritable hlisted)))
    (Respelled.eqvGen_map (fun _ _ => Respelled.recordOfPoint) hpoint)

/-- Arrays inside each other, `n` around the innermost one. -/
def Json.nested : (n : Nat) → Json
  | 0 => .array []
  | n + 1 => .array [nested n]

theorem Json.isWritable_nested (n : Nat) : (nested n).IsWritable := by
  induction n with
  | zero => trivial
  | succ n ih => exact ⟨ih, trivial⟩

/-- A member that no line knows, without any number, is refused if it nests too
deeply: the values of a geometry are kept until its kind is known. -/
theorem Scene.load?_nested :
    load? (recordOfShape [("kind", .ofString "line"), ("points", .array [])]).print =
        some ⟨[⟨.figure .line [], .default⟩], [], .default⟩ ∧
      "u" ∉ (ShapeKind.figure .line).fieldNames ∧
      load? (recordOfShape [("kind", .ofString "line"), ("points", .array []),
        ("u", Json.nested 123)]).print = none := by
  have hplain : (recordOfShape [("kind", .ofString "line"), ("points", .array [])]).IsWritable :=
    isWritable_recordOfShape (List.forall_mem_cons.2
      ⟨Json.isWritable_ofString _, List.forall_mem_singleton.2 trivial⟩)
  have hnested : (recordOfShape [("kind", .ofString "line"), ("points", .array []),
      ("u", Json.nested 123)]).IsWritable :=
    isWritable_recordOfShape (List.forall_mem_cons.2 ⟨Json.isWritable_ofString _,
      List.forall_mem_cons.2 ⟨trivial, List.forall_mem_singleton.2 (Json.isWritable_nested 123)⟩⟩)
  rw [load?, load?, Json.parse?_print hplain, Json.parse?_print hnested]
  exact ⟨by decide +kernel, by decide, by decide +kernel⟩

end GlutSketch
