import GlutSketch.Proofs.Json.Record

/-!
# GlutSketch.Proofs.Json.Members

What the fields of a record depend on.  Neither the order of the members nor a
member with an unknown name counts, and if one value is put in the place of
another, only its field changes.

* `fields?_perm`, `fields?_cons_of_notMem` -- objects with the same fields.
* `Agree`, `fields?_object_rel`, `fields?_array_replaced` -- fields that agree
  one by one.
* `member?_eq_none` -- a name that is repeated.
* `isSound_object`, `isSound_array` -- the soundness of a container, part by
  part.
-/

namespace GlutSketch.Json

/-! ## Single members -/

section

variable {name other : String} {v : Json} {members members' : List (Option String × Json)}

/-- A member is found wherever it stands. -/
theorem member?_perm (name : String) (h : members.Perm members') :
    member? name members = member? name members' := by
  have hfilter := h.filter fun m => decide (m.1 = some name)
  unfold member?
  generalize members.filter (fun m => decide (m.1 = some name)) = found at hfilter ⊢
  generalize members'.filter (fun m => decide (m.1 = some name)) = found' at hfilter ⊢
  rcases found with _ | ⟨m, _ | ⟨next, more⟩⟩
  · rw [List.nil_perm.1 hfilter]
  · rw [List.singleton_perm.1 hfilter]
  · rcases found' with _ | ⟨m', _ | ⟨next', more'⟩⟩
    · exact absurd hfilter.length_eq (by simp)
    · exact absurd hfilter.length_eq (by simp)
    · rfl

/-- The other members do not matter. -/
theorem member?_append_of_ne (h : other ≠ name) (before after : List (Option String × Json)) :
    member? other (before ++ (some name, v) :: after) = member? other (before ++ after) := by
  have hne : ¬ (some name = some other) := fun heq => h (Option.some.inj heq).symm
  simp [member?, List.filter_append, hne]

theorem filter_eq_nil_of_absent (h : ∀ m ∈ members, m.1 ≠ some name) :
    members.filter (fun m => decide (m.1 = some name)) = [] :=
  List.filter_eq_nil_iff.2 fun m hm => by simpa using h m hm

/-- A member with another name is not found. -/
theorem member?_of_absent (h : ∀ m ∈ members, m.1 ≠ some name) :
    member? name members = some none := by
  rw [member?, filter_eq_nil_of_absent h]

theorem member?_cons_of_absent (v : Json) (h : ∀ m ∈ members, m.1 ≠ some name) :
    member? name ((some name, v) :: members) = some (some v) := by
  rw [member?, List.filter_cons_of_pos (by simp), filter_eq_nil_of_absent h]

/-- A name that is repeated has no value. -/
theorem member?_eq_none (h : 1 < members.countP fun m => m.1 = some name) :
    member? name members = none := by
  rw [List.countP_eq_length_filter] at h
  unfold member?
  generalize members.filter (fun m => decide (m.1 = some name)) = found at h
  rcases found with _ | ⟨m, _ | ⟨next, more⟩⟩
  · exact absurd h (by simp)
  · exact absurd h (by simp)
  · rfl

/-- A member that is there is the one that is found. -/
theorem eq_of_member? {f : Option Json} (h : member? name members = some f)
    (hmem : (some name, v) ∈ members) : f = some v := by
  have hfound : (some name, v) ∈ members.filter fun m => decide (m.1 = some name) :=
    List.mem_filter.2 ⟨hmem, by simp⟩
  unfold member? at h
  generalize members.filter (fun m => decide (m.1 = some name)) = found at h hfound
  rcases found with _ | ⟨m, _ | ⟨next, more⟩⟩
  · cases hfound
  · cases List.mem_singleton.1 hfound
    cases h
    rfl
  · cases h

/-- One value in the place of another. -/
theorem member?_replaced (name : String) (v w : Json)
    (before after : List (Option String × Json)) :
    Option.Rel (fun f f' => f = some v ∧ f' = some w)
      (member? name (before ++ (some name, v) :: after))
      (member? name (before ++ (some name, w) :: after)) := by
  simp only [member?, List.filter_append, List.filter_cons, decide_true, if_true]
  generalize before.filter (fun m => decide (m.1 = some name)) = front
  generalize after.filter (fun m => decide (m.1 = some name)) = back
  rcases front with _ | ⟨m, _ | ⟨next, more⟩⟩
  · cases back with
    | nil => exact .some ⟨rfl, rfl⟩
    | cons => exact .none
  · exact .none
  · exact .none

end

/-! ## Fields one by one -/

/-- Two lists of fields agree, part by part. -/
inductive Agree {ι : Type} (R : ι → Option Json → Option Json → Prop) :
    List ι → List (Option Json) → List (Option Json) → Prop
  | nil : Agree R [] [] []
  | cons {i is f f' fs fs'} (h : R i f f') (hs : Agree R is fs fs') :
      Agree R (i :: is) (f :: fs) (f' :: fs')

section

variable {ι : Type} {R : ι → Option Json → Option Json → Prop} {is : List ι} {i : ι}
  {f f' : Option Json} {fs before after : List (Option Json)}

theorem Agree.refl (hR : ∀ i f, R i f f) (h : is.length = fs.length) : Agree R is fs fs := by
  induction is generalizing fs with
  | nil =>
      cases fs with
      | nil => exact .nil
      | cons f fs => cases h
  | cons i is ih =>
      cases fs with
      | nil => cases h
      | cons f fs => exact .cons (hR i f) (ih (Nat.succ.inj h))

/-- One field in the place of another. -/
theorem Agree.replaced (hR : ∀ i f, R i f f) (h : R i f f') (hi : is[before.length]? = some i)
    (hlength : is.length = (before ++ f :: after).length) :
    Agree R is (before ++ f :: after) (before ++ f' :: after) := by
  induction before generalizing is with
  | nil =>
      cases is with
      | nil => cases hi
      | cons j is =>
          cases hi
          exact .cons h (.refl hR (Nat.succ.inj hlength))
  | cons g before ih =>
      cases is with
      | nil => cases hi
      | cons j is => exact .cons (hR j g) (ih hi (Nat.succ.inj hlength))

/-- Lookups that agree give lists that agree. -/
theorem Agree.mapM {g g' : ι → Option (Option Json)} (h : ∀ i ∈ is, Option.Rel (R i) (g i) (g' i)) :
    Option.Rel (Agree R is) (is.mapM g) (is.mapM g') := by
  induction is with
  | nil => exact .some .nil
  | cons i is ih =>
      obtain ⟨hi, his⟩ := List.forall_mem_cons.1 h
      have hrest := ih his
      rw [List.mapM_cons, List.mapM_cons]
      generalize g i = f, g' i = f' at hi
      generalize is.mapM g = fs, is.mapM g' = fs' at hrest
      cases hi with
      | none => exact .none
      | some hi =>
          cases hrest with
          | none => exact .none
          | some hrest => exact .some (.cons hi hrest)

end

/-! ## Records -/

section

variable {ι : Type} {R : ι → Option Json → Option Json → Prop} {is : List ι} {i : ι}
  {nameOf : ι → String} {name : String} {names : List String} {v w : Json}
  {members members' : List (Option String × Json)} {before after : List Json}

theorem length_of_mapM_eq_some {g : String → Option (Option Json)} {fs : List (Option Json)}
    (h : names.mapM g = some fs) : fs.length = names.length := by
  induction names generalizing fs with
  | nil =>
      cases h
      rfl
  | cons name names ih =>
      rw [List.mapM_cons] at h
      obtain ⟨f, -, h⟩ := Option.bind_eq_some_iff.1 h
      obtain ⟨fs', hfs, h⟩ := Option.bind_eq_some_iff.1 h
      cases h
      rw [List.length_cons, List.length_cons, ih hfs]

/-- A record has as many fields as names. -/
theorem length_fields? {fs : List (Option Json)} (h : v.fields? names = some fs) :
    fs.length = names.length := by
  unfold fields? at h
  split at h
  · split at h
    · exact length_of_mapM_eq_some h
    · cases h
  · split at h
    · next hle =>
        cases h
        rw [List.length_append, List.length_map, List.length_replicate]
        omega
    · cases h
  · cases h

/-- A field of an object is the member under its name. -/
theorem getElem?_fields?_object {fs : List (Option Json)} {i : Nat}
    (h : (object members).fields? names = some fs) (hname : names[i]? = some name) :
    ∃ f, member? name members = some f ∧ fs[i]? = some f := by
  have hmapM : names.mapM (member? · members) = some fs := by
    simp only [fields?] at h
    split at h
    · exact h
    · cases h
  clear h
  induction names generalizing fs i with
  | nil => cases hname
  | cons first names ih =>
      rw [List.mapM_cons] at hmapM
      obtain ⟨f, hf, hmapM⟩ := Option.bind_eq_some_iff.1 hmapM
      obtain ⟨fs', hfs, hmapM⟩ := Option.bind_eq_some_iff.1 hmapM
      cases hmapM
      cases i with
      | zero =>
          cases hname
          exact ⟨f, hf, rfl⟩
      | succ i =>
          rw [List.getElem?_cons_succ] at hname
          obtain ⟨g, hg, hrest⟩ := ih hname hfs
          exact ⟨g, hg, hrest⟩

/-- A field of an array is the element in its position. -/
theorem getElem?_fields?_array {elements : List Json} {fs : List (Option Json)} {i : Nat}
    (h : (array elements).fields? names = some fs) (hmem : elements[i]? = some v) :
    fs[i]? = some (some v) := by
  have hlt : i < (elements.map some).length := by
    rw [List.length_map]
    exact (List.getElem?_eq_some_iff.1 hmem).1
  simp only [fields?] at h
  split at h
  · cases h
    rw [List.getElem?_append_left hlt, List.getElem?_map, hmem]
    rfl
  · cases h

/-- The order of the members does not matter. -/
theorem fields?_perm (h : members.Perm members') :
    (object members).fields? names = (object members').fields? names := by
  have hmember : (member? · members) = (member? · members') :=
    funext fun name => member?_perm name h
  simp only [fields?, h.all_eq, hmember]

theorem mapM_congr {g g' : String → Option (Option Json)} (h : ∀ name ∈ names, g name = g' name) :
    names.mapM g = names.mapM g' := by
  induction names with
  | nil => rfl
  | cons name names ih =>
      rw [List.mapM_cons, List.mapM_cons, h name List.mem_cons_self,
        ih fun other hother => h other (List.mem_cons_of_mem name hother)]

/-- A member that no field asks for does not matter. -/
theorem fields?_cons_of_notMem (v : Json) (h : name ∉ names) :
    (object ((some name, v) :: members)).fields? names = (object members).fields? names := by
  have hmember : ∀ other ∈ names,
      member? other ((some name, v) :: members) = member? other members :=
    fun other hother => member?_append_of_ne (by rintro rfl; exact h hother) [] members
  simp only [fields?, List.all_cons, Option.isSome_some, Bool.true_and,
    mapM_congr hmember]

/-- The fields of two objects agree if those under each name do. -/
theorem fields?_object_rel
    (hvalid : members.all (·.1.isSome) = members'.all (·.1.isSome))
    (h : ∀ i ∈ is, Option.Rel (R i) (member? (nameOf i) members) (member? (nameOf i) members')) :
    Option.Rel (Agree R is) ((object members).fields? (is.map nameOf))
      ((object members').fields? (is.map nameOf)) := by
  simp only [fields?, ← hvalid, List.mapM_map]
  split
  · exact Agree.mapM h
  · exact .none

/-- One element of an array in the place of another. -/
theorem fields?_array_replaced (hR : ∀ i f, R i f f) (h : R i (some v) (some w))
    (hi : is[before.length]? = some i) :
    Option.Rel (Agree R is) ((array (before ++ v :: after)).fields? (is.map nameOf))
      ((array (before ++ w :: after)).fields? (is.map nameOf)) := by
  have hlength : (before ++ v :: after).length = (before ++ w :: after).length := by simp
  simp only [fields?, ← hlength]
  split
  · next hle =>
      simp only [List.map_append, List.map_cons, List.append_assoc, List.cons_append]
      refine .some (.replaced hR h (by rwa [List.length_map]) ?_)
      rw [List.length_append, List.length_cons, List.length_map] at hle
      simp only [List.length_append, List.length_cons, List.length_map, List.length_replicate]
      omega
  · exact .none

/-- An object with all the fields in their order, and the array of the
fields. -/
theorem fields?_zip {values : List Json} (hnodup : names.Nodup) (h : values.length = names.length) :
    (object (named (names.zip values))).fields? names = (array values).fields? names := by
  have hnames : (names.zip values).map (·.1) = names := List.map_fst_zip (Nat.le_of_eq h.symm)
  have hvalues : (names.zip values).map (·.2) = values := List.map_snd_zip (Nat.le_of_eq h)
  have hfields : (ofMembers (names.zip values)).fields? ((names.zip values).map (·.1)) = _ :=
    fields?_ofMembers (by rwa [hnames])
  rw [hnames, ofMembers_eq] at hfields
  have hsome := congrArg (List.map some) hvalues
  rw [List.map_map] at hsome
  rw [hfields, fields?, if_pos (Nat.le_of_eq h), h, Nat.sub_self, List.replicate_zero,
    List.append_nil, ← hsome]
  rfl

/-! ## Soundness -/

/-- Elements are sound if each of them is. -/
theorem areSound_eq_all (depth : Nat) (elements : List Json) :
    areSound depth elements = elements.all (·.isSound depth) := by
  induction elements with
  | nil => rfl
  | cons v elements ih => rw [areSound, ih, List.all_cons]

/-- Members are sound if each of them is, and its name is a text. -/
theorem areSoundMembers_eq_all (depth : Nat) (members : List (Option String × Json)) :
    areSoundMembers depth members = members.all fun m => m.1.isSome && m.2.isSound depth := by
  induction members with
  | nil => rfl
  | cons m members ih => rw [areSoundMembers, ih, List.all_cons]

/-- The value of a member in the place of another. -/
theorem isSound_object_replaced {depth : Nat} {name : Option String}
    {before after : List (Option String × Json)}
    (h : v.isSound (depth - 1) = w.isSound (depth - 1)) :
    (object (before ++ (name, v) :: after)).isSound depth =
      (object (before ++ (name, w) :: after)).isSound depth := by
  simp only [isSound, areSoundMembers_eq_all, List.all_append, List.all_cons, h]

/-- An element may be replaced by another one that is as sound. -/
theorem isSound_array_replaced {depth : Nat} (h : v.isSound (depth - 1) = w.isSound (depth - 1)) :
    (array (before ++ v :: after)).isSound depth =
      (array (before ++ w :: after)).isSound depth := by
  simp only [isSound, areSound_eq_all, List.all_append, List.all_cons, h]

/-- Soundness does not depend on the order of the members. -/
theorem isSound_perm {depth : Nat} (h : members.Perm members') :
    (object members).isSound depth = (object members').isSound depth := by
  simp only [isSound, areSoundMembers_eq_all, h.all_eq]

/-- A sound member makes nothing worse. -/
theorem isSound_cons {depth : Nat} (name : String) (h : v.isSound (depth - 1)) :
    (object ((some name, v) :: members)).isSound depth = (object members).isSound depth := by
  simp only [isSound, areSoundMembers_eq_all, List.all_cons, h, Option.isSome_some, Bool.true_and]

theorem isSound_zip {depth : Nat} {values : List Json} (h : values.length = names.length) :
    (object (named (names.zip values))).isSound depth = (array values).isSound depth := by
  have hvalues : (names.zip values).map (·.2) = values := List.map_snd_zip (Nat.le_of_eq h)
  have hall : (named (names.zip values)).all (fun m => m.1.isSome && m.2.isSound (depth - 1)) =
      ((names.zip values).map (·.2)).all (·.isSound (depth - 1)) := by
    simp [named, Function.comp_def]
  rw [isSound, isSound, areSoundMembers_eq_all, areSound_eq_all, hall, hvalues]

end

end GlutSketch.Json
