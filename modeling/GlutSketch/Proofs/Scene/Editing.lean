import GlutSketch.Scene
import Mathlib.Data.List.Nodup

/-!
# GlutSketch.Proofs.Scene.Editing

Editing sessions.  A session starts from a scene whose functions have distinct
ids and goes on by changes.  In every scene that it passes through the ids are
distinct, so that an id stands for one function, whichever way it is looked up.

* `Scene.apply`, `Scene.Reaches` -- one change, and the scenes of a session.
* `Scene.nodup_ids_apply`, `Scene.nodup_ids_of_reaches` -- ids stay distinct.
* `Scene.Addressable` -- what may be done with an id, and what it leaves alone.
* `Scene.addressable_of_reaches` -- every scene of a session is addressable.
-/

namespace GlutSketch

/-! ## Changes -/

/-- A change to a scene. -/
inductive Change where
  | addShape (shape : Shape)
  | addFunction
  | editFunction (id : FunctionId) (e : FunctionEdit)
  | removeFunction (id : FunctionId)
  | setViewport (v : Viewport)

@[simp] theorem PlotFunction.edit_id (f : PlotFunction) (e : FunctionEdit) : (f.edit e).id = f.id :=
  rfl

namespace Scene

/-- The scene after a change. -/
def apply (s : Scene) : Change → Scene
  | .addShape shape => s.addShape shape
  | .addFunction => s.addFunction
  | .editFunction id e => s.editFunction id e
  | .removeFunction id => s.removeFunction id
  | .setViewport v => s.setViewport v

/-- The ids of the functions, in the order of the list. -/
def ids (s : Scene) : List FunctionId := s.functions.map (·.id)

/-- No id is the greatest of 64 bits, so that there is one above all of them. -/
def HasFreshId (s : Scene) : Prop := ∀ id ∈ s.ids, id.value.toNat + 1 < UInt64.size

instance (s : Scene) : Decidable s.HasFreshId := inferInstanceAs (Decidable (∀ id ∈ s.ids, _))

/-- A change can be made at any time, but a function is added only while ids
last. -/
def Admits (s : Scene) : Change → Prop
  | .addFunction => s.HasFreshId
  | _ => True

/-- The scenes of an editing session. -/
inductive Reaches (start : Scene) : Scene → Prop
  | refl : Reaches start start
  | change {s : Scene} (h : Reaches start s) (c : Change) (hc : s.Admits c) :
      Reaches start (s.apply c)

/-! ## Lookups -/

section Lookups

variable {s : Scene} {id : FunctionId} {i : Nat}

/-- The function of an id is the one at its place. -/
theorem function?_eq (s : Scene) (id : FunctionId) :
    s.function? id = (s.position? id).bind fun i => s.functions[i]? :=
  List.find?_eq_bind_findIdx?_getElem?

/-- An id has no position exactly if no function has it. -/
theorem position?_eq_none_iff : s.position? id = none ↔ id ∉ s.ids := by
  simp [position?, ids, List.findIdx?_eq_none_iff]

/-- A lookup fails exactly if no function has the id. -/
theorem function?_eq_none_iff : s.function? id = none ↔ id ∉ s.ids := by
  simp [function?, ids]

/-- Where ids are distinct, the first function with an id is the only one. -/
theorem position?_eq_some_iff (h : s.ids.Nodup) :
    s.position? id = some i ↔ s.ids[i]? = some id := by
  have hposition : s.position? id = s.ids.findIdx? fun id' => id' = id := by
    simp [position?, ids, Function.comp_def]
  rw [hposition, List.findIdx?_eq_some_iff_getElem, List.getElem?_eq_some_iff]
  constructor
  · intro ⟨hi, hid, _⟩
    exact ⟨hi, by simpa using hid⟩
  · intro ⟨hi, hid⟩
    refine ⟨hi, by simpa using hid, fun j hj hsame => ?_⟩
    have heq : s.ids[j] = s.ids[i] := by simpa [hid] using hsame
    exact absurd (h.getElem_inj_iff.1 heq) (Nat.ne_of_lt hj)

end Lookups

/-! ## One change -/

/-! ### New functions -/

/-- The fold finds the greatest id, or what it started from. -/
theorem greatest_spec (fs : List PlotFunction) (m : UInt64) :
    let greatest := fs.foldl (fun greatest f => max greatest f.id.value) m
    m ≤ greatest ∧ (∀ f ∈ fs, f.id.value ≤ greatest) ∧
      (greatest = m ∨ ∃ f ∈ fs, greatest = f.id.value) := by
  induction fs generalizing m with
  | nil => simp
  | cons f fs ih =>
      have hmax : max m f.id.value = if m ≤ f.id.value then f.id.value else m := rfl
      have htotal : m ≤ f.id.value ∨ f.id.value ≤ m := UInt64.le_total _ _
      have hrest := ih (max m f.id.value)
      simp only [List.foldl_cons, List.forall_mem_cons, List.exists_mem_cons_iff]
      grind [UInt64.le_trans]

/-- A new id is above all others. -/
theorem lt_nextId {s : Scene} (h : s.HasFreshId) : ∀ id ∈ s.ids, id.value < s.nextId.value := by
  have hspec := greatest_spec s.functions 0
  unfold nextId
  generalize s.functions.foldl (fun greatest f => max greatest f.id.value) 0 = greatest at hspec
  have hroom : greatest.toNat + 1 < UInt64.size := by
    rcases hspec.2.2 with hzero | ⟨f, hf, hid⟩
    · rw [hzero]
      decide
    · rw [hid]
      exact h _ (List.mem_map_of_mem hf)
  have hnext : (greatest + 1).toNat = greatest.toNat + 1 := by
    rw [UInt64.toNat_add]
    exact Nat.mod_eq_of_lt hroom
  intro id hid
  obtain ⟨f, hf, rfl⟩ := List.mem_map.1 hid
  have hle : f.id.value.toNat ≤ greatest.toNat := hspec.2.1 f hf
  rw [UInt64.lt_iff_toNat_lt, hnext]
  omega

/-- A fresh id is that of no function. -/
theorem nextId_notMem_ids {s : Scene} (h : s.HasFreshId) : s.nextId ∉ s.ids :=
  fun hmem => UInt64.lt_irrefl _ (lt_nextId h _ hmem)

/-- A new function comes last, with the fresh id. -/
theorem ids_addFunction (s : Scene) : s.addFunction.ids = s.ids ++ [s.nextId] := by
  simp [addFunction, ids, newFunction]

/-! ### Edits -/

/-- Where ids are distinct, editing the first function with an id edits all of
them. -/
theorem editFirst_eq_map {id : FunctionId} {e : FunctionEdit} {fs : List PlotFunction}
    (h : (fs.map (·.id)).Nodup) :
    editFirst id e fs = fs.map fun f => if f.id = id then f.edit e else f := by
  induction fs with
  | nil => rfl
  | cons f fs ih =>
      rw [List.map_cons, List.nodup_cons] at h
      rw [editFirst, List.map_cons]
      by_cases hf : f.id = id
      · have hothers : ∀ g ∈ fs, (if g.id = id then g.edit e else g) = g := by
          intro g hg
          have hg' : g.id ≠ id := fun hid => h.1 (hf ▸ hid ▸ List.mem_map_of_mem hg)
          rw [if_neg hg']
        rw [if_pos hf, if_pos hf, List.map_congr_left hothers, List.map_id']
      · rw [if_neg hf, if_neg hf, ih h.2]

/-- An edit changes the function of an id and no other. -/
theorem editFunction_eq {s : Scene} (h : s.ids.Nodup) (id : FunctionId) (e : FunctionEdit) :
    s.editFunction id e =
      { s with functions := s.functions.map fun f => if f.id = id then f.edit e else f } := by
  rw [editFunction, editFirst_eq_map h]

/-- Editing changes no id. -/
theorem ids_editFunction {s : Scene} (h : s.ids.Nodup) (id : FunctionId) (e : FunctionEdit) :
    (s.editFunction id e).ids = s.ids := by
  have hid : ∀ f : PlotFunction, (if f.id = id then f.edit e else f).id = f.id := by
    intro f
    split <;> simp
  simp [editFunction_eq h, ids, Function.comp_def, hid]

/-- The edited function is found changed, and every other one as it was. -/
theorem function?_editFunction {s : Scene} (h : s.ids.Nodup) (id : FunctionId) (e : FunctionEdit) :
    (s.editFunction id e).function? id = (s.function? id).map (·.edit e) := by
  have hplace : (s.editFunction id e).position? id = s.position? id := by
    have hnodup : (s.editFunction id e).ids.Nodup := by rwa [ids_editFunction h]
    ext i
    rw [position?_eq_some_iff hnodup, position?_eq_some_iff h, ids_editFunction h]
  rw [function?_eq, hplace, function?_eq]
  cases hi : s.position? id with
  | none => rfl
  | some i =>
      have hid := (position?_eq_some_iff h).1 hi
      rw [ids, List.getElem?_map] at hid
      obtain ⟨f, hf, hfid⟩ := Option.map_eq_some_iff.1 hid
      simp [editFunction_eq h, hf, hfid]

/-! ### Removals -/

/-- Where ids are distinct, the first function with an id is the only one to be
removed. -/
theorem eraseP_eq_filter {id : FunctionId} {fs : List PlotFunction}
    (h : (fs.map (·.id)).Nodup) :
    (fs.eraseP fun f => f.id = id) = fs.filter fun f => f.id ≠ id := by
  induction fs with
  | nil => rfl
  | cons f fs ih =>
      rw [List.map_cons, List.nodup_cons] at h
      by_cases hf : f.id = id
      · have hothers : ∀ g ∈ fs, g.id ≠ id := fun g hg hid =>
          h.1 (hf ▸ hid ▸ List.mem_map_of_mem hg)
        rw [List.eraseP_cons_of_pos (by simpa using hf),
          List.filter_cons_of_neg (by simpa using hf),
          List.filter_eq_self.2 (by simpa using hothers)]
      · rw [List.eraseP_cons_of_neg (by simpa using hf),
          List.filter_cons_of_pos (by simpa using hf), ih h.2]

/-- The function of an id is taken out, and the others stay in order. -/
theorem takeFunction_eq {s : Scene} (h : s.ids.Nodup) (id : FunctionId) :
    s.takeFunction id =
      (s.function? id, { s with functions := s.functions.filter fun f => f.id ≠ id }) := by
  rw [takeFunction, function?_eq, ← eraseP_eq_filter h, List.eraseP_eq_eraseIdx, ← position?]
  cases s.position? id <;> rfl

/-- A function that is taken away is gone. -/
theorem id_notMem_ids_takeFunction {s : Scene} (h : s.ids.Nodup) (id : FunctionId) :
    id ∉ (s.takeFunction id).2.ids := by
  simp [takeFunction_eq h, ids]

/-- Removing a function keeps the order of the others. -/
theorem ids_removeFunction_sublist {s : Scene} (h : s.ids.Nodup) (id : FunctionId) :
    (s.removeFunction id).ids.Sublist s.ids := by
  rw [removeFunction, takeFunction_eq h]
  exact List.filter_sublist.map _

/-! ## Sessions -/

/-- Every change keeps ids distinct. -/
theorem nodup_ids_apply {s : Scene} (h : s.ids.Nodup) (c : Change) (hc : s.Admits c) :
    (s.apply c).ids.Nodup := by
  cases c with
  | addShape shape => exact h
  | addFunction =>
      have hnew : (s.ids ++ [s.nextId]).Nodup :=
        List.nodup_append'.2 ⟨h, List.nodup_singleton _, by simpa using nextId_notMem_ids hc⟩
      rwa [← ids_addFunction] at hnew
  | editFunction id e => exact (ids_editFunction h id e).symm ▸ h
  | removeFunction id => exact h.sublist (ids_removeFunction_sublist h id)
  | setViewport v => exact h

/-- Ids are distinct in every scene of a session. -/
theorem nodup_ids_of_reaches {start s : Scene} (hstart : start.ids.Nodup) (h : start.Reaches s) :
    s.ids.Nodup := by
  induction h with
  | refl => exact hstart
  | change _ c hc ih => exact nodup_ids_apply ih c hc

/-- What may be done with an id, and what that leaves alone. -/
structure Addressable (s : Scene) : Prop where
  /-- No id is given twice. -/
  distinct : s.ids.Nodup
  /-- A new function comes last and has an id above all others. -/
  added : s.HasFreshId → (∀ id ∈ s.ids, id.value < s.nextId.value) ∧
    ∃ f, f.id = s.nextId ∧ s.addFunction = { s with functions := s.functions ++ [f] }
  /-- The place of an id is the place of the function that has it. -/
  position : ∀ id i, s.position? id = some i ↔ ∃ f, s.functions[i]? = some f ∧ f.id = id
  /-- The function of an id is the one at its place. -/
  function : ∀ id, s.function? id = (s.position? id).bind fun i => s.functions[i]?
  /-- An edit changes the function of an id and nothing else, least of all an
  id. -/
  edited : ∀ id e, (s.editFunction id e).function? id = (s.function? id).map (·.edit e) ∧
    s.editFunction id e =
      { s with functions := s.functions.map fun f => if f.id = id then f.edit e else f } ∧
    (s.editFunction id e).ids = s.ids
  /-- A removal gives back the function of an id, which is unknown afterwards;
  the other functions stay as they are and in order. -/
  taken : ∀ id, s.takeFunction id =
      (s.function? id, { s with functions := s.functions.filter fun f => f.id ≠ id }) ∧
    id ∉ (s.takeFunction id).2.ids
  /-- An unknown id is not found, and nothing is done with it. -/
  unknown : ∀ id ∉ s.ids, s.function? id = none ∧ s.position? id = none ∧
    (∀ e, s.editFunction id e = s) ∧ s.takeFunction id = (none, s)

/-- Distinct ids are all that it takes. -/
theorem addressable_of_nodup {s : Scene} (h : s.ids.Nodup) : s.Addressable where
  distinct := h
  added := fun hfresh => ⟨lt_nextId hfresh, s.newFunction, rfl, rfl⟩
  position := by
    intro id i
    rw [position?_eq_some_iff h, ids, List.getElem?_map, Option.map_eq_some_iff]
  function := s.function?_eq
  edited := fun id e => ⟨function?_editFunction h id e, editFunction_eq h id e,
    ids_editFunction h id e⟩
  taken := fun id => ⟨takeFunction_eq h id, id_notMem_ids_takeFunction h id⟩
  unknown := by
    intro id hid
    have hothers : ∀ f ∈ s.functions, f.id ≠ id := fun f hf heq =>
      hid (heq ▸ List.mem_map_of_mem hf)
    have hedit : ∀ e, ∀ f ∈ s.functions, (if f.id = id then f.edit e else f) = f :=
      fun e f hf => if_neg (hothers f hf)
    refine ⟨function?_eq_none_iff.2 hid, position?_eq_none_iff.2 hid, fun e => ?_, ?_⟩
    · rw [editFunction_eq h, List.map_congr_left (hedit e), List.map_id']
    · rw [takeFunction_eq h, function?_eq_none_iff.2 hid,
        List.filter_eq_self.2 (by simpa using hothers)]

/-- **Sessions**: in every scene of a session that starts from the empty scene,
from the starter scene or from any other with distinct ids, an id stands for one
function. -/
theorem addressable_of_reaches {start s : Scene}
    (hstart : start = .default ∨ (∃ v, start = .starter v) ∨ start.ids.Nodup)
    (h : start.Reaches s) : s.Addressable := by
  have hnodup : start.ids.Nodup := by
    rcases hstart with rfl | ⟨v, rfl⟩ | hstart
    · exact List.nodup_nil
    · show [FunctionId.mk 1, FunctionId.mk 2].Nodup
      decide
    · exact hstart
  exact addressable_of_nodup (nodup_ids_of_reaches hnodup h)

/-- The starter scene, its sine wave removed, and a function added to it. -/
theorem addressable_starter_remove_add :
    (Scene.starter .default).Reaches
        (((Scene.starter .default).apply (.removeFunction ⟨1⟩)).apply .addFunction) ∧
      (((Scene.starter .default).apply (.removeFunction ⟨1⟩)).apply .addFunction).Addressable := by
  have hfresh : ((Scene.starter .default).apply (.removeFunction ⟨1⟩)).HasFreshId := by decide
  have hreaches := (Reaches.refl.change (.removeFunction ⟨1⟩) trivial).change .addFunction hfresh
  exact ⟨hreaches, addressable_of_reaches (.inr (.inl ⟨.default, rfl⟩)) hreaches⟩

end Scene

end GlutSketch
