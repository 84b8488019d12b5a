import GlutSketch.Json.Record
import GlutSketch.Proofs.Json.Spelling

/-!
# GlutSketch.Proofs.Json.Record

Fields that are written are found again under their names.

* `fields?_ofMembers` -- an object that has every field once, in order.
* `asUInt64?_ofNat`, `asList?_map` -- whole numbers and lists.
* `reread?` -- a double, written and read: the one field that may change.
-/

namespace GlutSketch.Json

/-! ## Scalars -/

/-- The double as which a double is read after it has been written. -/
def reread? (x : Float) : Option Float := asFloat? (ofFloat x)

/-- A whole number of 64 bits is read back. -/
theorem asUInt64?_ofNat (n : UInt64) : asUInt64? (ofNat n.toNat) = some n := by
  have hvalue := digitsValue_decimalDigits n.toNat
  have hlt : n.toNat < wordLimit := n.toNat_lt
  rw [ofNat, asUInt64?, Number.toUInt64?, if_pos ⟨rfl, ⟨rfl, rfl⟩, by rw [hvalue]; exact hlt⟩,
    hvalue, UInt64.ofNat_toNat]

/-- A list is read element by element. -/
theorem asList?_map {α β : Type} (read : Json → Option β) (write : α → Json) (as : List α) :
    asList? read (array (as.map write)) = as.mapM fun a => read (write a) := by
  rw [asList?, List.mapM_map]
  rfl

/-! ## Records -/

/-- Members with valid names. -/
def named (members : List (String × Json)) : List (Option String × Json) :=
  members.map fun m => (some m.1, m.2)

/-- A written record is an object with a name for each member. -/
theorem ofMembers_eq (members : List (String × Json)) :
    ofMembers members = object (named members) :=
  rfl

/-- No member has a name that is not among the names. -/
theorem filter_eq_nil_of_notMem {name : String} {members : List (String × Json)}
    (h : name ∉ members.map (·.1)) : (named members).filter (·.1 = some name) = [] := by
  rw [List.filter_eq_nil_iff]
  intro member hmember
  obtain ⟨⟨other, v⟩, hmem, rfl⟩ := List.mem_map.1 hmember
  have hne : other ≠ name := by
    rintro rfl
    exact h (List.mem_map.2 ⟨_, hmem, rfl⟩)
  simp [hne]

/-- Where no name is repeated, a member is found under its name. -/
theorem member?_of_mem {members : List (String × Json)} (hnodup : (members.map (·.1)).Nodup)
    {name : String} {v : Json} (hmem : (name, v) ∈ members) :
    member? name (named members) = some (some v) := by
  have hfilter : (named members).filter (·.1 = some name) = [(some name, v)] := by
    unfold named
    induction members with
    | nil => cases hmem
    | cons member members ih =>
        obtain ⟨other, w⟩ := member
        rw [List.map_cons, List.nodup_cons] at hnodup
        cases List.mem_cons.1 hmem with
        | inl h =>
            cases h
            have hothers := filter_eq_nil_of_notMem hnodup.1
            unfold named at hothers
            rw [List.map_cons, List.filter_cons_of_pos (by simp), hothers]
        | inr h =>
            have hne : other ≠ name := by
              rintro rfl
              exact hnodup.1 (List.mem_map.2 ⟨_, h, rfl⟩)
            rw [List.map_cons, List.filter_cons_of_neg (by simpa using hne), ih hnodup.2 h]
  unfold member?
  rw [hfilter]

/-- An object with the members of a record has its fields. -/
theorem fields?_ofMembers {members : List (String × Json)}
    (hnodup : (members.map (·.1)).Nodup) :
    (ofMembers members).fields? (members.map (·.1)) = some (members.map (some ·.2)) := by
  have hnames : (named members).all (·.1.isSome) := by
    simp [named]
  have hfields : ∀ part ⊆ members, (part.map (·.1)).mapM (member? · (named members)) =
      some (part.map (some ·.2)) := by
    intro part hpart
    induction part with
    | nil => rfl
    | cons member part ih =>
        have hfirst := member?_of_mem hnodup (hpart List.mem_cons_self)
        have hothers := ih fun m hm => hpart (List.mem_cons_of_mem _ hm)
        rw [List.map_cons, List.mapM_cons, hfirst, hothers]
        rfl
  rw [ofMembers_eq]
  exact (if_pos hnames).trans (hfields members fun m hm => hm)

/-- An object is sound if the values of its members are. -/
theorem isSound_ofMembers {members : List (String × Json)} {depth : Nat}
    (h : ∀ member ∈ members, member.2.isSound depth) : (ofMembers members).isSound (depth + 1) := by
  have hmembers : areSoundMembers depth (named members) := by
    unfold named
    induction members with
    | nil => rfl
    | cons member members ih =>
        rw [List.map_cons, areSoundMembers, h member List.mem_cons_self,
          ih fun m hm => h m (List.mem_cons_of_mem member hm)]
        rfl
  rw [ofMembers_eq, isSound, Nat.add_sub_cancel, hmembers]
  simp

end GlutSketch.Json
