import GlutSketch.Json.Number

/-!
# GlutSketch.Json.Record

Taking values out of JSON.  A record is an object with known members, or the
array of its fields in their order; `fields?` reads both.  A member that is
missing is left to the record, which may have a default for it, and a member
with an unknown name is ignored.
-/

namespace GlutSketch.Json

/-! ## Scalars -/

/-- The text of a string. -/
def asText? : Json → Option String
  | string text => text
  | _ => none

/-- A truth value. -/
def asBool? : Json → Option Bool
  | bool value => some value
  | _ => none

/-- A number, as a double. -/
def asFloat? : Json → Option Float
  | number n => n.toFloat?
  | _ => none

/-- A whole number of 64 bits. -/
def asUInt64? : Json → Option UInt64
  | number n => n.toUInt64?
  | _ => none

/-- An array of values that are all read the same way. -/
def asList? {α : Type} (read : Json → Option α) : Json → Option (List α)
  | array elements => elements.mapM read
  | _ => none

/-! ## Records -/

/-- The value of the member `name`, if there is one; nothing if there are
several. -/
def member? (name : String) (members : List (Option String × Json)) : Option (Option Json) :=
  match members.filter fun (text, _) => text = some name with
  | [] => some none
  | [(_, v)] => some (some v)
  | _ => none

/-- The fields of a record, in the order of their `names`.  In an object every
name has to be valid and none of the known ones may be repeated; an array has no
more elements than there are names, and the missing ones are the last. -/
def fields? (names : List String) : Json → Option (List (Option Json))
  | object members =>
      if members.all fun (text, _) => text.isSome then names.mapM (member? · members) else none
  | array elements =>
      if elements.length ≤ names.length then
        some (elements.map some ++ List.replicate (names.length - elements.length) none)
      else none
  | _ => none

/-- Reads a field that has to be there. -/
def required? {α : Type} (read : Json → Option α) (field : Option Json) : Option α :=
  field.bind read

/-- Reads a field that has a default. -/
def optional? {α : Type} (read : Json → Option α) (default : α) : Option Json → Option α
  | none => some default
  | some v => read v

/-! ## Soundness of unread parts -/

mutual

/-- The value can be kept as a value even where it is not read: its numbers are
in the range of doubles, its strings and names are valid, and its containers
nest at most `depth` deep. -/
def isSound (depth : Nat) : Json → Bool
  | null => true
  | bool _ => true
  | number n => n.toFloat?.isSome
  | string text => text.isSome
  | array elements => 0 < depth && areSound (depth - 1) elements
  | object members => 0 < depth && areSoundMembers (depth - 1) members

/-- All elements of an array are sound. -/
def areSound (depth : Nat) : List Json → Bool
  | [] => true
  | v :: rest => v.isSound depth && areSound depth rest

/-- All members of an object are sound. -/
def areSoundMembers (depth : Nat) : List (Option String × Json) → Bool
  | [] => true
  | (name, v) :: rest => name.isSome && v.isSound depth && areSoundMembers depth rest

end

end GlutSketch.Json
