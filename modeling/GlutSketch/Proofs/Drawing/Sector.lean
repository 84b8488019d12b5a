import Mathlib.Data.Rat.Floor
import Mathlib.Tactic.FieldSimp
import Mathlib.Tactic.Linarith
import Mathlib.Tactic.NormNum
import Mathlib.Tactic.Positivity
import Mathlib.Tactic.Ring
import GlutSketch.Drawing.Arc

/-!
# GlutSketch.Proofs.Drawing.Sector

The sector that an arc covers.  An arc on doubles is the reading in radians of a
walk that is stated for any kind of angle; here it is read in degrees, as exact
rational numbers.

* `IsSweep` -- how far an arc has to turn.
* `IsWalk` -- equal steps from one end to the other.
* `AngleScale.isLeast_steps` -- the number of steps, as a least natural number.
* `AngleScale.angles_walk_sector` -- all of it, for every start and end.
-/

namespace GlutSketch

/-! ## What an arc has to do -/

/-- An arc turns once around if its end is a turn or more after its start.
Otherwise it turns forward by less than a turn, to the same direction as the
end. -/
structure IsSweep (start stop sweep : ℚ) : Prop where
  full : 360 ≤ stop - start → sweep = 360
  forward : stop - start < 360 →
    0 ≤ sweep ∧ sweep < 360 ∧ ∃ turns : ℤ, stop - start = sweep + 360 * turns

/-- Angles from `start` on, further by the same small step each, up to
`start + sweep`. -/
structure IsWalk (start sweep : ℚ) (steps : ℕ) (angles : List ℚ) : Prop where
  length_eq : angles.length = steps + 1
  first : angles.head? = some start
  last : angles.getLast? = some (start + sweep)
  even : ∃ step, 0 ≤ step ∧ step ≤ 1 + 1 / 10 ^ 9 ∧
    ∀ (i : ℕ) (a b : ℚ), angles[i]? = some a → angles[i + 1]? = some b → b = a + step
  still : sweep = 0 → ∀ a ∈ angles, a = start

/-- Two angles below a turn that differ by whole turns are the same. -/
theorem eq_of_add_turns {a b : ℚ} (ha : 0 ≤ a ∧ a < 360) (hb : 0 ≤ b ∧ b < 360) {k l : ℤ}
    (h : a + 360 * k = b + 360 * l) : a = b := by
  have hlt : ((k - l : ℤ) : ℚ) < 1 := by
    push_cast
    linarith
  have hgt : (-1 : ℚ) < ((k - l : ℤ) : ℚ) := by
    push_cast
    linarith
  have hkl : k - l = 0 := by
    have h1 : k - l < 1 := by exact_mod_cast hlt
    have h2 : -1 < k - l := by exact_mod_cast hgt
    omega
  rw [sub_eq_zero.1 hkl] at h
  linarith

/-- There is one such sweep only. -/
theorem IsSweep.unique {start stop s t : ℚ} (hs : IsSweep start stop s)
    (ht : IsSweep start stop t) : s = t := by
  by_cases h : 360 ≤ stop - start
  · rw [hs.full h, ht.full h]
  · obtain ⟨hs0, hs1, k, hk⟩ := hs.forward (not_le.1 h)
    obtain ⟨ht0, ht1, l, hl⟩ := ht.forward (not_le.1 h)
    exact eq_of_add_turns ⟨hs0, hs1⟩ ⟨ht0, ht1⟩ (hk.symm.trans hl)

namespace AngleScale

/-- Angles in degrees, as rational numbers. -/
def inDegrees : AngleScale ℚ where
  turn := 360
  wrap angle := angle - 360 * ⌊angle / 360⌋
  degrees angle := angle
  tolerance := 1 / 10 ^ 9
  ceil := Nat.ceil
  ofNat := Nat.cast

/-! ## The sweep -/

/-- An angle that is wrapped lies in the first turn. -/
theorem wrap_bounds (angle : ℚ) : 0 ≤ inDegrees.wrap angle ∧ inDegrees.wrap angle < 360 := by
  have hle : (⌊angle / 360⌋ : ℚ) ≤ angle / 360 := Int.floor_le _
  have hlt : angle / 360 < ⌊angle / 360⌋ + 1 := Int.lt_floor_add_one _
  simp only [inDegrees]
  constructor
  · linarith
  · linarith

/-- The sweep that is computed is the one that the definition asks for. -/
theorem isSweep_sweep (start stop : ℚ) : IsSweep start stop (inDegrees.sweep start stop) where
  full h := if_pos h
  forward h := by
    have hbounds := wrap_bounds (stop - start)
    have hwrap : inDegrees.sweep start stop = inDegrees.wrap (stop - start) := if_neg (not_le.2 h)
    rw [hwrap]
    refine ⟨hbounds.1, hbounds.2, ⌊(stop - start) / 360⌋, ?_⟩
    simp only [inDegrees]
    ring

/-- An arc turns forward, and once around at most. -/
theorem sweep_bounds (start stop : ℚ) :
    0 ≤ inDegrees.sweep start stop ∧ inDegrees.sweep start stop ≤ 360 := by
  have h := isSweep_sweep start stop
  by_cases hfull : 360 ≤ stop - start
  · rw [h.full hfull]
    norm_num
  · obtain ⟨hnonneg, hlt, -⟩ := h.forward (not_le.1 hfull)
    exact ⟨hnonneg, hlt.le⟩

/-! ## The steps -/

/-- A sweep takes the fewest steps that fall short of it by no more than the
tolerance. -/
theorem isLeast_steps (sweep : ℚ) :
    IsLeast {n : ℕ | 1 ≤ n ∧ sweep - 1 / 10 ^ 9 ≤ n} (inDegrees.steps sweep) := by
  constructor
  · refine ⟨le_max_right _ _, ?_⟩
    calc
      sweep - 1 / 10 ^ 9 ≤ ⌈sweep - 1 / 10 ^ 9⌉₊ := Nat.le_ceil _
      _ ≤ inDegrees.steps sweep := by exact_mod_cast le_max_left _ _
  · rintro n ⟨hpos, hn⟩
    exact max_le (Nat.ceil_le.2 hn) hpos

/-- An arc has a step, and never more than one for each degree of a turn. -/
theorem steps_bounds {sweep : ℚ} (h : sweep ≤ 360) :
    1 ≤ inDegrees.steps sweep ∧ inDegrees.steps sweep ≤ 360 := by
  refine ⟨(isLeast_steps sweep).1.1, (isLeast_steps sweep).2 ⟨by norm_num, ?_⟩⟩
  push_cast
  linarith

/-! ## The angles -/

/-- The angle after some steps, all of them equal. -/
theorem getElem?_angles {start stop : ℚ} {i : ℕ}
    (h : i ≤ inDegrees.steps (inDegrees.sweep start stop)) :
    (inDegrees.angles start stop)[i]? = some
      (start + inDegrees.sweep start stop * i / inDegrees.steps (inDegrees.sweep start stop)) := by
  rw [angles, List.getElem?_map, List.getElem?_range (Nat.lt_succ_of_le h)]
  rfl

/-- There is one angle more than there are steps. -/
theorem length_angles (start stop : ℚ) :
    (inDegrees.angles start stop).length = inDegrees.steps (inDegrees.sweep start stop) + 1 := by
  rw [angles, List.length_map, List.length_range]

theorem eq_of_getElem?_angles {start stop a : ℚ} {i : ℕ}
    (h : (inDegrees.angles start stop)[i]? = some a) :
    a = start + inDegrees.sweep start stop * i / inDegrees.steps (inDegrees.sweep start stop) := by
  obtain ⟨hlt, -⟩ := List.getElem?_eq_some_iff.1 h
  rw [length_angles] at hlt
  rw [getElem?_angles (Nat.le_of_lt_succ hlt), Option.some.injEq] at h
  exact h.symm

/-- The angles walk from the start to the end of the sweep. -/
theorem isWalk_angles (start stop : ℚ) :
    IsWalk start (inDegrees.sweep start stop) (inDegrees.steps (inDegrees.sweep start stop))
      (inDegrees.angles start stop) := by
  have hsweep := sweep_bounds start stop
  have hleast := (isLeast_steps (inDegrees.sweep start stop)).1
  have hpos : (1 : ℚ) ≤ inDegrees.steps (inDegrees.sweep start stop) := by exact_mod_cast hleast.1
  have hlength := length_angles start stop
  have hget := @getElem?_angles start stop
  have heq := @eq_of_getElem?_angles start stop
  generalize inDegrees.sweep start stop = sweep at *
  generalize inDegrees.steps sweep = steps at *
  have hne : (steps : ℚ) ≠ 0 := by linarith
  refine ⟨hlength, ?_, ?_, ⟨sweep / steps, ?_, ?_, fun i a b ha hb => ?_⟩, fun hzero a ha => ?_⟩
  · rw [List.head?_eq_getElem?, hget (Nat.zero_le _)]
    simp
  · rw [List.getLast?_eq_getElem?, hlength, Nat.add_sub_cancel, hget le_rfl, mul_div_assoc,
      div_self hne, mul_one]
  · exact div_nonneg hsweep.1 (by linarith)
  · -- the tolerance is shared out among the steps, of which there is one at least
    rw [div_le_iff₀ (by linarith)]
    have hshort : sweep - 1 / 10 ^ 9 ≤ steps := hleast.2
    linarith
  · rw [heq ha, heq hb]
    push_cast
    ring
  · obtain ⟨i, hi⟩ := List.getElem?_of_mem ha
    rw [heq hi, hzero]
    simp

/-- **Sectors**: an arc covers the sector from its start to its end in the
fewest equal steps that are no longer than a degree, up to the tolerance.  It
has 2 to 361 angles. -/
theorem angles_walk_sector (start stop : ℚ) :
    (∀ s, inDegrees.sweep start stop = s ↔ IsSweep start stop s) ∧
    IsLeast {n : ℕ | 1 ≤ n ∧ inDegrees.sweep start stop - 1 / 10 ^ 9 ≤ n}
      (inDegrees.steps (inDegrees.sweep start stop)) ∧
    inDegrees.steps (inDegrees.sweep start stop) ≤ 360 ∧
    IsWalk start (inDegrees.sweep start stop) (inDegrees.steps (inDegrees.sweep start stop))
      (inDegrees.angles start stop) ∧
    2 ≤ (inDegrees.angles start stop).length ∧ (inDegrees.angles start stop).length ≤ 361 := by
  have hsteps := steps_bounds (sweep_bounds start stop).2
  refine ⟨fun s => ⟨?_, fun h => (isSweep_sweep start stop).unique h⟩, isLeast_steps _, hsteps.2,
    isWalk_angles start stop, ?_, ?_⟩
  · rintro rfl
    exact isSweep_sweep start stop
  · rw [length_angles]
    omega
  · rw [length_angles]
    omega

end AngleScale

end GlutSketch
