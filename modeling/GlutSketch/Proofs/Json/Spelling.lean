import GlutSketch.Proofs.Json.Parse
import GlutSketch.Proofs.Numeric.Shortest

/-!
# GlutSketch.Proofs.Json.Spelling

The numbers that are written are spelled as they have to be.  The shortest
decimal of a double has no useless zero in front, because zero reads back to no
other double.

* `isSpelled_ofDecimal` -- the two layouts of a decimal.
* `isWritable_ofFloat`, `isWritable_ofNat` -- what the fields of a scene are
  written as.
-/

namespace GlutSketch.Json

/-! ## Layouts -/

theorem areDigits_zero : AreDigits ['0'] := areDigits_decimalDigits 0

/-- Only the digits of zero begin with a zero. -/
theorem eq_zero_of_zero_cons_isPrefix {n : Nat} {cs : List Char}
    (h : '0' :: cs <+: decimalDigits n) : n = 0 := by
  obtain ⟨rest, hrest⟩ := h
  have hdigits : decimalDigits n = '0' :: (cs ++ rest) := by rw [← hrest, List.cons_append]
  exact decimalDigits_cons_zero hdigits

/-- The digits of a decimal in place: no useless zero comes first. -/
theorem places_spelled {d : Decimal} (h : d.digits = 0 → d.exponent = 0) :
    AreDigits d.places.1 ∧ (∀ cs, d.places.1 = '0' :: cs → cs = []) ∧
      ∀ c ∈ d.places.2, c.isDigit := by
  have hdigits := areDigits_decimalDigits d.digits
  simp only [Decimal.places]
  split
  · refine ⟨⟨by simp [hdigits.1], ?_⟩, ?_, by simp⟩
    · intro c hc
      cases List.mem_append.1 hc with
      | inl hmem => exact hdigits.2 c hmem
      | inr hzero =>
          rw [List.eq_of_mem_replicate hzero]
          rfl
    · intro cs hcs
      dsimp only at hcs
      obtain ⟨first, others, hfirst⟩ := List.exists_cons_of_ne_nil hdigits.1
      rw [hfirst, List.cons_append] at hcs
      obtain rfl : first = '0' := (List.cons.inj hcs).1
      have hzero := decimalDigits_cons_zero hfirst
      rw [hzero] at hfirst
      obtain rfl : others = [] := (List.cons.inj hfirst).2.symm
      rw [h hzero] at hcs
      exact (List.cons.inj hcs).2.symm
  · next hexponent =>
      split
      · refine ⟨areDigits_zero, ?_, isDigit_of_mem_padded hdigits.2⟩
        intro cs hcs
        exact (List.cons.inj hcs).2.symm
      · next hlength =>
          refine ⟨areDigits_of_subset hdigits.2 (List.take_subset _ _) ?_, ?_, ?_⟩
          · rw [List.length_take]
            omega
          · intro cs hcs
            have hstart : '0' :: cs <+: decimalDigits d.digits := by
              rw [← hcs]
              exact List.take_prefix _ _
            rw [h (eq_zero_of_zero_cons_isPrefix hstart)] at hexponent
            exact absurd (Int.le_refl 0) hexponent
          · exact fun c hc => hdigits.2 c (List.drop_subset _ _ hc)

/-- Both layouts of a decimal are as they have to be. -/
theorem isSpelled_ofDecimal (negative : Bool) {d : Decimal} (h : d.digits = 0 → d.exponent = 0) :
    (Number.ofDecimal negative d).IsSpelled := by
  obtain ⟨hwhole, hhead, hfraction⟩ := places_spelled h
  have hdigits := areDigits_decimalDigits d.digits
  unfold Number.ofDecimal
  split
  · split
    · next whole hplaces =>
        rw [hplaces] at hwhole hhead
        exact ⟨hwhole, hhead, areDigits_zero.2⟩
    · next whole fraction _ hplaces =>
        rw [hplaces] at hwhole hhead hfraction
        exact ⟨hwhole, hhead, hfraction⟩
  · obtain ⟨first, others, hfirst⟩ := List.exists_cons_of_ne_nil hdigits.1
    rw [hfirst] at hdigits ⊢
    refine ⟨⟨List.cons_ne_nil _ _, fun c hc => hdigits.2 c (List.take_subset _ _ hc)⟩, ?_,
      fun c hc => hdigits.2 c (List.drop_subset _ _ hc)⟩
    intro cs hcs
    exact (List.cons.inj hcs).2.symm

/-! ## Fields -/

/-- Every double is spelled as the reader expects a number. -/
theorem isWritable_ofFloat (x : Float) : (ofFloat x).IsWritable := by
  unfold ofFloat
  split
  · next negative m hx =>
      rw [IsWritable]
      exact isSpelled_ofDecimal negative (m.shortestDecimal_exponent .toEven)
  · trivial

theorem isWritable_ofNat (n : Nat) : (ofNat n).IsWritable := by
  rw [ofNat, IsWritable]
  refine ⟨areDigits_decimalDigits n, ?_, by simp⟩
  intro cs hcs
  have hzero := decimalDigits_cons_zero hcs
  rw [hzero] at hcs
  exact (List.cons.inj hcs).2.symm

theorem isWritable_ofString (text : String) : (ofString text).IsWritable := by
  rw [ofString, IsWritable]
  rfl

/-- An object of members that can be written. -/
theorem isWritable_ofMembers {members : List (String × Json)}
    (h : ∀ member ∈ members, member.2.IsWritable) : (ofMembers members).IsWritable := by
  rw [ofMembers, IsWritable]
  induction members with
  | nil => trivial
  | cons member members ih =>
      exact ⟨rfl, h member List.mem_cons_self, ih fun m hm => h m (List.mem_cons_of_mem _ hm)⟩

/-- An array of values that are all written the same way. -/
theorem isWritable_array {α : Type} {write : α → Json} (h : ∀ a, (write a).IsWritable)
    (as : List α) : (array (as.map write)).IsWritable := by
  rw [IsWritable]
  induction as with
  | nil => trivial
  | cons a as ih => exact ⟨h a, ih⟩

end GlutSketch.Json
