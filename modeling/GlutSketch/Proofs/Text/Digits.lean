import GlutSketch.Numeric.Layout
import GlutSketch.Text.Digits

/-!
# GlutSketch.Proofs.Text.Digits

The digits of a number, written and read.

* `areDigits_decimalDigits` -- a number is written in digits.
* `decimalDigits_cons_zero` -- only zero itself begins with a zero.
* `digitsValue_decimalDigits` -- the digits are read back as the number.
* `splitDigits_digits_append` -- digits are split off up to what follows them.
-/

namespace GlutSketch

/-! ## Digits -/

/-- Decimal digits, one at least. -/
def AreDigits (cs : List Char) : Prop := cs ≠ [] ∧ ∀ c ∈ cs, c.isDigit

/-- A number is written in digits. -/
theorem areDigits_decimalDigits (n : Nat) : AreDigits (decimalDigits n) :=
  ⟨Nat.toDigits_ne_nil, fun _ hc => Nat.isDigit_of_mem_toDigits (by decide) (by decide) hc⟩

/-- Some of the digits of a list. -/
theorem areDigits_of_subset {cs ds : List Char} (hds : ∀ c ∈ ds, c.isDigit) (hsub : cs ⊆ ds)
    (hlen : 0 < cs.length) : AreDigits cs :=
  ⟨List.ne_nil_of_length_pos hlen, fun c hc => hds c (hsub hc)⟩

/-- Zeros in front of digits. -/
theorem isDigit_of_mem_padded {k : Nat} {cs : List Char} (hcs : ∀ c ∈ cs, c.isDigit) :
    ∀ c ∈ List.replicate k '0' ++ cs, c.isDigit := by
  intro c hc
  cases List.mem_append.1 hc with
  | inl hzero =>
      rw [List.eq_of_mem_replicate hzero]
      rfl
  | inr hdigit => exact hcs c hdigit

/-! ## Numbers -/

/-- The digits of a number give the number. -/
theorem digitsValue_decimalDigits (n : Nat) : digitsValue (decimalDigits n) = n :=
  Nat.ofDigitChars_ten_toDigits

/-- Zeros in front do not matter. -/
theorem digitsValue_zeros_append (k : Nat) (ds : List Char) :
    digitsValue (List.replicate k '0' ++ ds) = digitsValue ds := by
  induction k with
  | zero => rfl
  | succ k ih =>
      rw [List.replicate_succ, List.cons_append, ← ih]
      rfl

/-- Zeros at the end multiply by a power of ten. -/
theorem digitsValue_append_zeros (ds : List Char) (k : Nat) :
    digitsValue (ds ++ List.replicate k '0') = digitsValue ds * pow10 k := by
  induction k with
  | zero =>
      have hone : pow10 0 = 1 := rfl
      rw [List.replicate_zero, List.append_nil, hone, Nat.mul_one]
  | succ k ih =>
      rw [List.replicate_succ', ← List.append_assoc, digitsValue, List.foldl_append]
      change 10 * digitsValue (ds ++ List.replicate k '0') + 0 = _
      have hpow : pow10 (k + 1) = pow10 k * 10 := Nat.pow_succ 10 k
      rw [ih, Nat.add_zero, hpow, Nat.mul_left_comm, Nat.mul_comm 10]

/-- The first digit of a number is a zero only if the number is zero. -/
theorem decimalDigits_cons_zero {n : Nat} {cs : List Char} (h : decimalDigits n = '0' :: cs) :
    n = 0 := by
  induction n using Nat.strongRecOn generalizing cs with
  | ind n ih =>
      by_cases hn : n < 10
      · have hdigit : decimalDigits n = [n.digitChar] := Nat.toDigits_of_lt_base hn
        have hvalue := digitsValue_decimalDigits n
        rw [hdigit] at h
        rw [hdigit, h] at hvalue
        obtain rfl : cs = [] := (List.cons.inj h).2.symm
        exact hvalue.symm
      · have hsplit : decimalDigits n = decimalDigits (n / 10) ++ [(n % 10).digitChar] :=
          Nat.toDigits_of_base_le (by decide) (by omega)
        obtain ⟨d, ds, hds⟩ := List.exists_cons_of_ne_nil (areDigits_decimalDigits (n / 10)).1
        rw [hsplit, hds] at h
        obtain rfl : d = '0' := (List.cons.inj h).1
        have hzero := ih (n / 10) (by omega) hds
        omega

/-! ## Splitting -/

/-- A text that does not begin with a digit. -/
def NoDigit (cs : List Char) : Prop := ∀ c ∈ cs.head?, c.isDigit = false

theorem isDigit_of_mem_splitDigits {cs : List Char} {c : Char} (h : c ∈ (splitDigits cs).1) :
    c.isDigit :=
  List.all_eq_true.1 List.all_takeWhile c h

/-- Digits end where no digit follows. -/
theorem splitDigits_digits_append {ds rest : List Char} (hds : ∀ c ∈ ds, c.isDigit)
    (hrest : NoDigit rest) : splitDigits (ds ++ rest) = (ds, rest) := by
  have hstop : rest.takeWhile Char.isDigit = [] ∧ rest.dropWhile Char.isDigit = rest := by
    cases rest with
    | nil => exact ⟨rfl, rfl⟩
    | cons c rest =>
        have hc : c.isDigit = false := hrest c rfl
        simp [hc]
  rw [splitDigits, List.takeWhile_append_of_pos hds, List.dropWhile_append_of_pos hds, hstop.1,
    hstop.2, List.append_nil]

end GlutSketch
