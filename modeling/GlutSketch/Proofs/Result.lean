/-!
# GlutSketch.Proofs.Result

When a computation that may fail gives a value and when it fails, if the
computation is an option in disguise, a change of another one's value, or two
computations in a row.
-/

namespace GlutSketch.Except

variable {ε α β : Type} {r : Except ε α} {a : α} {b : β} {e : ε}

/-- A result that is kept without its error. -/
theorem toOption_eq_some_iff : r.toOption = some a ↔ r = .ok a := by
  cases r <;> simp [Except.toOption]

section Map

variable {f : α → β}

/-- A changed value is the change of a value. -/
theorem map_eq_ok_iff : r.map f = .ok b ↔ ∃ a, r = .ok a ∧ b = f a := by
  cases r <;> simp [Except.map, eq_comm]

/-- The change of a value does not touch an error. -/
theorem map_eq_error_iff : r.map f = .error e ↔ r = .error e := by
  cases r <;> simp [Except.map]

end Map

section Bind

variable {f : α → Except ε β}

/-- Two computations in a row succeed if both do. -/
theorem bind_eq_ok_iff : r.bind f = .ok b ↔ ∃ a, r = .ok a ∧ f a = .ok b := by
  cases r <;> simp [Except.bind]

/-- Two computations in a row fail if the first does, or the second after it. -/
theorem bind_eq_error_iff :
    r.bind f = .error e ↔ r = .error e ∨ ∃ a, r = .ok a ∧ f a = .error e := by
  cases r <;> simp [Except.bind]

end Bind

end GlutSketch.Except
