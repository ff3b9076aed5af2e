/-!
# Computations that can fail

A reader or a builder in several steps succeeds exactly if its steps do.  These are the
two ways in which steps are put together here.
-/

namespace Except

variable {ε α β : Type} {x : Except ε α} {b : β}

/-- What it takes for a computation in two steps to succeed. -/
theorem bind_eq_ok {f : α → Except ε β} :
    (x >>= f) = .ok b ↔ ∃ a, x = .ok a ∧ f a = .ok b := by
  cases x with
  | error e => simp [bind, Except.bind]
  | ok a => simp [bind, Except.bind]

/-- What it takes to succeed with a result that is passed on. -/
theorem map_eq_ok {f : α → β} : x.map f = .ok b ↔ ∃ a, x = .ok a ∧ f a = b := by
  cases x with
  | error e => simp [Except.map]
  | ok a => simp [Except.map]

end Except
