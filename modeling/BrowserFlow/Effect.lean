/-!
# Effects

A computation that changes a state and may fail. What it changed before it failed stays changed.
-/

namespace BrowserFlow

/-- A computation over a state that gives a result or an error, and the state in either case. -/
abbrev Effect (ε σ α : Type) := ExceptT ε (StateM σ) α

namespace Effect

variable {ε ε' σ τ α : Type}

/-- The result and the state after a computation. -/
def run (x : Effect ε σ α) (s : σ) : Except ε α × σ :=
  x s

/-- A computation given by its result and its state afterwards. -/
def of (f : σ → Except ε α × σ) : Effect ε σ α :=
  f

/-- The outcome of a computation, which itself does not fail. -/
def attempt (x : Effect ε σ α) : Effect ε' σ (Except ε α) :=
  of fun s => ((.ok (run x s).1 : Except ε' (Except ε α)), (run x s).2)

/-- A computation that fails with other errors. -/
def mapError (f : ε → ε') (x : Effect ε σ α) : Effect ε' σ α :=
  of fun s => ((run x s).1.mapError f, (run x s).2)

/-- A result or an error without any change. -/
def lift (r : Except ε α) : Effect ε σ α :=
  of fun s => (r, s)

/-- A computation on a part of the state. -/
def zoom (part : τ → σ) (put : σ → τ → τ) (x : Effect ε σ α) : Effect ε τ α :=
  of fun t => ((run x (part t)).1, put (run x (part t)).2 t)

end Effect

end BrowserFlow
