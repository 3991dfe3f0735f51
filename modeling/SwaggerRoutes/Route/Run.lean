/-
  Route/Run.lean --- what a call leaves behind that consults a strategy.

  Apart from its result a call has given notices and has moved the strategy on, also when it fails.
  A stage that consults no strategy is put after a call by `andThen`.
-/
import SwaggerRoutes.Notice

set_option autoImplicit false

namespace SwaggerRoutes.Route

/-- The result of a call, the notices it gave, and the state in which it leaves the strategy. -/
structure Run (ε σ α : Type) where
  /-- The result. -/
  result : Except ε α
  /-- The notices in the order in which they were given. -/
  notices : List Notice
  /-- The state of the strategy afterwards. -/
  state : σ

namespace Run

variable {ε σ α β : Type}

/-- The run with its failure told in other terms. -/
def mapError {δ : Type} (f : ε → δ) (r : Run ε σ α) : Run δ σ α :=
  ⟨r.result.mapError f, r.notices, r.state⟩

/-- The run with its result changed by a function. -/
def map (f : α → β) (r : Run ε σ α) : Run ε σ β :=
  ⟨r.result.map f, r.notices, r.state⟩

/-- The run followed, where it succeeds, by a stage that leaves the strategy alone. -/
def andThen (r : Run ε σ α) (stage : α → Except ε β × List Notice) : Run ε σ β :=
  match r.result with
  | .error e => ⟨.error e, r.notices, r.state⟩
  | .ok a => ⟨(stage a).1, r.notices ++ (stage a).2, r.state⟩

/-- The run followed, where it succeeds, by a stage that has effects but leaves the strategy
alone. -/
def andThenM {m : Type → Type} [Monad m] (r : Run ε σ α)
    (stage : α → m (Except ε β × List Notice)) : m (Run ε σ β) :=
  match r.result with
  | .error e => pure ⟨.error e, r.notices, r.state⟩
  | .ok a => do
    let (result, notices) ← stage a
    return ⟨result, r.notices ++ notices, r.state⟩

end Run

end SwaggerRoutes.Route
