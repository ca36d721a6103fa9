import GatewayDocs.Value.Failure

/-! # Computations on a state

A computation that may fail and that keeps the state which it has reached then (`Edit`), with
a way to run one on a part of a state. -/

namespace GatewayDocs

/-- A computation on a state that keeps the state it has reached if it fails. -/
abbrev Edit (σ α : Type) := EStateM Failure σ α

namespace Edit
variable {σ τ α : Type}

/-- Takes a result or fails with it. -/
def ofResult (r : Result α) : Edit σ α :=
  match r with
  | .ok a => pure a
  | .error e => throw e

/-- Runs a computation on a part of the state. -/
def zoom (part : τ) (rebuild : τ → σ) (edit : Edit τ α) : Edit σ α := fun _ =>
  match edit part with
  | .ok a t => .ok a (rebuild t)
  | .error e t => .error e (rebuild t)

/-- The state that a computation reaches and its outcome. -/
def outcome (edit : Edit σ α) (s : σ) : σ × Result α :=
  match edit s with
  | .ok a t => (t, .ok a)
  | .error e t => (t, .error e)

end Edit

end GatewayDocs
