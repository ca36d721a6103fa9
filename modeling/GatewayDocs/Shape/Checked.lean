import GatewayDocs.Value.Failure

/-! # Checked readings

Reading a value as something of a documented shape gives that thing, or every problem with
the value and where it lies (`Checked`).  Readings of several parts are combined so that
the problems of all parts are kept, in the order of the parts (`Checked.seq`). -/

namespace GatewayDocs

/-- What a value was read as, or all that is wrong with it. -/
inductive Checked (α : Type) where
  | ok (a : α)
  | faulty (problems : List Problem)

namespace Checked
variable {α β : Type}

/-- Applies a function to what was read. -/
def map (f : α → β) : Checked α → Checked β
  | ok a => ok (f a)
  | faulty ps => faulty ps

/-- Combines the readings of two parts; the problems of both are kept. -/
def seq (f : Checked (α → β)) (x : Unit → Checked α) : Checked β :=
  match f, x () with
  | ok g, ok a => ok (g a)
  | ok _, faulty ps => faulty ps
  | faulty ps, ok _ => faulty ps
  | faulty ps, faulty qs => faulty (ps ++ qs)

instance : Functor Checked := ⟨map, fun a => map fun _ => a⟩
instance : Pure Checked := ⟨ok⟩
instance : Seq Checked := ⟨seq⟩

/-- A single problem with the value itself. -/
def fault (f : Fault) : Checked α := faulty [⟨[], f⟩]

/-- Places a reading one step further in. -/
def within (step : Step) : Checked α → Checked α
  | ok a => ok a
  | faulty ps => faulty (ps.map fun p => { p with place := step :: p.place })

/-- Combines the readings of all parts of a list. -/
def all : List (Checked α) → Checked (List α)
  | [] => ok []
  | x :: rest => seq (map List.cons x) fun _ => all rest

/-- The reading of a value of a named shape, or the failure that it has not that shape. -/
def orInvalid (shape : String) : Checked α → Result α
  | ok a => .ok a
  | faulty ps => .error (.invalid shape ps)

end Checked
end GatewayDocs
