import GatewayDocs.Value.Failure
import GatewayDocs.Value.Order

/-! # Counters

Counters by name, in the order in which they were first counted.  A counter starts at zero and
what is counted is added to it: whole amounts stay whole, and an amount that is not whole makes
the counter a floating-point number (`Amount.add?`). -/

namespace GatewayDocs

/-- What is counted: a whole number or a floating-point number. -/
inductive Amount where
  | whole (n : Int)
  | real (x : Float)

namespace Amount

/-- An amount as a floating-point number; an integer may be too large for one. -/
def toFloat : Amount → Result Float
  | whole n =>
    let x := (Atom.int n).toFloat
    if x.isInf then .error .tooLargeForFloat else .ok x
  | real x => .ok x

/-- The sum of two amounts. -/
def add : Amount → Amount → Result Amount
  | whole m, whole n => .ok (whole (m + n))
  | a, b => do return real ((← a.toFloat) + (← b.toFloat))

/-- The amount that a value tells; a truth value counts as one or zero. -/
def ofValue : Value → Result Amount
  | .bool b => .ok (whole (if b then 1 else 0))
  | .int n => .ok (whole n)
  | .float x => .ok (real x)
  | _ => .error .badShape

/-- Writes an amount. -/
def toValue : Amount → Value
  | whole n => .int n
  | real x => .float x

end Amount

/-- Counters by name. -/
structure Metrics where
  counters : List (Atom × Amount)

namespace Metrics

/-- No counters. -/
def empty : Metrics := ⟨[]⟩

/-- The value of a counter; an absent one counts nothing. -/
def get (m : Metrics) (key : Atom) : Amount :=
  (Pairs.lookup key m.counters).getD (.whole 0)

/-- Adds an amount to a counter, which is made if it is absent. -/
def add (m : Metrics) (key : Atom) (amount : Amount) : Result Metrics := do
  return ⟨Pairs.put key (← (m.get key).add amount) m.counters⟩

/-- Adds a whole number to a counter, which is made if it is absent. -/
def increment (m : Metrics) (key : String) (amount : Int) : Metrics :=
  let sum : Amount :=
    match m.get (.str key) with
    | .whole n => .whole (n + amount)
    | .real x => .real (x + (Atom.int amount).toFloat)
  ⟨Pairs.put (.str key) sum m.counters⟩

end Metrics
end GatewayDocs
