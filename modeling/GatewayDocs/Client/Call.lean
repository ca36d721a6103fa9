import GatewayDocs.Edit

/-! # Calls of a client

A client answers calls: a name with arguments.  Publishing and exporting are written over any
client; its state is theirs to pass on and nothing else.

A client can be made to record its calls (`Client.recording`) and to fail a call of one name
(`Client.failing`).  A recorded call is recorded before it is answered. -/

namespace GatewayDocs

/-- A call of a client. -/
structure Call where
  name : String
  arguments : Fields

namespace Call

/-- Writes a call. -/
def toValue (c : Call) : Value := .list [.str c.name, .object c.arguments]

end Call

/-- What answers calls, and what it remembers. -/
abbrev Client (σ : Type) := Call → Edit σ Value

/-- The calls that a client was asked, and what it remembers. -/
structure Recorded (σ : Type) where
  calls : List Call
  state : σ

namespace Client
variable {σ : Type}

/-- A client that fails the calls of one name, if one is given. -/
def failing (name? : Option String) (client : Client σ) : Client σ := fun call =>
  if name? = some call.name then throw (.callFailed call.name) else client call

/-- A client that records its calls. -/
def recording (client : Client σ) : Client (Recorded σ) := fun call => do
  let r ← get
  let calls := r.calls ++ [call]
  Edit.zoom r.state (fun s => ⟨calls, s⟩) (client call)

end Client
end GatewayDocs
