import GatewayDocs.Client.Listing

/-! # A client with given pages

A client that answers every call with the page that is given for the position asked for; the
page for no position is the one under the empty text. -/

namespace GatewayDocs

/-- The key of the page for the position that the arguments of a call name. -/
def pageKey (arguments : Fields) : Result Atom :=
  match arguments.get? "position" with
  | none => .ok (.str "")
  | some (.atom a) => .ok a
  | some _ => .error .badShape

/-- A client that answers with given pages. -/
def Client.ofPages (pages : Fields) : Client Unit := fun call =>
  Edit.ofResult do
    let key ← pageKey call.arguments
    match Pairs.lookup key pages with
    | some page => .ok page
    | none => .error (.noKey key)

/-- The argument that names the call of a listing. -/
def listCallKey : String := "list_call"

/-- All items of a listing whose pages are given; its arguments may not name another call. -/
def Listing.itemsOfPages (l : Listing) (pages : Fields) : Edit (Recorded Unit) (List Value) := do
  if Pairs.has (.str listCallKey) l.arguments then throw .badShape
  items (Client.ofPages pages).recording (pages.length + 2) l

end GatewayDocs
