import GatewayDocs.Client.Call

/-! # Listings in pages

A listing is answered in pages.  A page may name the position at which the next one starts,
and then that one is asked for.  The items of a page are looked at before the next page is
asked for, so that a search ends with the page that has what is sought (`Listing.find`). -/

namespace GatewayDocs

/-- A listing: the name of its call and the arguments that all its calls have. -/
structure Listing where
  name : String
  arguments : Fields

namespace Listing
variable {σ α : Type}

/-- The number of items that a page has at most. -/
def pageLimit : Int := 500

/-- The call for a page; the arguments may not set its limit. -/
def call (l : Listing) : Result Call :=
  if Pairs.has (.str "limit") l.arguments then .error .badShape
  else .ok ⟨l.name, (.str "limit", .int pageLimit) :: l.arguments⟩

/-- The listing from a position on. -/
def startingAt (l : Listing) (position : Value) : Listing :=
  { l with arguments := l.arguments.put "position" position }

/-- The items of a page; it has none if it does not name them. -/
def pageItems (page : Fields) : Result (List Value) :=
  ((page.get? "items").map Value.members).getD (.ok [])

/-- Looks at the items of a listing in order, up to the first that gives a result.  At most
`pages` pages are asked for. -/
def find (client : Client σ) (look : Value → Result (Option α)) :
    Nat → Listing → Edit σ (Option α)
  | 0, _ => throw .endless
  | pages + 1, l => do
    let page ← Edit.ofResult (← client (← Edit.ofResult l.call)).asObject
    let found ← Edit.ofResult ((← Edit.ofResult (pageItems page)).findSomeM? look)
    match found with
    | some a => return some a
    | none =>
      let position := page.get "position"
      if position.truthy then find client look pages (l.startingAt position) else return none

/-- All items of a listing, of at most `pages` pages. -/
def items (client : Client σ) : Nat → Listing → Edit σ (List Value)
  | 0, _ => throw .endless
  | pages + 1, l => do
    let page ← Edit.ofResult (← client (← Edit.ofResult l.call)).asObject
    let found ← Edit.ofResult (pageItems page)
    let position := page.get "position"
    if position.truthy then
      return found ++ (← items client pages (l.startingAt position))
    else return found

end Listing
end GatewayDocs
