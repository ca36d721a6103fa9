import GatewayDocs.Client.Pages
import GatewayDocs.Proofs.Paging
import Mathlib.Data.List.Perm.Subperm

/-! # Listings that follow a cursor

A page may name a position, and the page for this position comes next.  The positions that a listing
comes by are a `Trail`: it ends with a page that names none, or with a position for which there is
no page.  A listing gives the items of the pages on its trail, in order, and makes one call for each
position on it (`Listing.follows_trail`).

The items of a page are handed out before the next page is asked for (`Listing.handOut`), so that a
failure on the way takes back nothing.  Handing out item by item and giving all items at the end
make the same calls and end alike (`Listing.handsOut_items`).

The positions of a trail stand at different places among the pages, since a place tells all that
comes after it (`Trail.nodup_places`).  So a trail has at most one position more than there are
pages, and no bound above the number of pages cuts it short. -/

namespace GatewayDocs

/-! ### Handing out items -/

/-- The items that were handed out so far, and what the client remembers. -/
structure HandedOut (σ : Type) where
  items : List Value
  client : σ

namespace Listing
variable {σ : Type}

/-- Hands out the items of a listing, those of a page before the next page is asked for.  At most
`pages` pages are asked for. -/
def handOut (client : Client σ) : Nat → Listing → Edit (HandedOut σ) Unit
  | 0, _ => throw .endless
  | pages + 1, l => do
    let call ← Edit.ofResult l.call
    let out ← get
    let answer ← Edit.zoom out.client (fun s => ⟨out.items, s⟩) (client call)
    let page ← Edit.ofResult answer.asObject
    let found ← Edit.ofResult (pageItems page)
    modify fun out => ⟨out.items ++ found, out.client⟩
    let position := page.get "position"
    if position.truthy then handOut client pages (l.startingAt position) else return ()

/-- How handing out ends, after some items, where a listing of all items ends in a given way: it has
handed out these items, or some of them before the failure. -/
inductive HandsOut (before : List Value) :
    EStateM.Result Failure σ (List Value) → EStateM.Result Failure (HandedOut σ) Unit → Prop where
  | ok {items : List Value} {s : σ} :
      HandsOut before (.ok items s) (.ok () ⟨before ++ items, s⟩)
  | error {e : Failure} {items : List Value} {s : σ} :
      HandsOut before (.error e s) (.error e ⟨before ++ items, s⟩)

variable {α : Type} {client : Client σ} {pages : Nat} {l : Listing} {before : List Value} {s : σ}

theorem HandsOut.fail {e : Failure} : HandsOut before (.error e s) (.error e ⟨before, s⟩) := by
  have hnone : HandsOut before (.error e s) (.error e ⟨before ++ [], s⟩) := .error
  rwa [List.append_nil] at hnone

/-- What follows a result. -/
theorem HandsOut.ofResult_bind {r : Result α} {f : α → Edit σ (List Value)}
    {g : α → Edit (HandedOut σ) Unit} (h : ∀ a, HandsOut before (f a s) (g a ⟨before, s⟩)) :
    HandsOut before ((Edit.ofResult r >>= f) s) ((Edit.ofResult r >>= g) ⟨before, s⟩) := by
  cases r with
  | ok a => exact h a
  | error e => exact .fail

/-- What follows the answer to a call. -/
theorem HandsOut.answer_bind {call : Call} {f : Value → Edit σ (List Value)}
    {g : Value → Edit (HandedOut σ) Unit} (h : ∀ v t, HandsOut before (f v t) (g v ⟨before, t⟩)) :
    HandsOut before ((client call >>= f) s)
      ((Edit.zoom s (fun t => ⟨before, t⟩) (client call) >>= g) ⟨before, s⟩) := by
  rw [Edit.bind_apply, Edit.bind_apply, Edit.zoom]
  cases client call s with
  | ok v t => exact h v t
  | error e t => exact .fail

/-- What was handed out before counts to what is handed out. -/
theorem HandsOut.prepend {found : List Value} {x : Edit σ (List Value)}
    {y : EStateM.Result Failure (HandedOut σ) Unit} (h : HandsOut (before ++ found) (x s) y) :
    HandsOut before ((x >>= fun items => pure (found ++ items)) s) y := by
  rw [Edit.bind_apply]
  cases hx : x s with
  | ok items t =>
    rw [hx] at h
    cases h
    rw [List.append_assoc]
    exact .ok
  | error e t =>
    rw [hx] at h
    cases h
    rw [List.append_assoc]
    exact .error

theorem handsOut_items :
    HandsOut before (items client pages l s) (handOut client pages l ⟨before, s⟩) := by
  induction pages generalizing l before s with
  | zero => exact .fail
  | succ pages ih =>
    refine .ofResult_bind fun call => .answer_bind fun answer t => .ofResult_bind fun page =>
      .ofResult_bind fun found => ?_
    rw [Edit.bind_apply, Edit.modify_apply]
    dsimp only
    split
    · exact .prepend ih
    · exact .ok

end Listing

/-! ### Trails -/

/-- The key of the page for a position, or of the first page. -/
def cursorKey (position? : Option Atom) : Atom := position?.getD (.str "")

/-- The page for a position, or the first page. -/
def pageAt (pages : Fields) (position? : Option Atom) : Option Value :=
  Pairs.lookup (cursorKey position?) pages

/-- A page has some items, none if it does not name them, and names a position or none; to name an
empty one is to name none. -/
structure Tells (page : Value) (items : List Value) (next? : Option Atom) : Prop where
  object : ∃ fields, page.fields? = some fields
  items : (page.field? "items" = none ∧ items = []) ∨
    ∃ v, page.field? "items" = some v ∧ v.members = .ok items
  next : match next? with
    | some a => page.field? "position" = some (.atom a) ∧ a.truthy = true
    | none => ((page.field? "position").getD .null).truthy = false

/-- A page names one position at most. -/
theorem Tells.next_unique {page : Value} {items more : List Value} {next? next' : Option Atom}
    (h : Tells page items next?) (h' : Tells page more next') : next? = next' := by
  have hn := h.next
  have hn' := h'.next
  cases next? <;> cases next' <;> simp_all [Value.truthy]

/-- What a listing reads in a page. -/
theorem Tells.fields {page : Value} {items : List Value} {next? : Option Atom}
    (h : Tells page items next?) : ∃ fields, page.asObject = .ok fields ∧
      Listing.pageItems fields = .ok items ∧
        fields.get "position" = (page.field? "position").getD .null := by
  obtain ⟨fields, hfields⟩ := h.object
  refine ⟨fields, Value.asObject_eq_ok_iff.mpr hfields, ?_, ?_⟩
  · have hitems := h.items
    rw [Value.field?, hfields, Option.bind_some] at hitems
    rw [Listing.pageItems]
    rcases hitems with ⟨hnone, rfl⟩ | ⟨v, hv, hmembers⟩
    · rw [hnone]
      rfl
    · rw [hv]
      exact hmembers
  · rw [Value.field?, hfields]
    rfl

/-- The positions that a listing comes by from one on, the items of their pages, and the key of the
page that is missing at its end, if one is. -/
inductive Trail (pages : Fields) :
    Option Atom → List (Option Atom) → List Value → Option Atom → Prop where
  | last {c : Option Atom} {page : Value} {items : List Value} :
      pageAt pages c = some page → Tells page items none → Trail pages c [c] items none
  | next {c : Option Atom} {page : Value} {items rest : List Value} {a : Atom}
      {cs : List (Option Atom)} {missing? : Option Atom} :
      pageAt pages c = some page → Tells page items (some a) →
      Trail pages (some a) cs rest missing? → Trail pages c (c :: cs) (items ++ rest) missing?
  | missing {c : Option Atom} :
      pageAt pages c = none → Trail pages c [c] [] (some (cursorKey c))

/-- The end of a computation that comes by a missing page, or else has a result. -/
def ended {σ α : Type} (missing? : Option Atom) (a : α) (s : σ) : EStateM.Result Failure σ α :=
  match missing? with
  | some key => .error (.noKey key) s
  | none => .ok a s

namespace Trail
variable {pages : Fields} {c d : Option Atom} {cs ds : List (Option Atom)} {items more : List Value}
  {missing? missing' : Option Atom}

/-- The place of the page for a position, the number of pages if there is none. -/
def place (pages : Fields) (c : Option Atom) : Nat :=
  pages.findIdx fun kv => kv.1.same (cursorKey c)

theorem pageAt_eq : pageAt pages c = pages[place pages c]?.map (·.2) := by
  unfold pageAt place
  induction pages with
  | nil => rfl
  | cons kv pages ih =>
    rw [Pairs.lookup, List.findIdx_cons]
    cases kv.1.same (cursorKey c) with
    | true => rfl
    | false => simpa using ih

/-- The page of its first position tells how long a trail is. -/
theorem length_eq (h : Trail pages c cs items missing?) (h' : Trail pages d ds more missing')
    (hcd : pageAt pages c = pageAt pages d) : cs.length = ds.length := by
  induction h generalizing d ds more missing' with
  | last hpage htells =>
    rw [hpage] at hcd
    cases h' with
    | last => rfl
    | next hpage' htells' =>
      cases Option.some.inj (hcd.trans hpage')
      cases htells.next_unique htells'
    | missing hnone => simp_all
  | next hpage htells htail ih =>
    rw [hpage] at hcd
    cases h' with
    | last hpage' htells' =>
      cases Option.some.inj (hcd.trans hpage')
      cases htells.next_unique htells'
    | next hpage' htells' htail' =>
      cases Option.some.inj (hcd.trans hpage')
      cases htells.next_unique htells'
      rw [List.length_cons, List.length_cons, ih htail' rfl]
    | missing hnone => simp_all
  | missing hnone =>
    cases h' with
    | missing => rfl
    | _ => simp_all

/-- A trail goes on from each of its positions. -/
theorem exists_from (h : Trail pages c cs items missing?) (hd : d ∈ cs) :
    ∃ ds more, Trail pages d ds more missing? ∧ ds.length ≤ cs.length := by
  induction h with
  | last hpage htells =>
    cases List.mem_singleton.mp hd
    exact ⟨_, _, .last hpage htells, Nat.le_refl _⟩
  | next hpage htells htail ih =>
    rcases List.mem_cons.mp hd with rfl | hd
    · exact ⟨_, _, .next hpage htells htail, Nat.le_refl _⟩
    · obtain ⟨ds, more, hfrom, hle⟩ := ih hd
      exact ⟨ds, more, hfrom, Nat.le_succ_of_le hle⟩
  | missing hnone =>
    cases List.mem_singleton.mp hd
    exact ⟨_, _, .missing hnone, Nat.le_refl _⟩

/-- No page comes twice, or else the trail from there on would be longer than itself. -/
theorem nodup_places (h : Trail pages c cs items missing?) : (cs.map (place pages)).Nodup := by
  induction h with
  | last | missing => exact List.nodup_singleton _
  | @next c _ _ _ _ _ _ hpage htells htail ih =>
    refine List.nodup_cons.mpr ⟨fun hmem => ?_, ih⟩
    obtain ⟨d, hd, hplace⟩ := List.mem_map.mp hmem
    obtain ⟨ds, more, hfrom, hle⟩ := htail.exists_from hd
    have hpages : pageAt pages d = pageAt pages c := by rw [pageAt_eq, hplace, ← pageAt_eq]
    have hlength := hfrom.length_eq (.next hpage htells htail) hpages
    rw [List.length_cons] at hlength
    omega

theorem length_le (h : Trail pages c cs items missing?) : cs.length ≤ pages.length + 1 := by
  have hsub : cs.map (place pages) ⊆ List.range (pages.length + 1) := by
    intro n hn
    obtain ⟨d, -, rfl⟩ := List.mem_map.mp hn
    exact List.mem_range.mpr (Nat.lt_succ_of_le List.findIdx_le_length)
  simpa using (List.subperm_of_subset h.nodup_places hsub).length_le

end Trail

/-! ### Following a trail -/

namespace Listing
variable {l : Listing} {pages : Fields} {c : Option Atom} {cs : List (Option Atom)}
  {items : List Value} {missing? : Option Atom} {bound : Nat}

/-- A listing from a position on, or from its start. -/
def onwardAt (l : Listing) : Option Atom → Listing
  | none => l
  | some a => l.startingAt (.atom a)

/-- The call for the page of a position, or for the first page: the limit of a page, the arguments
of the listing, and the position. -/
def callAt (l : Listing) (c : Option Atom) : Call :=
  ⟨l.name, (.str "limit", .int pageLimit) :: l.arguments ++
    c.toList.map fun a => (.str "position", .atom a)⟩

theorem startingAt_onwardAt {a : Atom} :
    (l.onwardAt c).startingAt (.atom a) = l.onwardAt (some a) := by
  cases c with
  | none => rfl
  | some b => simp only [onwardAt, startingAt, Fields.put, Pairs.put_put_self]

theorem onwardAt_eq (h : l.IsWhole) : l.onwardAt c =
    ⟨l.name, l.arguments ++ c.toList.map fun a => (.str "position", .atom a)⟩ := by
  cases c with
  | none => simp [onwardAt]
  | some a =>
    rw [onwardAt, startingAt, Fields.put, Pairs.put_of_lookup_eq_none h.position]
    rfl

theorem call_onwardAt (h : l.IsWhole) : (l.onwardAt c).call = .ok (l.callAt c) := by
  have hlimit : Pairs.lookup (.str "limit") (l.onwardAt c).arguments = none := by
    cases c with
    | none => exact h.limit
    | some a => exact h.limit_startingAt _
  rw [call_eq hlimit, onwardAt_eq h]
  rfl

theorem pageKey_callAt (h : l.IsWhole) : pageKey (l.callAt c).arguments = .ok (cursorKey c) := by
  have hget : Fields.get? "position" (l.callAt c).arguments = c.map .atom := by
    rw [callAt, Fields.get?, Pairs.lookup_append, Pairs.lookup_cons_of_ne (by simp), h.position]
    cases c <;> rfl
  rw [pageKey, hget]
  cases c <;> rfl

theorem recording_callAt (h : l.IsWhole) (calls : List Call) :
    (Client.ofPages pages).recording (l.callAt c) ⟨calls, ()⟩ =
      match pageAt pages c with
      | some page => .ok page ⟨calls ++ [l.callAt c], ()⟩
      | none => .error (.noKey (cursorKey c)) ⟨calls ++ [l.callAt c], ()⟩ := by
  rw [Client.recording_apply, Client.ofPages, pageKey_callAt h, Result.ok_bind, pageAt]
  cases Pairs.lookup (cursorKey c) pages <;> rfl

/-- A listing that is asked for a missing page fails. -/
theorem handOut_missing (hl : l.IsWhole) (hpage : pageAt pages c = none) (before : List Value)
    (calls : List Call) :
    handOut (Client.ofPages pages).recording (bound + 1) (l.onwardAt c) ⟨before, ⟨calls, ()⟩⟩ =
      .error (.noKey (cursorKey c)) ⟨before, ⟨calls ++ [l.callAt c], ()⟩⟩ := by
  rw [handOut, call_onwardAt hl, Edit.ofResult_ok, pure_bind, Edit.bind_apply, Edit.get_apply]
  refine Edit.bind_of_error ?_
  rw [Edit.zoom, recording_callAt hl, hpage]

/-- A listing that is asked for a page hands out its items and goes on if it names a position. -/
theorem handOut_page {page : Value} {next? : Option Atom} (hl : l.IsWhole)
    (hpage : pageAt pages c = some page) (htells : Tells page items next?) (before : List Value)
    (calls : List Call) :
    handOut (Client.ofPages pages).recording (bound + 1) (l.onwardAt c) ⟨before, ⟨calls, ()⟩⟩ =
      match next? with
      | some a => handOut (Client.ofPages pages).recording bound (l.onwardAt (some a))
          ⟨before ++ items, ⟨calls ++ [l.callAt c], ()⟩⟩
      | none => .ok () ⟨before ++ items, ⟨calls ++ [l.callAt c], ()⟩⟩ := by
  obtain ⟨fields, hobject, hitems, hposition⟩ := htells.fields
  have hanswer : Edit.zoom (⟨calls, ()⟩ : Recorded Unit) (fun s => (⟨before, s⟩ : HandedOut _))
      ((Client.ofPages pages).recording (l.callAt c)) ⟨before, ⟨calls, ()⟩⟩ =
        .ok page ⟨before, ⟨calls ++ [l.callAt c], ()⟩⟩ := by
    rw [Edit.zoom, recording_callAt hl, hpage]
  rw [handOut, call_onwardAt hl, Edit.ofResult_ok, pure_bind, Edit.bind_apply, Edit.get_apply]
  dsimp only
  rw [Edit.bind_of_ok hanswer, hobject, Edit.ofResult_ok, pure_bind, hitems, Edit.ofResult_ok,
    pure_bind, Edit.bind_apply, Edit.modify_apply]
  dsimp only
  rw [hposition]
  have hnext := htells.next
  cases next? with
  | some a =>
    have htruthy : (Value.atom a).truthy = true := hnext.2
    rw [hnext.1, Option.getD_some, if_pos htruthy, startingAt_onwardAt]
  | none =>
    rw [hnext, if_neg Bool.false_ne_true]
    rfl

/-- A listing hands out what is on its trail. -/
theorem handOut_of_trail (hl : l.IsWhole) (ht : Trail pages c cs items missing?)
    (hbound : cs.length ≤ bound) (before : List Value) (calls : List Call) :
    handOut (Client.ofPages pages).recording bound (l.onwardAt c) ⟨before, ⟨calls, ()⟩⟩ =
      ended missing? () ⟨before ++ items, ⟨calls ++ cs.map l.callAt, ()⟩⟩ := by
  induction ht generalizing bound before calls with
  | last hpage htells =>
    obtain ⟨bound, rfl⟩ := Nat.exists_eq_add_of_le' hbound
    exact handOut_page hl hpage htells before calls
  | next hpage htells htail ih =>
    obtain ⟨bound, rfl⟩ := Nat.exists_eq_add_of_le' (Nat.le_trans (Nat.le_add_left 1 _) hbound)
    rw [handOut_page hl hpage htells]
    dsimp only
    rw [ih (Nat.le_of_succ_le_succ hbound), List.map_cons, List.append_assoc, List.append_assoc,
      List.singleton_append]
  | missing hnone =>
    obtain ⟨bound, rfl⟩ := Nat.exists_eq_add_of_le' hbound
    rw [List.append_nil]
    exact handOut_missing hl hnone before calls

/-- What was handed out is what the listing gives. -/
theorem HandsOut.eq_ended {σ : Type} {x : EStateM.Result Failure σ (List Value)} {s : σ}
    (h : HandsOut [] x (ended missing? () ⟨items, s⟩)) : x = ended missing? items s := by
  cases missing? <;> cases h <;> rfl

/-- A listing follows the positions that the pages name, from the first page to the first that names
none: it hands out and gives the items of these pages in order and asks for each of them once.  If a
page is missing, the failure comes after the items of the pages before it and after the call for it.
This is so for any bound above the number of pages, the one of `Listing.itemsOfPages` among them. -/
theorem follows_trail (hl : l.IsWhole) (ht : Trail pages none cs items missing?)
    (hbound : pages.length < bound) :
    handOut (Client.ofPages pages).recording bound l ⟨[], ⟨[], ()⟩⟩ =
        ended missing? () ⟨items, ⟨cs.map l.callAt, ()⟩⟩ ∧
      Listing.items (Client.ofPages pages).recording bound l ⟨[], ()⟩ =
        ended missing? items ⟨cs.map l.callAt, ()⟩ ∧
      (Pairs.has (.str listCallKey) l.arguments = false →
        l.itemsOfPages pages ⟨[], ()⟩ = ended missing? items ⟨cs.map l.callAt, ()⟩) := by
  have hgives : ∀ n, pages.length < n →
      Listing.items (Client.ofPages pages).recording n l ⟨[], ()⟩ =
        ended missing? items ⟨cs.map l.callAt, ()⟩ := by
    intro n hn
    have hout : handOut (Client.ofPages pages).recording n l ⟨[], ⟨[], ()⟩⟩ =
        ended missing? () ⟨items, ⟨cs.map l.callAt, ()⟩⟩ :=
      handOut_of_trail hl ht (Nat.le_trans ht.length_le hn) [] []
    have hsame : HandsOut [] (Listing.items (Client.ofPages pages).recording n l ⟨[], ()⟩)
        (handOut (Client.ofPages pages).recording n l ⟨[], ⟨[], ()⟩⟩) := handsOut_items
    rw [hout] at hsame
    exact hsame.eq_ended
  refine ⟨handOut_of_trail hl ht (Nat.le_trans ht.length_le hbound) [] [], hgives bound hbound,
    fun hname => ?_⟩
  rw [itemsOfPages, hname]
  exact hgives _ (Nat.lt_add_of_pos_right (by decide))

/-- The pages of a listing of parts, the second one without items. -/
def partPages : Fields :=
  [(.str "", .ofPairs [("items", .list [.str "p1", .str "p2"]), ("position", .str "a")]),
    (.str "a", .ofPairs [("position", .str "b")]),
    (.str "b", .ofPairs [("items", .list [.str "p3"]), ("position", .str "")])]

/-- A listing of the parts of an interface. -/
def partListing : Listing := ⟨"get_documentation_parts", [(.str "restApiId", .str "abc123")]⟩

theorem isWhole_partListing : partListing.IsWhole := ⟨rfl, rfl⟩

theorem tells_partPages :
    Tells (.ofPairs [("items", .list [.str "p1", .str "p2"]), ("position", .str "a")])
        [.str "p1", .str "p2"] (some (.str "a")) ∧
      Tells (.ofPairs [("position", .str "b")]) [] (some (.str "b")) ∧
      Tells (.ofPairs [("items", .list [.str "p3"]), ("position", .str "")]) [.str "p3"] none :=
  ⟨⟨⟨_, rfl⟩, .inr ⟨_, rfl, rfl⟩, rfl, rfl⟩, ⟨⟨_, rfl⟩, .inl ⟨rfl, rfl⟩, rfl, rfl⟩,
    ⟨⟨_, rfl⟩, .inr ⟨_, rfl, rfl⟩, rfl⟩⟩

/-- All pages, and the first two of them. -/
theorem follows_trail_partPages :
    partListing.itemsOfPages partPages ⟨[], ()⟩ =
        .ok [.str "p1", .str "p2", .str "p3"]
          ⟨[none, some (.str "a"), some (.str "b")].map partListing.callAt, ()⟩ ∧
      handOut (Client.ofPages (partPages.take 2)).recording 3 partListing ⟨[], ⟨[], ()⟩⟩ =
        .error (.noKey (.str "b")) ⟨[.str "p1", .str "p2"],
          ⟨[none, some (.str "a"), some (.str "b")].map partListing.callAt, ()⟩⟩ := by
  obtain ⟨hfirst, hsecond, hthird⟩ := tells_partPages
  have hall : Trail partPages none [none, some (.str "a"), some (.str "b")]
      ([.str "p1", .str "p2"] ++ ([] ++ [.str "p3"])) none :=
    .next rfl hfirst (.next rfl hsecond (.last rfl hthird))
  have htwo : Trail (partPages.take 2) none [none, some (.str "a"), some (.str "b")]
      ([.str "p1", .str "p2"] ++ ([] ++ [])) (some (.str "b")) :=
    .next rfl hfirst (.next rfl hsecond (.missing rfl))
  exact ⟨(follows_trail isWhole_partListing hall (Nat.lt_succ_self 3)).2.2 rfl,
    (follows_trail isWhole_partListing htwo (Nat.lt_succ_self 2)).1⟩

end Listing
end GatewayDocs
