import GatewayDocs.Proofs.Calls
import GatewayDocs.Proofs.Numeral
import GatewayDocs.Proofs.Pairs

/-! # Listings of a gateway

A gateway answers a listing in pages of one length.  To list some items, the pages that they stand
on are asked for, each once and from the first on (`Listing.pageCalls`); nothing is deleted or
created meanwhile.  A listing of all items gives all of them (`Listing.items_from`); a search gives
the first result and ends with the page that has it, so that it asks for the pages of the items up
to this one (`Listing.find_from`).  Both are proved from any position on, by induction on the number
of pages that may be asked for, which is larger than that of the items which are left. -/

namespace GatewayDocs

/-- The number of pages on which some items stand; there is always a first page. -/
def pagesOf (length items : Nat) : Nat := (items - 1) / length + 1

theorem pagesOf_of_le {length items : Nat} (hpos : 0 < length) (h : items ≤ length) :
    pagesOf length items = 1 := by
  rw [pagesOf, Nat.div_eq_of_lt (by omega)]

theorem pagesOf_add {length items : Nat} (hpos : 0 < length) (h : 0 < items) :
    pagesOf length (length + items) = pagesOf length items + 1 := by
  rw [pagesOf, pagesOf, show length + items - 1 = items - 1 + length by omega,
    Nat.add_div_right _ hpos]

/-- The number of items up to the first one that is sought, or of all. -/
def upToFirst {α : Type} (sought : α → Bool) (xs : List α) : Nat :=
  min (xs.findIdx sought + 1) xs.length

namespace Listing

/-- A listing that has neither a limit nor a position of its own. -/
structure IsWhole (l : Listing) : Prop where
  limit : Pairs.lookup (.str "limit") l.arguments = none
  position : Pairs.lookup (.str "position") l.arguments = none

/-- A listing from the item of a number on. -/
def onwardFrom (l : Listing) (start : Nat) : Listing :=
  if start = 0 then l else l.startingAt (.str (Decimal.intText start))

/-- The call for the page that starts with the item of a number. -/
def pageCall (l : Listing) (start : Nat) : Call :=
  ⟨l.name, (.str "limit", .int pageLimit) :: (l.onwardFrom start).arguments⟩

/-- The calls for the pages of a length on which some items from one on stand. -/
def pageCalls (l : Listing) (length start items : Nat) : List Call :=
  (List.range (pagesOf length items)).map fun i => l.pageCall (start + i * length)

variable {l : Listing} {length start items : Nat}

theorem onwardFrom_zero : l.onwardFrom 0 = l := rfl

theorem startingAt_onwardFrom (h : 0 < items) :
    (l.onwardFrom start).startingAt (.str (Decimal.intText items)) = l.onwardFrom items := by
  rw [onwardFrom, onwardFrom, if_neg (Nat.ne_of_gt h)]
  split
  · rfl
  · simp only [startingAt, Fields.put, Pairs.put_put_self]

/-- A listing that has no limit of its own calls with the limit of a page. -/
theorem call_eq (h : Pairs.lookup (.str "limit") l.arguments = none) :
    l.call = .ok ⟨l.name, (.str "limit", .int pageLimit) :: l.arguments⟩ := by
  have hlimit : Pairs.has (.str "limit") l.arguments = false := by
    rw [Pairs.has, h]
    rfl
  rw [Listing.call, hlimit, if_neg Bool.false_ne_true]

theorem IsWhole.limit_startingAt (h : l.IsWhole) (position : Value) :
    Pairs.lookup (.str "limit") (l.startingAt position).arguments = none := by
  rw [startingAt, Fields.put, Pairs.lookup_put_of_ne (by decide), h.limit]

theorem call_onwardFrom (h : l.IsWhole) : (l.onwardFrom start).call = .ok (l.pageCall start) := by
  have hlimit : Pairs.lookup (.str "limit") (l.onwardFrom start).arguments = none := by
    unfold onwardFrom
    split
    · exact h.limit
    · exact h.limit_startingAt _
  have hname : (l.onwardFrom start).name = l.name := by
    unfold onwardFrom
    split <;> rfl
  rw [call_eq hlimit, hname]
  rfl

theorem startOf_pageCall (h : l.IsWhole) :
    Gateway.startOf ((l.pageCall start).arguments.get "position") = start := by
  have hget : (l.pageCall start).arguments.get "position" =
      (l.onwardFrom start).arguments.get "position" := rfl
  rw [hget, onwardFrom]
  split
  · rw [Fields.get, Fields.get?, h.position, ‹start = 0›]
    rfl
  · rw [Fields.get, Fields.get?, startingAt, Fields.put, Pairs.lookup_put_self]
    exact Gateway.startOf_intText start

theorem pageCalls_of_le (hpos : 0 < length) (h : items ≤ length) :
    l.pageCalls length start items = [l.pageCall start] := by
  rw [pageCalls, pagesOf_of_le hpos h, List.range_one, List.map_singleton, Nat.zero_mul,
    Nat.add_zero]

/-- The first page, then the pages of the other items. -/
theorem pageCalls_add (hpos : 0 < length) (h : 0 < items) :
    l.pageCalls length start (length + items) =
      l.pageCall start :: l.pageCalls length (start + length) items := by
  rw [pageCalls, pagesOf_add hpos h, List.range_succ_eq_map, List.map_cons, List.map_map, pageCalls,
    Nat.zero_mul, Nat.add_zero]
  congr 1
  refine List.map_congr_left fun i _ => ?_
  rw [Function.comp_apply, Nat.add_assoc, Nat.succ_mul, Nat.add_comm length]

end Listing

namespace Gateway
variable {g : Gateway} {items : List Value} {l : Listing} {start : Nat}

/-- The length of the pages that are asked for. -/
def pageLength (g : Gateway) : Nat := (min Listing.pageLimit g.pageSize).toNat

theorem pageLength_pos (h : 1 ≤ g.pageSize) : 0 < g.pageLength := by
  have : (1 : Int) ≤ Listing.pageLimit := by decide
  unfold pageLength
  omega

/-- The calls of a name are answered with the pages of some items. -/
def Lists (g : Gateway) (name : String) (items : List Value) : Prop :=
  ∀ arguments, g.answer ⟨name, arguments⟩ = (g.page items arguments, g)

theorem lists_versions (g : Gateway) : g.Lists "get_documentation_versions" g.versions :=
  fun _ => rfl

theorem lists_parts (g : Gateway) : g.Lists "get_documentation_parts" g.parts := fun _ => rfl

/-- The page of a listing that starts with the item of a number. -/
def pageFrom (g : Gateway) (items : List Value) (start : Nat) : Fields :=
  (.str "items", .list ((items.drop start).take g.pageLength)) ::
    if g.pageLength < (items.drop start).length then
      [(.str "position", .str (Decimal.intText (start + g.pageLength : Nat)))]
    else []

theorem page_pageCall (h : l.IsWhole) :
    g.page items (l.pageCall start).arguments = .object (g.pageFrom items start) := by
  have hlimit : limitOf (l.pageCall start).arguments = Listing.pageLimit := rfl
  have hpage : g.page items (l.pageCall start).arguments =
      .ofPairs (("items", .list ((items.drop start).take g.pageLength)) ::
        if start + g.pageLength < items.length then
          [("position", .str (Decimal.intText (start + g.pageLength : Nat)))]
        else []) := by
    rw [page, Listing.startOf_pageCall h, hlimit]
    rfl
  rw [hpage, pageFrom, List.length_drop]
  by_cases hmore : g.pageLength < items.length - start
  · rw [if_pos hmore, if_pos (show start + g.pageLength < items.length by omega)]
    rfl
  · rw [if_neg hmore, if_neg (show ¬start + g.pageLength < items.length by omega)]
    rfl

/-- A listing that is asked for a page gets it. -/
theorem recording_pageCall (h : l.IsWhole) (hg : g.Lists l.name items) (calls : List Call) :
    client.recording (l.pageCall start) ⟨calls, g⟩ =
      .ok (.object (g.pageFrom items start)) ⟨calls ++ [l.pageCall start], g⟩ := by
  have hanswer : g.answer (l.pageCall start) = (.object (g.pageFrom items start), g) :=
    (hg _).trans (congrArg (·, g) (page_pageCall h))
  have hclient : client (l.pageCall start) g = .ok (.object (g.pageFrom items start)) g := by
    show EStateM.Result.ok (g.answer _).1 (g.answer _).2 = _
    rw [hanswer]
  rw [Client.recording_apply, hclient]

theorem pageItems_pageFrom :
    Listing.pageItems (g.pageFrom items start) = .ok ((items.drop start).take g.pageLength) := rfl

/-- A page names the next position as long as there are items left. -/
theorem position_pageFrom :
    (g.pageFrom items start).get "position" =
      if g.pageLength < (items.drop start).length then
        .str (Decimal.intText (start + g.pageLength : Nat))
      else .null := by
  unfold pageFrom
  split <;> rfl

end Gateway

namespace Listing
variable {α : Type} {l : Listing} {g : Gateway} {xs : List Value} {start pages : Nat}
  {calls : List Call} {look : Value → Result (Option α)} {hit : Value → Option α}

theorem truthy_intText (n : Nat) : (Value.str (Decimal.intText n)).truthy = true :=
  decide_eq_true Decimal.intText_ne_empty

theorem findSomeM?_eq (h : ∀ x ∈ xs, look x = .ok (hit x)) :
    xs.findSomeM? look = .ok (xs.findSome? hit) := by
  induction xs with
  | nil => rfl
  | cons x xs ih =>
    obtain ⟨hx, hxs⟩ := List.forall_mem_cons.mp h
    rw [List.findSomeM?, hx, Result.ok_bind, List.findSome?]
    cases hit x with
    | some a => rfl
    | none => exact ih hxs

theorem findSome?_of_take_some {n : Nat} {ys : List Value} {a : α}
    (h : (ys.take n).findSome? hit = some a) : ys.findSome? hit = some a := by
  conv_lhs => rw [← List.take_append_drop n ys]
  rw [List.findSome?_append, h, Option.some_or]

theorem findSome?_of_take_none {n : Nat} {ys : List Value}
    (h : (ys.take n).findSome? hit = none) :
    ys.findSome? hit = (ys.drop n).findSome? hit := by
  conv_lhs => rw [← List.take_append_drop n ys]
  rw [List.findSome?_append, h, Option.none_or]

/-- A search that finds nothing on the first page goes on after it. -/
theorem upToFirst_of_none {n : Nat} {ys : List Value} (hn : n ≤ ys.length)
    (h : (ys.take n).findSome? hit = none) :
    upToFirst (fun y => (hit y).isSome) ys =
      n + upToFirst (fun y => (hit y).isSome) (ys.drop n) := by
  have hidx : (ys.take n).findIdx (fun y => (hit y).isSome) = (ys.take n).length := by
    refine List.findIdx_eq_length.mpr fun y hy => ?_
    rw [List.findSome?_eq_none_iff.mp h y hy]
    rfl
  have hlen : (ys.take n).length = n := List.length_take_of_le hn
  have hsum : ys.findIdx (fun y => (hit y).isSome) =
      n + (ys.drop n).findIdx (fun y => (hit y).isSome) := by
    conv_lhs => rw [← List.take_append_drop n ys]
    rw [List.findIdx_append, hidx, if_neg (Nat.lt_irrefl _), hlen, Nat.add_comm]
  rw [upToFirst, upToFirst, hsum, List.length_drop]
  omega

theorem upToFirst_le_length {ys : List Value} :
    upToFirst (fun y => (hit y).isSome) ys ≤ ys.length := Nat.min_le_right _ _

theorem upToFirst_le_of_some {n : Nat} {ys : List Value} {a : α}
    (h : (ys.take n).findSome? hit = some a) : upToFirst (fun y => (hit y).isSome) ys ≤ n := by
  obtain ⟨y, hy, hya⟩ := List.exists_of_findSome?_eq_some h
  have hlt : (ys.take n).findIdx (fun y => (hit y).isSome) < (ys.take n).length :=
    List.findIdx_lt_length_of_exists ⟨y, hy, by rw [hya]; rfl⟩
  have hle : ys.findIdx (fun y => (hit y).isSome) < n := by
    conv_lhs => rw [← List.take_append_drop n ys]
    rw [List.findIdx_append, if_pos hlt]
    exact Nat.lt_of_lt_of_le hlt (List.length_take_le n ys)
  rw [upToFirst]
  omega

/-- A listing that is asked for a page goes on with it. -/
theorem bind_page {β : Type} (hl : l.IsWhole) (hg : g.Lists l.name xs)
    (f : Fields → Edit (Recorded Gateway) β) :
    (Edit.ofResult (l.onwardFrom start).call >>= fun call => Gateway.client.recording call >>=
      fun answer => Edit.ofResult answer.asObject >>= f) ⟨calls, g⟩ =
        f (g.pageFrom xs start) ⟨calls ++ [l.pageCall start], g⟩ := by
  rw [call_onwardFrom hl, Edit.ofResult_ok, pure_bind,
    Edit.bind_of_ok (Gateway.recording_pageCall hl hg calls)]
  rfl

/-- A search gives the first result and asks for the pages up to the one that has it. -/
theorem find_from (hl : l.IsWhole) (hg : g.Lists l.name xs) (hpos : 0 < g.pageLength)
    (hlook : ∀ x ∈ xs, look x = .ok (hit x)) (hpages : xs.length - start < pages) :
    find Gateway.client.recording look pages (l.onwardFrom start) ⟨calls, g⟩ =
      .ok ((xs.drop start).findSome? hit)
        ⟨calls ++ l.pageCalls g.pageLength start
          (upToFirst (fun x => (hit x).isSome) (xs.drop start)), g⟩ := by
  induction pages generalizing start calls with
  | zero => exact absurd hpages (Nat.not_lt_zero _)
  | succ pages ih =>
    have hfirst : ((xs.drop start).take g.pageLength).findSomeM? look =
        .ok (((xs.drop start).take g.pageLength).findSome? hit) :=
      findSomeM?_eq fun x hx => hlook x (List.mem_of_mem_drop (List.mem_of_mem_take hx))
    rw [find, bind_page hl hg, Gateway.pageItems_pageFrom, Edit.ofResult_ok, pure_bind, hfirst,
      Edit.ofResult_ok, pure_bind]
    cases hsome : ((xs.drop start).take g.pageLength).findSome? hit with
    | some a =>
      -- the page has a result, so no other page is asked for
      rw [findSome?_of_take_some hsome, pageCalls_of_le hpos (upToFirst_le_of_some hsome)]
      rfl
    | none =>
      -- the search goes on as long as the page names a position, that is, if items are left
      dsimp only
      rw [Gateway.position_pageFrom]
      by_cases hmore : g.pageLength < (xs.drop start).length
      · have hleft : 0 < upToFirst (fun x => (hit x).isSome) (xs.drop (start + g.pageLength)) := by
          rw [upToFirst, List.length_drop]
          rw [List.length_drop] at hmore
          omega
        rw [if_pos hmore, if_pos (truthy_intText _), startingAt_onwardFrom (by omega), ih,
          List.append_assoc, List.singleton_append, findSome?_of_take_none hsome,
          upToFirst_of_none (Nat.le_of_lt hmore) hsome, List.drop_drop, pageCalls_add hpos hleft]
        rw [List.length_drop] at hmore
        omega
      · have hlen : (xs.drop start).length ≤ g.pageLength := Nat.le_of_not_lt hmore
        rw [List.take_of_length_le hlen] at hsome
        rw [if_neg hmore, hsome, pageCalls_of_le hpos (Nat.le_trans upToFirst_le_length hlen)]
        rfl

/-- A listing of all items gives them and asks for all pages. -/
theorem items_from (hl : l.IsWhole) (hg : g.Lists l.name xs) (hpos : 0 < g.pageLength)
    (hpages : xs.length - start < pages) :
    items Gateway.client.recording pages (l.onwardFrom start) ⟨calls, g⟩ =
      .ok (xs.drop start)
        ⟨calls ++ l.pageCalls g.pageLength start (xs.drop start).length, g⟩ := by
  induction pages generalizing start calls with
  | zero => exact absurd hpages (Nat.not_lt_zero _)
  | succ pages ih =>
    rw [items, bind_page hl hg, Gateway.pageItems_pageFrom, Edit.ofResult_ok, pure_bind,
      Gateway.position_pageFrom]
    by_cases hmore : g.pageLength < (xs.drop start).length
    · have hsum : (xs.drop start).length =
          g.pageLength + (xs.drop (start + g.pageLength)).length := by
        rw [List.length_drop, List.length_drop]
        rw [List.length_drop] at hmore
        omega
      rw [if_pos hmore, if_pos (truthy_intText _), startingAt_onwardFrom (by omega),
        Edit.bind_of_ok (ih (by rw [List.length_drop] at hmore; omega)), hsum,
        pageCalls_add hpos (by omega), List.append_assoc, List.singleton_append, ← List.drop_drop,
        Edit.pure_apply, List.take_append_drop]
    · have hlen : (xs.drop start).length ≤ g.pageLength := Nat.le_of_not_lt hmore
      rw [if_neg hmore, pageCalls_of_le hpos hlen, List.take_of_length_le hlen]
      rfl

end Listing
end GatewayDocs
