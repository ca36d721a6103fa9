import GatewayDocs.Proofs.Json
import GatewayDocs.Proofs.Paging

/-! # Publications over a gateway

What a publication does is fixed by the gateway that it meets.  If its version is listed, it only
looks for it and nothing changes (`Publication.upload_of_isListed`).  Otherwise it lists the
versions, lists the parts, deletes each part that was listed, creates its own parts in order and
then its version; it succeeds if and only if its parts can be sent (`Publication.upload_eq_ok`),
and of the parts only the new ones are left (`Gateway.published`).

If calls of one name fail, a publication that succeeds is still this one (`upload_ok_of_failing`),
and one that does not keeps the versions as they are, because the version is created by the last
call (`upload_error_keeps`). -/

namespace GatewayDocs

namespace Publication
variable {σ : Type} {client c d : Client σ} {pages : Nat} {p : Publication} {item : Value}
  {part : LoosePart}

/-! ### The calls of a publication -/

/-- Makes a call, if there is one to make. -/
def ask (client : Client σ) (call : Result Call) : Edit σ Unit := do
  let call ← Edit.ofResult call
  let _ ← client call
  return ()

/-- The call that deletes a part that is listed. -/
def deletion (p : Publication) (item : Value) : Result Call := do
  let id ← listedId item
  return p.call "delete_documentation_part" [("documentationPartId", id)]

/-- The call that creates a part. -/
def creation (p : Publication) (part : LoosePart) : Result Call := do
  let location ← part.location.asPairs
  let properties ← Json.writeSorted Json.spaced part.properties
  return p.call "create_documentation_part"
    [("location", .object location), ("properties", .str properties)]

/-- The calls that create the parts, in order; there are none if a part cannot be sent. -/
def creations (p : Publication) : Result (List Call) := p.parts.mapM p.creation

theorem deletePart_eq : deletePart client p item = ask client (p.deletion item) := by
  rw [ask, deletion, Edit.ofResult_bind, bind_assoc]
  rfl

theorem createPart_eq : createPart client p part = ask client (p.creation part) := by
  unfold ask creation
  simp only [Edit.ofResult_bind, bind_assoc]
  rfl

/-- Deletes the parts that are there and creates new ones. -/
def replaceParts (client : Client σ) (pages : Nat) (p : Publication) : Edit σ Unit := do
  let listed ← Listing.items client pages (p.listing "get_documentation_parts")
  listed.forM fun item => ask client (p.deletion item)
  p.parts.forM fun part => ask client (p.creation part)

theorem upload_eq : upload client pages p =
    Listing.find client p.isVersion pages (p.listing "get_documentation_versions") >>= fun found =>
      if found.isSome then throw (.versionExists p.version.spelled)
      else replaceParts client pages p >>= fun _ => client p.versionCall >>= fun _ => pure () := by
  unfold upload replaceParts
  simp only [Edit.forIn_eq_forM, deletePart_eq, createPart_eq, bind_assoc]
  refine congrArg _ (funext fun found => ?_)
  cases found <;> rfl

theorem deletion_eq_ok {call : Call} (h : p.deletion item = .ok call) :
    call.name = "delete_documentation_part" := by
  obtain ⟨id, -, h⟩ := Result.bind_eq_ok.mp h
  cases h
  rfl

theorem creation_eq_ok {call : Call} (h : p.creation part = .ok call) :
    call.name = "create_documentation_part" := by
  obtain ⟨location, -, h⟩ := Result.bind_eq_ok.mp h
  obtain ⟨properties, -, h⟩ := Result.bind_eq_ok.mp h
  cases h
  rfl

theorem names_of_creations {parts : List LoosePart} {calls : List Call}
    (h : parts.mapM p.creation = .ok calls) :
    ∀ call ∈ calls, call.name = "create_documentation_part" := fun call hcall => by
  obtain ⟨part, -, hpart⟩ := Result.exists_of_mem_mapM h hcall
  exact creation_eq_ok hpart

/-- A part from JSON can be sent if its location is an object. -/
theorem exists_creations_of_isJson
    (h : ∀ part ∈ p.parts, (∃ fs, part.location.fields? = some fs) ∧
      part.properties.isJson = true) : ∃ calls, p.creations = .ok calls := by
  have hpart : ∀ part ∈ p.parts, ∃ call, p.creation part = .ok call ∧ True := fun part hpart => by
    obtain ⟨⟨fs, hfs⟩, hjson⟩ := h part hpart
    refine ⟨p.call "create_documentation_part" [("location", .object fs),
      ("properties", .str (Json.render Json.spaced part.properties.sorted))], ?_, trivial⟩
    rw [creation, Value.asPairs, hfs, Value.writeSorted_of_isJson _ hjson]
    rfl
  obtain ⟨calls, hcalls, -⟩ := Result.exists_mapM (R := fun _ _ => True) hpart
  exact ⟨calls, hcalls⟩

theorem ask_refines {call : Result Call} (h : ∀ call, (c call).Refines (d call)) :
    (ask c call).Refines (ask d call) :=
  .bind (.refl _) fun call => .bind (h call) fun _ => .refl _

theorem upload_refines (h : ∀ call, (c call).Refines (d call)) :
    (upload c pages p).Refines (upload d pages p) := by
  rw [upload_eq, upload_eq]
  refine .bind (Listing.find_refines h) fun found => ?_
  split
  · exact .refl _
  · refine .bind ?_ fun _ => .bind (h _) fun _ => .refl _
    exact .bind (Listing.items_refines h) fun listed =>
      .bind (.forM (fun item => ask_refines h) listed) fun _ => .forM (fun part => ask_refines h) _

variable {I : σ → Prop}

theorem keeps_ask {call : Result Call} (h : ∀ made, call = .ok made → (client made).Keeps I) :
    (ask client call).Keeps I :=
  Edit.keeps_ofResult_bind fun made hmade => (h made hmade).bind fun _ => Edit.keeps_pure _

/-- Replacing parts keeps what all calls but the creation of a version keep. -/
theorem keeps_replaceParts
    (h : ∀ call, call.name ≠ "create_documentation_version" → (client call).Keeps I) :
    (replaceParts client pages p).Keeps I := by
  have hlisting : ∀ call : Call, call.name = "get_documentation_parts" → (client call).Keeps I :=
    fun call hcall => h call (by rw [hcall]; decide)
  refine (Listing.keeps_items hlisting).bind fun listed => Edit.Keeps.bind ?_ fun _ => ?_
  · exact .forM fun item _ => keeps_ask fun call hcall =>
      h call (by rw [deletion_eq_ok hcall]; decide)
  · exact .forM fun part _ => keeps_ask fun call hcall =>
      h call (by rw [creation_eq_ok hcall]; decide)

end Publication

namespace Gateway
variable {g : Gateway} {v w id : Value} {items : List Value} {calls : List Call} {p : Publication}

/-! ### Gateways -/

/-- A part that can be deleted: it has an identifier, which equals itself. -/
def IsPart (item : Value) : Prop := ∃ id, item.field? "id" = some id ∧ id.equals id = true

/-- A gateway whose listings can be read: it answers in pages that are not empty, and what it lists
are versions and parts. -/
structure Proper (g : Gateway) : Prop where
  pageSize : 1 ≤ g.pageSize
  versions : ∀ item ∈ g.versions, ∃ fs, item.fields? = some fs
  parts : ∀ item ∈ g.parts, IsPart item

/-- Whether a version is among those that are published. -/
def isListed (g : Gateway) (version : Value) : Bool := g.versionNames.any (·.equals version)

/-- No version is published twice. -/
def Distinct (g : Gateway) : Prop := g.versionNames.Pairwise fun v w => v.equals w = false

/-- The parts that are created after some others. -/
def newParts (created count : Nat) : List Value :=
  (List.range count).map fun i =>
    .ofPairs [("id", .str ("new" ++ Decimal.intText (created + i + 1 : Nat)))]

/-- The item that lists a version. -/
def versionItem (version : Value) : Value := .ofPairs [("version", version)]

/-- A gateway with one more version, whose parts are those that were created for it. -/
def published (g : Gateway) (version : Value) (count : Nat) : Gateway :=
  { g with
    versions := g.versions ++ [versionItem version]
    parts := newParts g.created count
    created := g.created + count }

theorem fieldOf_versionItem : fieldOf "version" (versionItem v) = v := by
  simp [fieldOf, versionItem, Value.ofPairs, Value.field?, Fields.get?, Pairs.lookup]

theorem fieldOf_of_fields? {fs : Fields} {key : String} (h : v.fields? = some fs) :
    fieldOf key v = fs.get key := by
  rw [fieldOf, Value.field?, h]
  rfl

theorem isPart_of_mem_newParts {created count : Nat} (h : v ∈ newParts created count) :
    IsPart v := by
  obtain ⟨i, -, rfl⟩ := List.mem_map.mp h
  refine ⟨.str ("new" ++ Decimal.intText (created + i + 1 : Nat)), ?_, ?_⟩
  · simp [Value.ofPairs, Value.field?, Fields.get?, Pairs.lookup]
  · simp [Value.equals, Atom.isNaN]

theorem newParts_succ {created count : Nat} :
    newParts created (count + 1) =
      .ofPairs [("id", .str ("new" ++ Decimal.intText (created + 1 : Nat)))] ::
        newParts (created + 1) count := by
  rw [newParts, List.range_succ_eq_map, List.map_cons, List.map_map, Nat.add_zero, newParts]
  congr 1
  refine List.map_congr_left fun i _ => ?_
  rw [Function.comp_apply, Nat.add_right_comm created 1 i]
  rfl

theorem versionNames_published {count : Nat} :
    (g.published v count).versionNames = g.versionNames ++ [v] := by
  rw [versionNames, published, List.map_append, List.map_singleton, fieldOf_versionItem]
  rfl

theorem Proper.published (h : g.Proper) (v : Value) (count : Nat) :
    (g.published v count).Proper where
  pageSize := h.pageSize
  versions := fun item hitem => by
    rcases List.mem_append.mp hitem with hitem | hitem
    · exact h.versions item hitem
    · rw [List.mem_singleton.mp hitem]
      exact ⟨_, rfl⟩
  parts := fun _ => isPart_of_mem_newParts

/-- A version that is not listed makes distinct versions one more. -/
theorem Distinct.published {count : Nat} (h : g.Distinct) (hv : g.isListed v = false) :
    (g.published v count).Distinct := by
  rw [Distinct, versionNames_published, List.pairwise_append]
  refine ⟨h, List.pairwise_singleton _ _, fun w hw u hu => ?_⟩
  rw [List.mem_singleton.mp hu]
  exact Bool.eq_false_iff.mpr (List.any_eq_false.mp hv w hw)

/-! ### Calls one after the other -/

/-- A gateway after some calls. -/
def after (g : Gateway) (calls : List Call) : Gateway :=
  calls.foldl (fun g call => (g.answer call).2) g

theorem recording_apply (call : Call) (r : Recorded Gateway) :
    client.recording call r =
      .ok (r.state.answer call).1 ⟨r.calls ++ [call], (r.state.answer call).2⟩ := rfl

/-- Calls are made one after the other if all of them can be. -/
theorem forM_ask_eq_ok {α : Type} {f : α → Result Call} {xs : List α} {r t : Recorded Gateway} :
    xs.forM (fun x => Publication.ask client.recording (f x)) r = .ok () t ↔
      ∃ calls, xs.mapM f = .ok calls ∧ t = ⟨r.calls ++ calls, r.state.after calls⟩ := by
  induction xs generalizing r with
  | nil =>
    constructor
    · intro h
      obtain ⟨-, rfl⟩ := Edit.pure_eq_ok.mp h
      exact ⟨[], rfl, by rw [List.append_nil]; rfl⟩
    · rintro ⟨calls, hcalls, rfl⟩
      cases hcalls
      show EStateM.Result.ok () r = .ok () ⟨r.calls ++ [], r.state⟩
      rw [List.append_nil]
  | cons x xs ih =>
    have hask : ∀ call u, f x = .ok call →
        (Publication.ask client.recording (f x) r = .ok () u ↔
          u = ⟨r.calls ++ [call], (r.state.answer call).2⟩) := fun call u hcall => by
      rw [Publication.ask, hcall, Edit.ofResult_ok, pure_bind,
        Edit.bind_of_ok (recording_apply call r)]
      exact ⟨fun h => (Edit.pure_eq_ok.mp h).2.symm, fun h => h ▸ rfl⟩
    show (Publication.ask client.recording (f x) >>= fun _ => xs.forM _) r = _ ↔ _
    rw [Edit.bind_eq_ok]
    constructor
    · rintro ⟨⟨⟩, u, hu, ht⟩
      obtain ⟨call, hcall⟩ : ∃ call, f x = .ok call := by
        obtain ⟨call, _, hcall, -⟩ := Edit.bind_eq_ok.mp hu
        exact ⟨call, (Edit.ofResult_eq_ok.mp hcall).1⟩
      obtain rfl := (hask call u hcall).mp hu
      obtain ⟨calls, hcalls, rfl⟩ := ih.mp ht
      refine ⟨call :: calls, Result.mapM_eq_ok.mpr (.cons hcall (Result.mapM_eq_ok.mp hcalls)), ?_⟩
      rw [List.append_assoc, List.singleton_append]
      rfl
    · rintro ⟨calls, hcalls, rfl⟩
      obtain ⟨call, rest, hcall, hrest, rfl⟩ :=
        List.forall₂_cons_left_iff.mp (Result.mapM_eq_ok.mp hcalls)
      refine ⟨(), _, (hask call _ hcall).mpr rfl, ih.mpr ⟨rest, Result.mapM_eq_ok.mpr hrest, ?_⟩⟩
      rw [List.append_assoc, List.singleton_append]
      rfl

/-! ### Deleting and creating parts -/

/-- The call that deletes a listed part. -/
def deletionOf (p : Publication) (item : Value) : Call :=
  p.call "delete_documentation_part" [("documentationPartId", fieldOf "id" item)]

theorem deletion_of_isPart (h : IsPart v) : p.deletion v = .ok (deletionOf p v) := by
  obtain ⟨id, hid, -⟩ := h
  obtain ⟨fs, hfs, hget⟩ := Option.bind_eq_some_iff.mp hid
  rw [Publication.deletion, Publication.listedId, Value.asObject_eq_ok_iff.mpr hfs, Result.ok_bind,
    hget, deletionOf, fieldOf, hid]
  rfl

theorem mapM_deletion (h : ∀ item ∈ items, IsPart item) :
    items.mapM p.deletion = .ok (items.map (deletionOf p)) :=
  Result.mapM_eq_ok.mpr (List.forall₂_map_right_iff.mpr
    (List.forall₂_same.mpr fun item hitem => deletion_of_isPart (h item hitem)))

/-- Of the parts those are left whose identifiers were not among the deleted ones. -/
theorem after_deletions (g : Gateway) (items : List Value) :
    g.after (items.map (deletionOf p)) =
      { g with parts := g.parts.filter fun part =>
          items.all fun item => !(fieldOf "id" part).equals (fieldOf "id" item) } := by
  induction items generalizing g with
  | nil =>
    show g = _
    simp only [List.all_nil, List.filter_true]
  | cons item items ih =>
    have hdelete : (g.answer (deletionOf p item)).2 = g.deletePart (fieldOf "id" item) := by
      simp [answer, deletionOf, Publication.call, Fields.get, Fields.get?, Pairs.lookup]
    rw [List.map_cons]
    show (g.answer (deletionOf p item)).2.after _ = _
    rw [hdelete, ih, deletePart, List.filter_filter]
    simp only [List.all_cons, Bool.and_comm]

theorem after_deletions_self (h : ∀ item ∈ g.parts, IsPart item) :
    g.after (g.parts.map (deletionOf p)) = { g with parts := [] } := by
  rw [after_deletions]
  congr 1
  refine List.filter_eq_nil_iff.mpr fun part hpart hall => ?_
  -- every part is among those that were deleted
  obtain ⟨id, hid, hself⟩ := h part hpart
  have hne := List.all_eq_true.mp hall part hpart
  rw [fieldOf, hid, Option.getD_some, hself] at hne
  cases hne

theorem after_creations (h : ∀ call ∈ calls, call.name = "create_documentation_part") :
    g.after calls =
      { g with
        parts := g.parts ++ newParts g.created calls.length
        created := g.created + calls.length } := by
  induction calls generalizing g with
  | nil =>
    show g = _
    rw [newParts, List.length_nil, List.range_zero, List.map_nil, List.append_nil, Nat.add_zero]
  | cons call calls ih =>
    obtain ⟨hcall, hcalls⟩ := List.forall_mem_cons.mp h
    have hcreate : (g.answer call).2 = g.createPart := by
      rw [answer, hcall]
      rfl
    show (g.answer call).2.after calls = _
    rw [hcreate, ih hcalls, createPart, List.length_cons, newParts_succ, List.append_assoc,
      List.singleton_append, Nat.add_assoc, Nat.add_comm 1]

theorem after_versionCall : (g.answer p.versionCall).2 = g.createVersion p.version := by
  simp [answer, Publication.versionCall, Publication.call, Fields.get, Fields.get?, Pairs.lookup]

/-- A gateway retains the versions and pages of another one, and lists parts. -/
structure Retains (g h : Gateway) : Prop where
  versions : h.versions = g.versions
  pageSize : h.pageSize = g.pageSize
  parts : ∀ item ∈ h.parts, IsPart item

/-- Only the call that creates a version changes the versions. -/
theorem keeps_retains {call : Call} (h : call.name ≠ "create_documentation_version") :
    (client call).Keeps g.Retains := fun s hs => by
  show g.Retains (s.answer call).2
  unfold answer
  dsimp only
  split
  · exact hs
  · exact hs
  · exact ⟨hs.versions, hs.pageSize, fun item hitem =>
      hs.parts item (List.mem_filter.mp hitem).1⟩
  · refine ⟨hs.versions, hs.pageSize, fun item hitem => ?_⟩
    rcases List.mem_append.mp hitem with hitem | hitem
    · exact hs.parts item hitem
    · have hnew : item ∈ newParts s.created 1 := by
        rw [newParts_succ]
        exact hitem
      exact isPart_of_mem_newParts hnew
  · exact absurd ‹_› h
  · exact hs

theorem Proper.of_retains {h : Gateway} (hg : g.Proper) (hr : g.Retains h) : h.Proper :=
  ⟨hr.pageSize ▸ hg.pageSize, hr.versions ▸ hg.versions, hr.parts⟩

theorem Retains.versionNames {h : Gateway} (hr : g.Retains h) :
    h.versionNames = g.versionNames := by
  rw [Gateway.versionNames, hr.versions]
  rfl

theorem lt_enoughPages (g : Gateway) :
    g.versions.length < g.enoughPages ∧ g.parts.length < g.enoughPages := by
  unfold Gateway.enoughPages
  omega

end Gateway

namespace Publication
variable {p : Publication} {g : Gateway} {calls : List Call} {pages : Nat}
  {failing? : Option String} {t : Recorded Gateway} {e : Failure}

theorem isWhole_listing (name : String) : (p.listing name).IsWhole where
  limit := Pairs.lookup_cons_of_ne (by simp)
  position := Pairs.lookup_cons_of_ne (by simp)

/-- Whether an item lists the version. -/
def lists (p : Publication) (item : Value) : Bool :=
  (Gateway.fieldOf "version" item).equals p.version

/-- The calls that look for the version: the pages up to the one that has it. -/
def searchCalls (p : Publication) (g : Gateway) : List Call :=
  (p.listing "get_documentation_versions").pageCalls g.pageLength 0 (upToFirst p.lists g.versions)

/-- The calls that list the parts and delete each of them. -/
def clearingCalls (p : Publication) (g : Gateway) : List Call :=
  (p.listing "get_documentation_parts").pageCalls g.pageLength 0 g.parts.length ++
    g.parts.map (Gateway.deletionOf p)

theorem findSome?_sought (sought : Value → Bool) (items : List Value) :
    items.findSome? (fun item => if sought item then some () else none) =
      if items.any sought then some () else none := by
  induction items with
  | nil => rfl
  | cons item items ih =>
    rw [List.findSome?_cons, List.any_cons, ih]
    cases sought item <;> rfl

theorem isListed_eq : g.isListed p.version = g.versions.any p.lists := List.any_map

/-- A search for the version looks at the listed versions and changes nothing. -/
theorem find_isVersion (hg : g.Proper) (hpages : g.enoughPages ≤ pages) :
    Listing.find Gateway.client.recording p.isVersion pages
        (p.listing "get_documentation_versions") ⟨calls, g⟩ =
      .ok (if g.isListed p.version then some () else none) ⟨calls ++ p.searchCalls g, g⟩ := by
  have hlook : ∀ item ∈ g.versions, p.isVersion item =
      .ok (if p.lists item then some () else none) := fun item hitem => by
    obtain ⟨fs, hfs⟩ := hg.versions item hitem
    rw [isVersion, Value.asObject_eq_ok_iff.mpr hfs, lists, Gateway.fieldOf_of_fields? hfs]
    rfl
  have hfind : Listing.find Gateway.client.recording p.isVersion pages
      ((p.listing "get_documentation_versions").onwardFrom 0) ⟨calls, g⟩ = _ :=
    Listing.find_from (isWhole_listing _) g.lists_versions (Gateway.pageLength_pos hg.pageSize)
      hlook (Nat.lt_of_lt_of_le (g.lt_enoughPages).1 hpages)
  have hsought : (fun item => (if p.lists item then some () else none).isSome) = p.lists := by
    funext item
    cases p.lists item <;> rfl
  rw [Listing.onwardFrom_zero, hsought, List.drop_zero, findSome?_sought, ← isListed_eq] at hfind
  exact hfind

/-- Replacing the parts creates the new ones once the gateway is cleared of those that it lists. -/
theorem replaceParts_eq (hg : g.Proper) (hpages : g.enoughPages ≤ pages) :
    replaceParts Gateway.client.recording pages p ⟨calls, g⟩ =
      p.parts.forM (fun part => ask Gateway.client.recording (p.creation part))
        ⟨calls ++ p.clearingCalls g, { g with parts := [] }⟩ := by
  have hitems : Listing.items Gateway.client.recording pages
      ((p.listing "get_documentation_parts").onwardFrom 0) ⟨calls, g⟩ = _ :=
    Listing.items_from (isWhole_listing _) g.lists_parts (Gateway.pageLength_pos hg.pageSize)
      (Nat.lt_of_lt_of_le (g.lt_enoughPages).2 hpages)
  have hdeleted : ∀ r : Recorded Gateway,
      g.parts.forM (fun item => ask Gateway.client.recording (p.deletion item)) r =
        .ok () ⟨r.calls ++ g.parts.map (Gateway.deletionOf p),
          r.state.after (g.parts.map (Gateway.deletionOf p))⟩ := fun r =>
    Gateway.forM_ask_eq_ok.mpr ⟨_, Gateway.mapM_deletion hg.parts, rfl⟩
  rw [Listing.onwardFrom_zero, List.drop_zero] at hitems
  rw [replaceParts, Edit.bind_of_ok hitems, Edit.bind_of_ok (hdeleted _),
    Gateway.after_deletions_self hg.parts, clearingCalls, List.append_assoc calls]

/-- Replacing the parts succeeds if the new ones can be sent, and only they are left. -/
theorem replaceParts_eq_ok (hg : g.Proper) (hpages : g.enoughPages ≤ pages) :
    replaceParts Gateway.client.recording pages p ⟨calls, g⟩ = .ok () t ↔
      ∃ creations, p.creations = .ok creations ∧
        t = ⟨calls ++ p.clearingCalls g ++ creations,
          { g with
            parts := Gateway.newParts g.created creations.length
            created := g.created + creations.length }⟩ := by
  rw [replaceParts_eq hg hpages, Gateway.forM_ask_eq_ok]
  refine exists_congr fun creations => and_congr_right fun hcreations => ?_
  rw [Gateway.after_creations (names_of_creations hcreations), List.nil_append]

/-- **A publication succeeds if its version is not listed and its parts can be sent.**  Then it
looks for the version, clears the gateway of its parts, creates its own in order, and then the
version. -/
theorem upload_eq_ok (hg : g.Proper) (hpages : g.enoughPages ≤ pages) :
    upload Gateway.client.recording pages p ⟨calls, g⟩ = .ok () t ↔
      g.isListed p.version = false ∧ ∃ creations, p.creations = .ok creations ∧
        t = ⟨calls ++ p.searchCalls g ++ p.clearingCalls g ++ creations ++ [p.versionCall],
          g.published p.version creations.length⟩ := by
  rw [upload_eq, Edit.bind_of_ok (find_isVersion hg hpages)]
  cases g.isListed p.version with
  | true => exact ⟨fun h => (nomatch h), fun h => (nomatch h.1)⟩
  | false =>
    have hcall : ∀ r : Recorded Gateway,
        (Gateway.client.recording p.versionCall >>= fun _ => pure ()) r =
          .ok () ⟨r.calls ++ [p.versionCall], r.state.createVersion p.version⟩ := fun r => by
      rw [Edit.bind_of_ok (Gateway.recording_apply _ r), Gateway.after_versionCall]
      rfl
    show (replaceParts _ _ _ >>= fun _ => Gateway.client.recording p.versionCall >>= fun _ =>
      pure ()) _ = _ ↔ _
    rw [Edit.bind_eq_ok, and_iff_right rfl]
    constructor
    · rintro ⟨_, u, hu, ht⟩
      obtain ⟨creations, hcreations, rfl⟩ := (replaceParts_eq_ok hg hpages).mp hu
      rw [hcall] at ht
      cases ht
      exact ⟨creations, hcreations, rfl⟩
    · rintro ⟨creations, hcreations, rfl⟩
      exact ⟨(), _, (replaceParts_eq_ok hg hpages).mpr ⟨creations, hcreations, rfl⟩, hcall _⟩

/-! ### Publications where calls fail -/

/-- The calls that a publication makes and the gateway that it leaves do not depend on the calls
that fail, if it succeeds. -/
theorem upload_ok_of_failing (hg : g.Proper) (hpages : g.enoughPages ≤ pages)
    (h : upload (Gateway.client.failing failing?).recording pages p ⟨calls, g⟩ = .ok () t) :
    g.isListed p.version = false ∧ ∃ creations, p.creations = .ok creations ∧
      t = ⟨calls ++ p.searchCalls g ++ p.clearingCalls g ++ creations ++ [p.versionCall],
        g.published p.version creations.length⟩ :=
  (upload_eq_ok hg hpages).mp (upload_refines (fun _ => Client.failing_refines) _ _ _ h)

/-- A publication whose version is listed changes nothing; it finds out unless the search
fails. -/
theorem upload_of_isListed (hg : g.Proper) (hpages : g.enoughPages ≤ pages)
    (h : g.isListed p.version = true) :
    ∃ t, t.state = g ∧
      upload (Gateway.client.failing failing?).recording pages p ⟨calls, g⟩ =
        .error (if failing? = some "get_documentation_versions" then
          .callFailed "get_documentation_versions" else .versionExists p.version.spelled) t := by
  have hfirst : ((p.listing "get_documentation_versions").onwardFrom 0).call = .ok _ :=
    Listing.call_onwardFrom (isWhole_listing _)
  rw [upload_eq]
  by_cases hfail : failing? = some "get_documentation_versions"
  · obtain ⟨more, rfl⟩ : ∃ more, pages = more + 1 :=
      Nat.exists_eq_add_one_of_ne_zero (by unfold Gateway.enoughPages at hpages; omega)
    rw [if_pos hfail, hfail]
    exact ⟨_, rfl, Edit.bind_of_error (Listing.find_failing_self hfirst _ _ _)⟩
  · rw [if_neg hfail, Listing.find_congr (d := Gateway.client.recording) fun call hcall =>
        Client.recording_failing_of_ne (by rw [hcall]; exact hfail),
      Edit.bind_of_ok (find_isVersion hg hpages), h]
    exact ⟨_, rfl, rfl⟩

/-- A publication that fails keeps the versions: only its last call would change them. -/
theorem upload_error_keeps (hg : g.Proper)
    (h : upload (Gateway.client.failing failing?).recording pages p ⟨calls, g⟩ = .error e t) :
    g.Retains t.state := by
  have hkeeps : ∀ call : Call, call.name ≠ "create_documentation_version" →
      ((Gateway.client.failing failing?).recording call).Keeps fun r => g.Retains r.state :=
    fun call hcall => Client.keeps_recording (Gateway.keeps_retains hcall)
  have hsearch : ((Listing.find (Gateway.client.failing failing?).recording p.isVersion pages
      (p.listing "get_documentation_versions"))).Keeps fun r => g.Retains r.state :=
    Listing.keeps_find fun call hcall => hkeeps call (by
      rw [hcall]
      exact (by decide : "get_documentation_versions" ≠ "create_documentation_version"))
  have hstart : g.Retains g := ⟨rfl, rfl, hg.parts⟩
  -- the search fails, finds the version, or is followed by the other calls, the last one apart
  rw [upload_eq, Edit.bind_eq_error] at h
  rcases h with h | ⟨found, u, hu, h⟩
  · exact hsearch.of_error hstart h
  have hu := hsearch.of_ok hstart hu
  split at h
  · cases h
    exact hu
  rcases Edit.bind_eq_error.mp h with h | ⟨_, w, hw, h⟩
  · exact (keeps_replaceParts hkeeps).of_error hu h
  have hw := (keeps_replaceParts hkeeps).of_ok hu hw
  rcases Edit.bind_eq_error.mp h with h | ⟨_, _, -, h⟩
  -- the last call is answered unless it is one of those that fail
  · by_cases hfail : failing? = some p.versionCall.name
    · rw [hfail, Client.recording_apply, Client.failing_self] at h
      cases h
      exact hw
    · rw [Client.recording_failing_of_ne hfail] at h
      cases h
  · cases h

end Publication
end GatewayDocs
