import GatewayDocs.Proofs.Attempts

/-! # The calls of a publication

A publication asks for the versions page by page, and for no page after the first that has its own
version; then it is skipped.  If no page has it, the publication lists all parts, deletes each of
them in the order in which they were listed, creates its own parts in order, and last of all its
version.  These calls are all that it makes (`Publication.publish_protocol`).  A part that cannot be
sent is found only when the parts that were there are deleted already
(`Publication.unsendable_part_fails`).

A search asks for the pages up to the item that it finds; here this is said in terms of the pages
themselves: the first page that has what is sought is the last one that is asked for
(`Listing.pageCalls_upToFirst`). -/

namespace GatewayDocs

section Pages
variable {α : Type} {length k : Nat} {xs : List α} {sought : α → Bool}

/-- The items of the page of a number. -/
def pageOf (length : Nat) (xs : List α) (k : Nat) : List α := (xs.drop (k * length)).take length

/-- The first page that has an item which is sought. -/
structure IsFirstPage (length : Nat) (sought : α → Bool) (xs : List α) (k : Nat) : Prop where
  here : (pageOf length xs k).any sought = true
  before : ∀ j < k, (pageOf length xs j).any sought = false

theorem getElem?_pageOf (xs : List α) (k : Nat) {i : Nat} (h : i < length) :
    (pageOf length xs k)[i]? = xs[k * length + i]? := by
  rw [pageOf, List.getElem?_take_of_lt h, List.getElem?_drop]

/-- The first page that has what is sought is the one on which the first such item stands. -/
theorem isFirstPage_findIdx (hpos : 0 < length) (h : xs.any sought = true) :
    IsFirstPage length sought xs (xs.findIdx sought / length) := by
  have hlt : xs.findIdx sought < xs.length :=
    List.findIdx_lt_length_of_exists (List.any_eq_true.mp h)
  constructor
  · -- the item that is found has its place on this page
    have hplace : xs.findIdx sought / length * length + xs.findIdx sought % length =
        xs.findIdx sought := by
      rw [Nat.mul_comm]
      exact Nat.div_add_mod _ _
    have hitem := getElem?_pageOf xs (xs.findIdx sought / length)
      (Nat.mod_lt (xs.findIdx sought) hpos)
    rw [hplace, List.getElem?_eq_getElem hlt] at hitem
    exact List.any_eq_true.mpr ⟨_, List.mem_of_getElem? hitem, List.findIdx_getElem⟩
  · intro j hj
    refine List.any_eq_false.mpr fun x hx => ?_
    obtain ⟨i, hi⟩ := List.mem_iff_getElem?.mp hx
    have hil : i < length := by
      have hi' := (List.getElem?_eq_some_iff.mp hi).1
      exact Nat.lt_of_lt_of_le hi' (List.length_take_le _ _)
    rw [getElem?_pageOf _ _ hil] at hi
    -- the items of an earlier page stand before the first one that is sought
    have hbefore : j * length + i < xs.findIdx sought := by
      have hle : (j + 1) * length ≤ xs.findIdx sought :=
        Nat.le_trans (Nat.mul_le_mul_right _ hj) (Nat.div_mul_le_self _ _)
      rw [Nat.succ_mul] at hle
      omega
    obtain ⟨_, rfl⟩ := List.getElem?_eq_some_iff.mp hi
    exact Bool.eq_false_iff.mp (List.not_of_lt_findIdx hbefore)

end Pages

namespace Listing
variable {l : Listing} {length k : Nat} {xs : List Value} {sought : Value → Bool}

/-- The calls for all pages of some items. -/
def allPages (l : Listing) (length : Nat) (xs : List Value) : List Call :=
  l.pageCalls length 0 xs.length

/-- The pages up to an item which is found are those up to the first page that has one. -/
theorem pageCalls_upToFirst (hpos : 0 < length) (h : xs.any sought = true) :
    ∃ k, IsFirstPage length sought xs k ∧
      l.pageCalls length 0 (upToFirst sought xs) = (l.allPages length xs).take (k + 1) := by
  have hlt : xs.findIdx sought < xs.length :=
    List.findIdx_lt_length_of_exists (List.any_eq_true.mp h)
  refine ⟨_, isFirstPage_findIdx hpos h, ?_⟩
  have hpages : pagesOf length (upToFirst sought xs) = xs.findIdx sought / length + 1 := by
    rw [pagesOf, upToFirst, Nat.min_eq_left hlt, Nat.succ_sub_one]
  have hall : xs.findIdx sought / length + 1 ≤ pagesOf length xs.length :=
    Nat.succ_le_succ (Nat.div_le_div_right (Nat.le_sub_one_of_lt hlt))
  rw [allPages, pageCalls, pageCalls, hpages, ← List.map_take, List.take_range,
    Nat.min_eq_left hall]

theorem pageCalls_upToFirst_of_none (h : xs.any sought = false) :
    l.pageCalls length 0 (upToFirst sought xs) = l.allPages length xs := by
  have hidx : xs.findIdx sought = xs.length := by
    refine List.findIdx_eq_length.mpr fun x hx => ?_
    exact Bool.eq_false_iff.mpr (List.any_eq_false.mp h x hx)
  rw [allPages, upToFirst, hidx, Nat.min_eq_right (Nat.le_succ _)]

end Listing

namespace Publication
variable {p : Publication} {g : Gateway} {pages : Nat}

/-- The calls for all pages of the versions. -/
def versionPages (p : Publication) (g : Gateway) : List Call :=
  (p.listing "get_documentation_versions").allPages g.pageLength g.versions

/-- The calls for all pages of the parts. -/
def partPages (p : Publication) (g : Gateway) : List Call :=
  (p.listing "get_documentation_parts").allPages g.pageLength g.parts

/-- Each part of a publication has a call that creates it. -/
theorem exists_creations (h : ∀ part ∈ p.parts, ∃ call, p.creation part = .ok call) :
    ∃ creations, p.creations = .ok creations := by
  obtain ⟨creations, hcreations, -⟩ := Result.exists_mapM (f := p.creation) (R := fun _ _ => True)
    fun part hpart => (h part hpart).imp fun _ hcall => ⟨hcall, trivial⟩
  exact ⟨creations, hcreations⟩

/-- An upload that finds its version listed has only searched for it. -/
theorem upload_of_listed (calls : List Call) (hg : g.Proper) (hpages : g.enoughPages ≤ pages)
    (h : g.isListed p.version = true) :
    upload Gateway.client.recording pages p ⟨calls, g⟩ =
      .error (.versionExists p.version.spelled) ⟨calls ++ p.searchCalls g, g⟩ := by
  rw [upload_eq, Edit.bind_of_ok (find_isVersion hg hpages), h]
  rfl

/-- The call that creates a version names it, and the stage that gets it, unless that is blank. -/
structure NamesVersion (p : Publication) (call : Call) : Prop where
  name : call.name = "create_documentation_version"
  api : Fields.get? "restApiId" call.arguments = some p.api
  version : Fields.get? "documentationVersion" call.arguments = some p.version
  stage : Fields.get? "stageName" call.arguments = if p.stage.truthy then some p.stage else none
  only : Pairs.keys call.arguments = [.str "restApiId", .str "documentationVersion"] ++
    if p.stage.truthy then [.str "stageName"] else []

theorem namesVersion_versionCall (p : Publication) : p.NamesVersion p.versionCall := by
  have hcall : p.versionCall = p.call "create_documentation_version"
      (("documentationVersion", p.version) ::
        if p.stage.truthy then [("stageName", p.stage)] else []) := rfl
  rw [hcall]
  constructor <;> cases p.stage.truthy <;> rfl

/-- **The calls of a publication.**  If its version is listed, it asks for the versions up to the
first page that has it, and is skipped.  Otherwise it asks for all pages of versions, then for all
pages of parts, deletes each listed part in order, creates its own parts in order and then its
version, for the stage if there is one, and says that the version is new; for this its parts must be
such that they can be sent. -/
theorem publish_protocol (s : Session (Recorded Gateway)) (hg : s.client.state.Proper)
    (hpages : s.client.state.enoughPages ≤ pages) :
    (s.client.state.isListed p.version = true →
      ∃ k, IsFirstPage s.client.state.pageLength p.lists s.client.state.versions k ∧
        p.publish Gateway.client.recording pages s =
          .ok false ⟨⟨s.client.calls ++ (p.versionPages s.client.state).take (k + 1),
              s.client.state⟩,
            s.metrics.increment "documentation.publish.skipped" 1⟩) ∧
    (s.client.state.isListed p.version = false →
      (∀ part ∈ p.parts, ∃ call, p.creation part = .ok call) →
      ∃ creations last,
        List.Forall₂ (fun part call => p.creation part = .ok call) p.parts creations ∧
        p.NamesVersion last ∧ p.publish Gateway.client.recording pages s =
          .ok true ⟨⟨s.client.calls ++ p.versionPages s.client.state ++
                p.partPages s.client.state ++ s.client.state.parts.map (Gateway.deletionOf p) ++
                creations ++ [last],
              s.client.state.published p.version p.parts.length⟩,
            s.metrics.increment "documentation.publish.uploaded" 1⟩) := by
  constructor
  · intro hlisted
    have hany : s.client.state.versions.any p.lists = true := isListed_eq ▸ hlisted
    obtain ⟨k, hk, hcalls⟩ := Listing.pageCalls_upToFirst
      (l := p.listing "get_documentation_versions") (Gateway.pageLength_pos hg.pageSize) hany
    refine ⟨k, hk, ?_⟩
    have hupload := upload_of_listed s.client.calls hg hpages hlisted
    rw [searchCalls, hcalls] at hupload
    unfold publish
    rw [hupload]
    rfl
  · intro hlisted hparts
    have hany : s.client.state.versions.any p.lists = false := isListed_eq ▸ hlisted
    obtain ⟨creations, hcreations⟩ := exists_creations hparts
    have hmade := Result.mapM_eq_ok.mp hcreations
    refine ⟨creations, p.versionCall, hmade, p.namesVersion_versionCall, ?_⟩
    have hupload : upload Gateway.client.recording pages p s.client = .ok () _ :=
      (upload_eq_ok hg hpages).mpr ⟨hlisted, creations, hcreations, rfl⟩
    have hsearch : p.searchCalls s.client.state = p.versionPages s.client.state :=
      Listing.pageCalls_upToFirst_of_none hany
    have hclearing : p.clearingCalls s.client.state =
        p.partPages s.client.state ++ s.client.state.parts.map (Gateway.deletionOf p) := rfl
    rw [hsearch, hclearing, ← List.append_assoc, ← hmade.length_eq] at hupload
    unfold publish
    rw [hupload]

/-- A session with a gateway that lists its versions on two pages. -/
def pagedSession : Session (Recorded Gateway) where
  client.calls := []
  client.state.versions := ["v1", "v2", "v3"].map fun v => Gateway.versionItem (.str v)
  client.state.parts := [.ofPairs [("id", .str "p0")]]
  client.state.pageSize := 2
  client.state.created := 0
  metrics := .empty

theorem proper_pagedSession : pagedSession.client.state.Proper where
  pageSize := by decide
  versions := List.forall_mem_map.mpr fun _ _ => ⟨_, rfl⟩
  parts := List.forall_mem_singleton.mpr ⟨.str "p0", rfl, rfl⟩

/-- The version on the second page is found there; one that is on neither page is published. -/
theorem publish_protocol_pets :
    pagedSession.client.state.Proper ∧ pagedSession.client.state.enoughPages ≤ 6 ∧
      (∀ version, ∀ part ∈ (Attempt.petPublication version).parts,
        ∃ call, (Attempt.petPublication version).creation part = .ok call) ∧
      (∃ k, IsFirstPage 2 (Attempt.petPublication "v3").lists pagedSession.client.state.versions k ∧
        (Attempt.petPublication "v3").publish Gateway.client.recording 6 pagedSession =
          .ok false ⟨⟨((Attempt.petPublication "v3").versionPages
              pagedSession.client.state).take (k + 1), pagedSession.client.state⟩,
            Metrics.empty.increment "documentation.publish.skipped" 1⟩) ∧
      ∃ t, (Attempt.petPublication "v4").publish Gateway.client.recording 6 pagedSession =
        .ok true t := by
  have hpages : pagedSession.client.state.enoughPages ≤ 6 := by decide
  have hparts : ∀ version, ∀ part ∈ (Attempt.petPublication version).parts,
      ∃ call, (Attempt.petPublication version).creation part = .ok call := fun version => by
    obtain ⟨creations, hcreations⟩ := Attempt.exists_creations_petPublication version
    obtain ⟨call, -, hcall, -⟩ := List.forall₂_cons_left_iff.mp (Result.mapM_eq_ok.mp hcreations)
    exact List.forall_mem_singleton.mpr ⟨call, hcall⟩
  obtain ⟨hlisted, -⟩ := publish_protocol (p := Attempt.petPublication "v3") pagedSession
    proper_pagedSession hpages
  obtain ⟨-, hnew⟩ := publish_protocol (p := Attempt.petPublication "v4") pagedSession
    proper_pagedSession hpages
  obtain ⟨creations, last, -, -, hpublish⟩ := hnew (by decide) (hparts "v4")
  exact ⟨proper_pagedSession, hpages, hparts, hlisted (by decide), _, hpublish⟩

/-- **An upload with a part that cannot be sent** is found out when it comes to that part: the parts
that were there are deleted by then, and those before it are created. -/
theorem upload_of_unsendable {before rest : List LoosePart} {part : LoosePart} {e : Failure}
    {calls creations : List Call} (hg : g.Proper) (hpages : g.enoughPages ≤ pages)
    (hlisted : g.isListed p.version = false) (hparts : p.parts = before ++ part :: rest)
    (hbefore : before.mapM p.creation = .ok creations) (hpart : p.creation part = .error e) :
    upload Gateway.client.recording pages p ⟨calls, g⟩ =
      .error e ⟨calls ++ p.searchCalls g ++ p.clearingCalls g ++ creations,
        { g with
          parts := Gateway.newParts g.created creations.length
          created := g.created + creations.length }⟩ := by
  have hstop : ∀ r : Recorded Gateway, (part :: rest).forM
      (fun part => ask Gateway.client.recording (p.creation part)) r = .error e r := fun r => by
    show (ask Gateway.client.recording (p.creation part) >>= fun _ => _) r = _
    rw [hpart]
    rfl
  have hcreated : ∀ r : Recorded Gateway,
      before.forM (fun part => ask Gateway.client.recording (p.creation part)) r =
        .ok () ⟨r.calls ++ creations, r.state.after creations⟩ := fun r =>
    Gateway.forM_ask_eq_ok.mpr ⟨creations, hbefore, rfl⟩
  rw [upload_eq, Edit.bind_of_ok (find_isVersion hg hpages), hlisted]
  refine Edit.bind_of_error ?_
  rw [replaceParts_eq hg hpages, hparts, List.forM_eq_forM, List.forM_append]
  refine (Edit.bind_of_ok (hcreated _)).trans ((hstop _).trans ?_)
  rw [Gateway.after_creations (names_of_creations hbefore), List.nil_append]

/-- A publication of a part with a date, which has no form in JSON. -/
def datedPublication : Publication where
  api := .str "pets"
  parts := [⟨.ofPairs [("type", .str "API")],
    .ofPairs [("since", .atom (.stamp ⟨2020, 1, 1, none⟩))]⟩]
  version := .str "v4"
  stage := .null

/-- The part that was there is deleted, the one with the date is not created, and no version is. -/
theorem unsendable_part_fails :
    pagedSession.client.state.Proper ∧ pagedSession.client.state.enoughPages ≤ 6 ∧
      pagedSession.client.state.isListed datedPublication.version = false ∧
      ∃ f t, datedPublication.publish Gateway.client.recording 6 pagedSession = .error f t ∧
        t.client.calls.map (·.name) = ["get_documentation_versions", "get_documentation_versions",
          "get_documentation_parts", "delete_documentation_part"] ∧
        t.client.state.parts = [] := by
  have hpages : pagedSession.client.state.enoughPages ≤ 6 := by decide
  have hlisted : pagedSession.client.state.isListed datedPublication.version = false := by decide
  have hpart : datedPublication.creation ⟨.ofPairs [("type", .str "API")],
      .ofPairs [("since", .atom (.stamp ⟨2020, 1, 1, none⟩))]⟩ = .error .badShape := by
    have hsorted : (Value.ofPairs [("since", .atom (.stamp ⟨2020, 1, 1, none⟩))]).sorted =
        .ofPairs [("since", .atom (.stamp ⟨2020, 1, 1, none⟩))] := by
      simp [Value.ofPairs, Value.sorted, Value.sortedFields]
    rw [creation, Json.writeSorted, hsorted]
    rfl
  let cleared : Recorded Gateway :=
    ⟨datedPublication.searchCalls pagedSession.client.state ++
      datedPublication.clearingCalls pagedSession.client.state,
      { pagedSession.client.state with parts := [] }⟩
  have hupload : upload Gateway.client.recording 6 datedPublication pagedSession.client =
      .error .badShape cleared :=
    upload_of_unsendable proper_pagedSession hpages hlisted (List.nil_append _).symm rfl hpart
  refine ⟨proper_pagedSession, hpages, hlisted, .badShape, ⟨cleared, .empty⟩, ?_, rfl, rfl⟩
  unfold publish
  rw [hupload]
  rfl

end Publication
end GatewayDocs
