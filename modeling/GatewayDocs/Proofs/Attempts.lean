import GatewayDocs.Proofs.Publishing

/-! # Attempts to publish

A documentation may be published in several attempts, in each of which the calls of one name may
fail (`Attempt`).  Attempts with different versions may follow each other in any order, and an
attempt may fail after parts were deleted or created.  Still every gateway that is reached lists
the versions of the attempts that completed, in order and each once, and nothing else
(`Attempt.publishing_survives_failures`).  An attempt that completes leaves the parts that it
created, and one that does not leaves the versions as they are; so it can be made again
(`Attempt.Safe`).

An attempt whose version is listed changes nothing.  It completes no later either: if it fails
because the versions cannot be listed, then the next attempt finds the version and leaves it at
that (`Attempt.listed_version_is_not_published_again`).

What one attempt does is proved first (`Attempt.safe`); it leaves a gateway whose listings can be
read, and the rest follows by induction on the attempts. -/

namespace GatewayDocs

/-- An attempt to publish a documentation while the calls of one name may fail. -/
structure Attempt where
  publication : Publication
  /-- Whether it is no failure that the version is there already. -/
  skips : Bool
  failing? : Option String

namespace Attempt

/-- Makes an attempt; says whether the version is new. -/
def run (a : Attempt) : Edit (Session (Recorded Gateway)) Bool := fun s =>
  let client := (Gateway.client.failing a.failing?).recording
  let pages := s.client.state.enoughPages
  if a.skips then a.publication.publish client pages s
  else
    match a.publication.upload client pages s.client with
    | .ok _ c => .ok true { s with client := c }
    | .error f c => .error f { s with client := c }

/-- The session after an attempt. -/
def next (a : Attempt) (s : Session (Recorded Gateway)) : Session (Recorded Gateway) :=
  (a.run.outcome s).1

/-- What an attempt answers: whether the version is new, or why it fails. -/
def answer (a : Attempt) (s : Session (Recorded Gateway)) : Result Bool := (a.run.outcome s).2

/-- The same attempt while no call fails. -/
def again (a : Attempt) : Attempt := { a with failing? := none }

/-- The session after attempts one after the other. -/
def reach (attempts : List Attempt) (s : Session (Recorded Gateway)) :
    Session (Recorded Gateway) :=
  attempts.foldl (fun s a => a.next s) s

/-- The versions of the attempts that complete, in order. -/
def completed : List Attempt → Session (Recorded Gateway) → List Value
  | [], _ => []
  | a :: rest, s =>
    match a.answer s with
    | .ok true => a.publication.version :: completed rest (a.next s)
    | _ => completed rest (a.next s)

variable {a : Attempt} {s t : Session (Recorded Gateway)} {attempts : List Attempt}

/-! ### One attempt -/

/-- How an attempt ends, given how the upload ends. -/
def verdict (a : Attempt) : Result Unit → Result Bool
  | .ok _ => .ok true
  | .error (.versionExists v) => if a.skips then .ok false else .error (.versionExists v)
  | .error f => .error f

/-- The upload that an attempt makes. -/
def upload (a : Attempt) (s : Session (Recorded Gateway)) : Recorded Gateway × Result Unit :=
  Edit.outcome (a.publication.upload (Gateway.client.failing a.failing?).recording
    s.client.state.enoughPages) s.client

theorem run_eq (a : Attempt) (s : Session (Recorded Gateway)) :
    (a.next s).client = (a.upload s).1 ∧ a.answer s = a.verdict (a.upload s).2 := by
  unfold next answer upload run Publication.publish Edit.outcome
  dsimp only
  cases hskips : a.skips
  all_goals
    cases a.publication.upload _ _ s.client with
    | ok _ c => exact ⟨rfl, rfl⟩
    | error f c =>
      cases f with
      | versionExists v => exact ⟨rfl, by rw [verdict, hskips]; rfl⟩
      | _ => exact ⟨rfl, rfl⟩

/-- An attempt completes if and only if its upload succeeds. -/
theorem answer_eq_true_iff : a.answer s = .ok true ↔ (a.upload s).2 = .ok () := by
  rw [(run_eq a s).2]
  cases (a.upload s).2 with
  | ok _ => exact ⟨fun _ => rfl, fun _ => rfl⟩
  | error f =>
    refine ⟨fun h => ?_, fun h => (nomatch h)⟩
    cases f with
    | versionExists v =>
      cases hskips : a.skips
      all_goals
        rw [verdict, hskips] at h
        cases h
    | _ => cases h

/-- What makes an attempt safe in a session. -/
structure Safe (a : Attempt) (s : Session (Recorded Gateway)) : Prop where
  /-- An attempt that completes publishes a version that was not there.  It creates its parts in
  order, which are the only parts then, and last of all the version. -/
  completes : a.answer s = .ok true →
    s.client.state.isListed a.publication.version = false ∧
      ∃ earlier creations, a.publication.creations = .ok creations ∧
        (∀ call ∈ earlier, call.name ≠ "create_documentation_part") ∧
        (a.next s).client.calls =
          s.client.calls ++ earlier ++ creations ++ [a.publication.versionCall] ∧
        (a.next s).client.state =
          s.client.state.published a.publication.version creations.length
  /-- An attempt whose version is there changes nothing, and says so if it can list the versions. -/
  listed : s.client.state.isListed a.publication.version = true →
    (a.next s).client.state = s.client.state ∧
      a.answer s =
        if a.failing? = some "get_documentation_versions" then
          .error (.callFailed "get_documentation_versions")
        else if a.skips then .ok false
        else .error (.versionExists a.publication.version.spelled)
  /-- An attempt that does not complete keeps the versions. -/
  fails : a.answer s ≠ .ok true → (a.next s).client.state.versions = s.client.state.versions
  /-- If it is made again while no call fails, and its version is not there and its parts can be
  sent, then it completes and leaves its own parts and its version. -/
  repeats : a.answer s ≠ .ok true → s.client.state.isListed a.publication.version = false →
    ∀ creations, a.publication.creations = .ok creations →
      a.again.answer (a.next s) = .ok true ∧
        (a.again.next (a.next s)).client.state =
          (a.next s).client.state.published a.publication.version creations.length

theorem upload_of_completed (hg : s.client.state.Proper) (h : a.answer s = .ok true) :
    s.client.state.isListed a.publication.version = false ∧
      ∃ creations, a.publication.creations = .ok creations ∧
        (a.next s).client = ⟨s.client.calls ++ a.publication.searchCalls s.client.state ++
            a.publication.clearingCalls s.client.state ++ creations ++ [a.publication.versionCall],
          s.client.state.published a.publication.version creations.length⟩ := by
  have hupload := answer_eq_true_iff.mp h
  rw [(run_eq a s).1]
  unfold upload Edit.outcome at hupload ⊢
  split at hupload
  · rename_i t ht
    exact Publication.upload_ok_of_failing hg (Nat.le_refl _) ht
  · cases hupload

theorem retains_of_not_completed (hg : s.client.state.Proper) (h : a.answer s ≠ .ok true) :
    s.client.state.Retains (a.next s).client.state := by
  rw [Ne, answer_eq_true_iff] at h
  rw [(run_eq a s).1]
  unfold upload Edit.outcome at h ⊢
  split at h
  · exact absurd rfl h
  · rename_i e t ht
    exact Publication.upload_error_keeps hg ht

/-- An attempt completes if no call fails, its version is not there and its parts can be sent. -/
theorem completes_of_creations (hg : s.client.state.Proper)
    (hlisted : s.client.state.isListed a.publication.version = false) {creations : List Call}
    (hcreations : a.publication.creations = .ok creations) : a.again.answer s = .ok true := by
  rw [answer_eq_true_iff]
  have hupload : a.publication.upload Gateway.client.recording s.client.state.enoughPages
      s.client = .ok () _ :=
    (Publication.upload_eq_ok hg (Nat.le_refl _)).mpr ⟨hlisted, creations, hcreations, rfl⟩
  show (Edit.outcome (a.publication.upload Gateway.client.recording _) s.client).2 = _
  rw [Edit.outcome, hupload]

theorem createPart_notMem_earlier (p : Publication) (g : Gateway) :
    ∀ call ∈ p.searchCalls g ++ p.clearingCalls g, call.name ≠ "create_documentation_part" := by
  intro call hcall
  rcases List.mem_append.mp hcall with h | h
  · obtain ⟨i, -, rfl⟩ := List.mem_map.mp h
    exact (by decide : "get_documentation_versions" ≠ "create_documentation_part")
  rcases List.mem_append.mp h with h | h
  · obtain ⟨i, -, rfl⟩ := List.mem_map.mp h
    exact (by decide : "get_documentation_parts" ≠ "create_documentation_part")
  · obtain ⟨item, -, rfl⟩ := List.mem_map.mp h
    exact (by decide : "delete_documentation_part" ≠ "create_documentation_part")

/-- **Every attempt is safe** if the listings of the gateway can be read. -/
theorem safe (hg : s.client.state.Proper) (a : Attempt) : a.Safe s where
  completes h := by
    obtain ⟨hlisted, creations, hcreations, hnext⟩ := upload_of_completed hg h
    refine ⟨hlisted, _, creations, hcreations, createPart_notMem_earlier a.publication
      s.client.state, ?_, ?_⟩
    · rw [hnext, ← List.append_assoc]
    · rw [hnext]
  listed h := by
    obtain ⟨t, ht, hmade⟩ : ∃ t : Recorded Gateway, t.state = s.client.state ∧
        a.upload s = (t, .error (if a.failing? = some "get_documentation_versions" then
            .callFailed "get_documentation_versions"
          else .versionExists a.publication.version.spelled)) := by
      obtain ⟨t, ht, hupload⟩ := Publication.upload_of_isListed hg (Nat.le_refl _) h
      exact ⟨t, ht, by rw [upload, Edit.outcome, hupload]⟩
    rw [(run_eq a s).1, (run_eq a s).2, hmade]
    refine ⟨ht, ?_⟩
    split <;> rfl
  fails h := (retains_of_not_completed hg h).versions
  repeats h hlisted creations hcreations := by
    have hretains := retains_of_not_completed hg h
    have hproper := hg.of_retains hretains
    have hstill : (a.next s).client.state.isListed a.publication.version = false := by
      rw [Gateway.isListed, hretains.versionNames]
      exact hlisted
    have hagain := completes_of_creations (a := a) hproper hstill hcreations
    obtain ⟨-, made, hmade, hnext⟩ := upload_of_completed (a := a.again) hproper hagain
    obtain rfl := Except.ok.inj (hcreations.symm.trans hmade)
    exact ⟨hagain, congrArg Recorded.state hnext⟩

/-! ### Attempts one after the other -/

theorem proper_next (hg : s.client.state.Proper) (a : Attempt) :
    (a.next s).client.state.Proper := by
  by_cases h : a.answer s = .ok true
  · obtain ⟨-, creations, -, hnext⟩ := upload_of_completed hg h
    rw [hnext]
    exact hg.published _ _
  · exact hg.of_retains (retains_of_not_completed hg h)

theorem distinct_next (hg : s.client.state.Proper) (hd : s.client.state.Distinct) (a : Attempt) :
    (a.next s).client.state.Distinct := by
  by_cases h : a.answer s = .ok true
  · obtain ⟨hlisted, creations, -, hnext⟩ := upload_of_completed hg h
    rw [hnext]
    exact hd.published hlisted
  · rw [Gateway.Distinct, (retains_of_not_completed hg h).versionNames]
    exact hd

/-- An attempt adds its version if it completes, and nothing otherwise. -/
theorem versions_next (hg : s.client.state.Proper) (a : Attempt) :
    (a.next s).client.state.versions =
      s.client.state.versions ++ (completed [a] s).map Gateway.versionItem := by
  unfold completed
  split
  · rename_i h
    obtain ⟨-, creations, -, hnext⟩ := upload_of_completed hg h
    rw [hnext]
    rfl
  · rename_i h
    rw [(retains_of_not_completed hg h).versions, completed, List.map_nil, List.append_nil]

theorem completed_cons (a : Attempt) (attempts : List Attempt) (s : Session (Recorded Gateway)) :
    completed (a :: attempts) s = completed [a] s ++ completed attempts (a.next s) := by
  rw [completed, completed]
  split <;> rfl

/-- **Publishing survives failures.**  Whatever attempts are made, the versions are those that were
there and then, in order, those of the attempts that completed; none is there twice; and every
next attempt is safe. -/
theorem publishing_survives_failures (attempts : List Attempt) (s : Session (Recorded Gateway))
    (hg : s.client.state.Proper) (hd : s.client.state.Distinct) :
    (reach attempts s).client.state.versions =
        s.client.state.versions ++ (completed attempts s).map Gateway.versionItem ∧
      (reach attempts s).client.state.Distinct ∧
      ∀ a : Attempt, a.Safe (reach attempts s) := by
  induction attempts generalizing s with
  | nil => exact ⟨(List.append_nil _).symm, hd, safe hg⟩
  | cons a attempts ih =>
    obtain ⟨hversions, hdistinct, hsafe⟩ := ih (a.next s) (proper_next hg a) (distinct_next hg hd a)
    refine ⟨?_, hdistinct, hsafe⟩
    rw [completed_cons, List.map_append, ← List.append_assoc, ← versions_next hg a]
    exact hversions

/-- A publication of one part. -/
def petPublication (version : String) : Publication where
  api := .str "pets"
  parts := [⟨.ofPairs [("type", .str "API")], .ofPairs [("description", .str "Pets")]⟩]
  version := .str version
  stage := .null

/-- A session with a gateway that lists a version and two parts. -/
def petSession : Session (Recorded Gateway) where
  client.calls := []
  client.state.versions := [Gateway.versionItem (.str "v1")]
  client.state.parts := [.ofPairs [("id", .str "p0")], .ofPairs [("id", .str "p1")]]
  client.state.pageSize := 2
  client.state.created := 0
  metrics := .empty

/-- An attempt that cannot delete the parts that are there. -/
def undeleted : Attempt := ⟨petPublication "v2", true, some "delete_documentation_part"⟩

/-- An attempt that cannot list the versions, of which one is its own. -/
def unsearched : Attempt := ⟨petPublication "v1", true, some "get_documentation_versions"⟩

theorem proper_petSession : petSession.client.state.Proper where
  pageSize := by decide
  versions := List.forall_mem_singleton.mpr ⟨_, rfl⟩
  parts := List.forall_mem_cons.mpr
    ⟨⟨.str "p0", rfl, rfl⟩, List.forall_mem_singleton.mpr ⟨.str "p1", rfl, rfl⟩⟩

theorem exists_creations_petPublication (version : String) :
    ∃ creations, (petPublication version).creations = .ok creations :=
  Publication.exists_creations_of_isJson (List.forall_mem_singleton.mpr ⟨⟨_, rfl⟩, rfl⟩)

/-- The attempt that fails where parts are deleted completes when it is made again, between other
attempts too. -/
theorem publishing_survives_failures_pets :
    petSession.client.state.Proper ∧ petSession.client.state.Distinct ∧
      undeleted.answer petSession = .error (.callFailed "delete_documentation_part") ∧
      undeleted.again.answer (undeleted.next petSession) = .ok true ∧
      ((reach [unsearched, undeleted, undeleted.again] petSession).client.state.versions =
          petSession.client.state.versions ++
            (completed [unsearched, undeleted, undeleted.again] petSession).map
              Gateway.versionItem ∧
        (reach [unsearched, undeleted, undeleted.again] petSession).client.state.Distinct ∧
        ∀ a : Attempt, a.Safe (reach [unsearched, undeleted, undeleted.again] petSession)) := by
  have hd : petSession.client.state.Distinct := List.pairwise_singleton _ _
  have hfails : undeleted.answer petSession = .error (.callFailed "delete_documentation_part") :=
    rfl
  obtain ⟨creations, hcreations⟩ := exists_creations_petPublication "v2"
  have hsafe := (publishing_survives_failures [] petSession proper_petSession hd).2.2 undeleted
  refine ⟨proper_petSession, hd, hfails, ?_, ?_⟩
  · exact (hsafe.repeats (fun h => (nomatch hfails.symm.trans h)) rfl creations hcreations).1
  · exact publishing_survives_failures [unsearched, undeleted, undeleted.again] petSession
      proper_petSession hd

/-- An attempt whose version is listed can fail, and completes no more when it is made again: it is
skipped then, and the parts stay as they were. -/
theorem listed_version_is_not_published_again :
    petSession.client.state.Proper ∧ petSession.client.state.Distinct ∧
      (∃ creations, unsearched.publication.creations = .ok creations) ∧
      unsearched.answer petSession = .error (.callFailed "get_documentation_versions") ∧
      unsearched.again.answer (unsearched.next petSession) = .ok false ∧
      (unsearched.again.next (unsearched.next petSession)).client.state.partIds =
        [.str "p0", .str "p1"] :=
  ⟨proper_petSession, List.pairwise_singleton _ _, exists_creations_petPublication "v1", rfl, rfl,
    rfl⟩

end Attempt
end GatewayDocs
