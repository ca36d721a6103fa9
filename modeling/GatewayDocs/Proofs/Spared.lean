import GatewayDocs.Proofs.Compile

/-! # Chaining never fails a compilation

Chaining refuses a width below one and an order of the resources that does not keep their names
(`Failure.isOfChaining`).  A compilation fails with neither.

A width is read as a number of at least one, or else the settings of a service are invalid
(`CompileSettings.ofService_width`).  The new order is a rearrangement of the names, and distinct
names of any kind are found to be the same in any order, unless one of them is a floating-point
value that is not a number (`ResourceGraph.chainModels_eq_error`).  All other parts of a
compilation are `Spared` these failures, one by one. -/

namespace GatewayDocs

/-! ### Widths -/

namespace CompileSettings
open Shape

theorem ofValue_chunking (enabled : Bool) (width : Value) :
    ChunkingConfig.ofValue (.ofPairs [("enabled", .bool enabled), ("width", width)]) =
      ((positive width).within (.key (.str "width"))).map (ChunkingConfig.mk enabled) := by
  have hrecord : ChunkingConfig.ofValue (.ofPairs [("enabled", .bool enabled), ("width", width)]) =
      Checked.seq (.ok (ChunkingConfig.mk enabled)) fun _ =>
        (positive width).within (.key (.str "width")) := rfl
  rw [hrecord]
  cases positive width <;> rfl

/-- **The width of chains is at least one.**  The settings of a service are invalid exactly if what
is asked for as a width is not read as a number of at least one; otherwise there are settings, with
the width that is asked for. -/
theorem ofService_width (service : Value) {options : Value}
    (ho : options.truthy = true → ∃ fields, options.asObject = .ok fields)
    (env : SplitEnvironment) :
    (∃ problems, positive (widthAsked service env) = .faulty problems ∧ ∃ placed,
        ofService service options env = .error (.invalid "ChunkingConfig" placed)) ∨
      ∃ settings, ofService service options env = .ok settings ∧
        positive (widthAsked service env) = .ok settings.chunking.width ∧
        1 ≤ settings.chunking.width.val := by
  unfold ofService
  simp only [ofValue_chunking]
  cases hw : positive (widthAsked service env) with
  | faulty problems => exact .inl ⟨problems, rfl, _, rfl⟩
  | ok width =>
    right
    cases ht : options.truthy with
    | false => exact ⟨_, rfl, rfl, width.property⟩
    | true =>
      obtain ⟨fields, hf⟩ := ho ht
      simp only [hf]
      exact ⟨_, rfl, rfl, width.property⟩

end CompileSettings

/-! ### Names of any kind -/

namespace ResourceGraph
variable {g g' : ResourceGraph} {f : Failure} {s : String} {r : Resource} {width : Nat}

theorem exists_get?_of_mem {k : Atom} (h : k ∈ g.names) : ∃ r, g.get? k = some r :=
  Option.isSome_iff_exists.mp (Pairs.has_of_mem_keys h)

/-- The entries of names are under these names. -/
theorem keys_filterMap {ks : List Atom} (h : ∀ k ∈ ks, k ∈ g.names) :
    Pairs.keys (ks.filterMap fun k => (g.get? k).map fun r => (k, r)) = ks := by
  induction ks with
  | nil => rfl
  | cons k ks ih =>
    obtain ⟨r, hr⟩ := exists_get?_of_mem (h k List.mem_cons_self)
    rw [List.filterMap_cons_some (by rw [hr]; rfl), Pairs.keys_cons,
      ih fun k hk => h k (List.mem_cons_of_mem _ hk)]

/-- Distinct names of a graph may be given any order, except for the kinds of the names. -/
theorem reorder_eq_error (hd : Distinct g.names) {xs : List (Atom × Resource)}
    (hp : (Pairs.keys xs).Perm g.names) (h : g.reorder xs = .error f) : f = .badShape := by
  have hsame : Atom.sameInOrder (xs.map (·.1)) g.names = true := hd.sameInOrder hp
  unfold reorder at h
  simp only [hsame, if_true] at h
  split at h
  · exact (Except.error.inj h).symm
  · cases h

/-- Chaining fails only if the names cannot be put in order. -/
theorem chainFree_eq_error (hd : Distinct g.names) (h : chainFree width g = .error f g') :
    f = .badShape := by
  have hnames : (g.chain (g.freeModels.map (·.1)) width).names = g.names := names_setParents g _
  unfold chainFree at h
  rw [Edit.bind_of_ok (Edit.monadStateGet_apply g), Edit.bind_of_ok (Edit.set_apply _ _)] at h
  rcases Edit.bind_eq_error.mp h with h | ⟨_, _, -, h⟩
  · have hgroups : (g.freeModels.map (·.1) ++ g.boundModels.map (·.1) ++ g.others.map (·.1)).Perm
        g.names := by
      rw [← List.map_append, ← List.map_append]
      exact (groups_perm g).map _
    refine reorder_eq_error (hnames.symm ▸ hd) ?_ (Edit.ofResult_eq_error.mp h).1
    rw [keys_filterMap fun k hk => hnames.symm ▸ hgroups.subset hk, hnames]
    exact hgroups
  · cases h

theorem chainModels_eq_error {n : Int} (hd : Distinct g.names) (hn : 1 ≤ n)
    (h : chainModels (.int n) g = .error f g') : f = .badShape := by
  unfold chainModels at h
  rw [chainWidth_int hn, Edit.ofResult_ok, pure_bind] at h
  exact chainFree_eq_error hd h

/-- A resource under a text leaves the names distinct. -/
theorem Distinct.add (hd : Distinct g.names) (s : String) (r : Resource) :
    Distinct (g.add (.str s) r).names := by
  by_cases h : .str s ∈ g.names
  · rwa [names_add h]
  · have hnames : (g.add (.str s) r).names = g.names ++ [.str s] := by
      show Pairs.keys (Pairs.put _ _ _) = _
      rw [Pairs.put_of_not_mem h, Pairs.keys_append]
      rfl
    rw [hnames]
    refine ⟨fun k hk => ?_, List.pairwise_append.mpr ⟨hd.apart, List.pairwise_singleton _ _, ?_⟩⟩
    · rcases List.mem_append.mp hk with hk | hk
      · exact hd.number k hk
      · rw [List.mem_singleton.mp hk]
        rfl
    · intro k hk l hl
      rw [List.mem_singleton.mp hl]
      exact Atom.same_text_eq_false fun he => h (he ▸ hk)

theorem Distinct.addAll {rs : List (Atom × Resource)} (hd : Distinct g.names)
    (ht : ∀ nr ∈ rs, ∃ s, nr.1 = .str s) : Distinct (g.addAll rs).names := by
  induction rs generalizing g with
  | nil => exact hd
  | cons nr rs ih =>
    obtain ⟨n, r⟩ := nr
    obtain ⟨s, rfl⟩ : ∃ s, n = .str s := ht (n, r) List.mem_cons_self
    exact ih (hd.add s r) fun nr hnr => ht nr (List.mem_cons_of_mem _ hnr)

end ResourceGraph

/-! ### All other failures -/

/-- Whether a failure is one of chaining: its width is refused, or its order. -/
def Failure.isOfChaining : Failure → Bool
  | badWidth _ | namesDiffer => true
  | _ => false

/-- A result is not one of the failures of chaining. -/
def Result.Spared {α : Type} (x : Result α) : Prop := ∀ f, x = .error f → f.isOfChaining = false

/-- A computation has none of the failures of chaining, whatever state it starts in. -/
def Edit.Spared {σ α : Type} (x : Edit σ α) : Prop :=
  ∀ s f t, x s = .error f t → f.isOfChaining = false

namespace Result.Spared
variable {α β : Type} {x y : Result α} {f : α → Result β} {e : Failure}

theorem ok (a : α) : Result.Spared (.ok a) := fun _ h => (nomatch h)

theorem error (h : e.isOfChaining = false) : Result.Spared (.error e : Result α) :=
  fun _ he => Except.error.inj he ▸ h

theorem bind (hx : x.Spared) (hf : ∀ a, (f a).Spared) : (x >>= f).Spared := by
  intro e h
  cases hr : x with
  | ok a => exact hf a e (by rwa [hr] at h)
  | error e' =>
    rw [hr] at h
    exact Except.error.inj h ▸ hx e' hr

theorem mapM (hf : ∀ a, (f a).Spared) (xs : List α) : (xs.mapM f).Spared := by
  induction xs with
  | nil => exact ok []
  | cons a xs ih =>
    rw [List.mapM_cons]
    exact (hf a).bind fun b => ih.bind fun bs => ok (b :: bs)

theorem foldlM {g : β → α → Result β} (hg : ∀ b a, (g b a).Spared) (b : β) (xs : List α) :
    (xs.foldlM g b).Spared := by
  induction xs generalizing b with
  | nil => exact ok b
  | cons a xs ih => exact (hg b a).bind ih

theorem ite {c : Prop} [Decidable c] (hx : x.Spared) (hy : y.Spared) :
    (if c then x else y).Spared := by
  split
  · exact hx
  · exact hy

theorem orInvalid (shape : String) (c : Checked α) : (c.orInvalid shape).Spared := by
  cases c with
  | ok a => exact ok a
  | faulty ps => exact error rfl

end Result.Spared

namespace Edit.Spared
variable {σ τ α β : Type} {x y : Edit σ α} {f : α → Edit σ β} {e : Failure}

theorem pure (a : α) : Edit.Spared (pure a : Edit σ α) := fun _ _ _ h => (nomatch h)

theorem throw (h : e.isOfChaining = false) : Edit.Spared (throw e : Edit σ α) := by
  intro s f t he
  cases he
  exact h

theorem get : Edit.Spared (get : Edit σ σ) := fun _ _ _ h => (nomatch h)

theorem set (s : σ) : Edit.Spared (set s : Edit σ Unit) := fun _ _ _ h => (nomatch h)

theorem modify (g : σ → σ) : Edit.Spared (modify g : Edit σ Unit) := fun _ _ _ h => (nomatch h)

theorem ofResult {r : Result α} (h : r.Spared) : Edit.Spared (ofResult r : Edit σ α) :=
  fun _ f _ he => h f (ofResult_eq_error.mp he).1

theorem bind (hx : x.Spared) (hf : ∀ a, (f a).Spared) : (x >>= f).Spared := by
  intro s e t h
  rcases bind_eq_error.mp h with h | ⟨a, u, -, h⟩
  · exact hx s e t h
  · exact hf a u e t h

theorem ofResult_bind {r : Result α} (h : r.Spared) (hf : ∀ a, r = .ok a → (f a).Spared) :
    ((Edit.ofResult r : Edit σ α) >>= f).Spared := by
  intro s e t he
  rcases bind_eq_error.mp he with he | ⟨a, u, ha, he⟩
  · exact ofResult h s e t he
  · exact hf a (ofResult_eq_ok.mp ha).1 u e t he

theorem zoom {edit : Edit τ α} (h : edit.Spared) (part : τ) (rebuild : τ → σ) :
    (zoom part rebuild edit).Spared := by
  intro s e t he
  obtain ⟨u, hu, -⟩ := zoom_eq_error.mp he
  exact h part e u hu

theorem ite {c : Prop} [Decidable c] (hx : x.Spared) (hy : y.Spared) :
    (if c then x else y).Spared := by
  split
  · exact hx
  · exact hy

theorem forM {g : α → Edit σ Unit} (hg : ∀ a, (g a).Spared) (xs : List α) :
    (xs.forM g).Spared := by
  induction xs with
  | nil => exact .pure ()
  | cons a xs ih => exact (hg a).bind fun _ => ih

theorem foldlM {g : β → α → Edit σ β} (hg : ∀ b a, (g b a).Spared) (b : β) (xs : List α) :
    (xs.foldlM g b).Spared := by
  induction xs generalizing b with
  | nil => exact .pure b
  | cons a xs ih => exact (hg b a).bind ih

end Edit.Spared

/-! ### Values and resources -/

theorem Atom.spared_text (a : Atom) : a.text.Spared := .ite (.ok _) (.error rfl)

namespace Value

theorem spared_text (v : Value) : v.text.Spared := .ite (.ok _) (.error rfl)

theorem spared_asObject (v : Value) : v.asObject.Spared := by
  unfold asObject
  split
  · exact .ok _
  · exact .error rfl

theorem spared_members (v : Value) : v.members.Spared := by
  unfold members
  split <;> first | exact .ok _ | exact .error rfl

theorem spared_field (key : String) (v : Value) : (v.field key).Spared :=
  v.spared_asObject.bind fun _ => .ok _

end Value

namespace Resource

theorem spared_ofEntry (entry : Value) : (ofEntry entry).Spared := by
  refine entry.spared_asObject.bind fun fields => .bind ?_ fun _ => .ok _
  unfold listedDependencies
  split
  · exact .ok _
  · exact .ite (Value.spared_members _) (.ok _)

theorem spared_resolve (restApi : Value) (r : Resource) : (r.resolve restApi).Spared :=
  r.properties.spared_asObject.bind fun _ => .ite (.ok _) (.ite (.error rfl) (.ok _))

theorem spared_editAt {α : Type} {edit : Edit Fields α} (h : edit.Spared) (path : List Step) :
    (editAt path edit).Spared :=
  .bind .get fun _ => .bind (.ofResult (Value.spared_asObject _)) fun _ => h.zoom _ _

theorem spared_editUnder {edit : Edit Fields Unit} (h : edit.Spared) (path : List Step)
    (key : String) : (editUnder path key edit).Spared :=
  .bind (spared_editAt (.modify _) path) fun _ => spared_editAt h _

theorem spared_findResponse (code : String) (vs : List Value) : (findResponse code vs).Spared := by
  induction vs with
  | nil => exact .ok none
  | cons v vs ih =>
    refine (v.spared_field _).bind fun w => w.spared_text.bind fun _ => .ite (.ok _) ?_
    exact ih.bind fun _ => .ok _

theorem spared_responseEntry (code : String) : (responseEntry code).Spared := by
  refine .bind .get fun r => .bind (.ofResult ?_) fun items =>
    .bind (.ofResult (spared_findResponse code items)) fun place? => ?_
  · unfold responseList
    split
    · exact .ok _
    · exact .error rfl
  · split
    · exact .pure _
    · exact .bind (.modify _) fun _ => .pure _

theorem spared_addResponseModels (entry : List Step) (refs : ModelRefs) :
    (addResponseModels entry refs).Spared := by
  refine .bind (spared_editAt (.modify _) entry) fun _ => .bind .get fun r =>
    .bind (.ofResult ?_) fun _ => .bind (.modify _) fun _ => .modify _
  unfold withModels
  split
  · exact .ok _
  · exact .ok _
  · exact .error rfl

theorem spared_addResponse (declared : MethodResponse) : (addResponse declared).Spared := by
  refine .bind (spared_responseEntry _) fun entry => ?_
  have hmodels : (if !declared.models.isEmpty then addResponseModels entry declared.models
      else pure ()).Spared := .ite (spared_addResponseModels entry _) (.pure _)
  exact .ite (.bind (spared_editUnder (.modify _) entry _) fun _ => hmodels) hmodels

theorem spared_addParameters (ps : List Parameter) (place : String) :
    (addParameters ps place).Spared :=
  .ite (spared_editUnder (.modify _) _ _) (.pure _)

theorem spared_augment (d : EndpointDocumentation) (safeMode : Bool) :
    (augment d safeMode).Spared := by
  refine .bind ?_ fun _ => .bind ?_ fun _ => .ite ?_ (.pure _)
  · exact .ite (.bind (spared_editAt (.modify _) []) fun _ => .forM spared_addResponse _) (.pure _)
  · exact .ite (.bind (.bind (.modify _) fun _ => .pure _) fun _ => spared_editAt (.modify _) [])
      (.pure _)
  · exact .bind (spared_addParameters _ _) fun _ => .bind (spared_addParameters _ _) fun _ =>
      spared_addParameters _ _

end Resource

theorem ModelDescriptor.spared_toResources (restApi : Value) (ms : List ModelDescriptor) :
    (toResources restApi ms).Spared :=
  .mapM (fun _ => (Resource.spared_resolve _ _).bind fun _ => .ok _) ms

/-! ### Services -/

theorem DocumentationConfig.spared_ofService (service : Value) : (ofService service).Spared :=
  (service.spared_field _).bind fun _ => .ite ((Result.Spared.orInvalid _ _).bind fun _ => .ok _)
    (.ok _)

theorem HttpEvent.spared_ofEvent (v : Value) : (ofEvent v).Spared := by
  unfold ofEvent
  split
  · exact .ok _
  · exact .orInvalid _ _

theorem spared_serviceEvents (service : Value) : (serviceEvents service).Spared := by
  refine (service.spared_field _).bind fun functions =>
    .ite (functions.spared_asObject.bind fun fields => ?_) (.bind (.ok []) fun fields => ?_) <;>
    exact .bind (.mapM (fun _ => (Result.Spared.orInvalid _ _).bind fun _ =>
      .mapM HttpEvent.spared_ofEvent _) fields) fun _ => .ok _

namespace Swagger

theorem spared_describedModel (name : String) (description schema : Value) :
    (describedModel name description schema).Spared :=
  (Result.Spared.orInvalid _ _).bind fun _ => .ok _

theorem spared_markedSchema (schema : Value) : (markedSchema schema).Spared :=
  .ite (.error rfl) (.ok _)

theorem spared_modelsOfDefinitions (definitions : Value) :
    (modelsOfDefinitions definitions).Spared := by
  refine .ite (definitions.spared_asObject.bind fun fields => ?_)
    (.bind (.ok []) fun fields => ?_)
  all_goals
    exact .mapM (fun kv => (spared_markedSchema kv.2).bind fun _ => spared_describedModel _ _ _)
      fields

theorem spared_schemaModel (container : Value) (fallback : String) :
    (schemaModel container fallback).Spared := by
  refine .bind (.ofResult container.spared_asObject) fun fields => ?_
  dsimp only
  split
  · exact .pure _
  · exact .bind (.ofResult (spared_markedSchema _)) fun _ =>
      .bind (.ofResult (spared_describedModel _ _ _)) fun _ => .bind (.modify _) fun _ => .pure _

theorem spared_parameterOf (fields : Fields) : (parameterOf fields).Spared := by
  unfold parameterOf
  split
  · exact .error rfl
  · exact .orInvalid _ _

theorem spared_addParameter (base : String) (d : EndpointDocumentation) (parameter : Value) :
    (addParameter base d parameter).Spared := by
  refine .bind (.ofResult parameter.spared_asObject) fun fields => ?_
  have hparameter := Edit.Spared.ofResult (σ := List ModelDescriptor) (spared_parameterOf fields)
  split
  · exact hparameter.bind fun _ => .pure _
  · exact hparameter.bind fun _ => .pure _
  · exact hparameter.bind fun _ => .pure _
  · exact (spared_schemaModel _ _).bind fun _ => .pure _
  · exact .pure _
  · exact .pure _
  · exact .throw rfl

theorem spared_addResponse (base : String) (d : EndpointDocumentation) (response : Atom × Value) :
    (addResponse base d response).Spared := by
  refine .bind (.ofResult (Atom.spared_text _)) fun code =>
    .bind (.ofResult (Value.spared_asObject _)) fun fields =>
    .bind (.ofResult (.orInvalid _ _)) fun description => ?_
  dsimp only
  split
  · exact (spared_schemaModel _ _).bind fun _ => .bind (.pure _) fun _ => .pure _
  · exact .bind (.pure _) fun _ => .pure _

theorem spared_documentation (operation : Value) (base : String) :
    (documentation operation base).Spared := by
  refine .bind (.ofResult operation.spared_asObject) fun fields => .bind (.ofResult ?_) fun d =>
    .bind (.ofResult ?_) fun parameters => .bind (.foldlM (spared_addParameter base) d _) fun d =>
    .bind (.ofResult ?_) fun responses => .foldlM (spared_addResponse base) d _
  · exact .ite ((Value.spared_members _).bind fun _ => .orInvalid _ _)
      (.bind (.ok []) fun _ => .orInvalid _ _)
  · exact .ite (Value.spared_members _) (.ok [])
  · exact .ite (Value.spared_asObject _) (.ok [])

theorem spared_documentEvent (paths : Value) (e : HttpEvent) : (documentEvent paths e).Spared := by
  refine .bind (.ofResult ?_) fun operation? => ?_
  · exact (paths.spared_field _).bind fun item =>
      .ite ((item.spared_field _).bind fun _ => .ok _) (.ok none)
  · split
    · exact (spared_documentation _ _).bind fun _ => .pure _
    · exact .pure _

theorem spared_documentEvents (paths : Value) (events : List HttpEvent)
    (models : List ModelDescriptor) : (documentEvents paths events models).2.Spared := by
  induction events generalizing models with
  | nil => exact .ok models
  | cons e rest ih =>
    unfold documentEvents
    split
    · exact ih _
    · rename_i h
      exact .error (spared_documentEvent paths e _ _ _ h)

theorem spared_apply (definitions paths : Value) (events : List HttpEvent) :
    (apply definitions paths events).2.Spared := by
  unfold apply
  split
  · exact spared_documentEvents _ _ _
  · rename_i h
    exact .error (spared_modelsOfDefinitions definitions _ h)

end Swagger

/-! ### Parts -/

namespace Json
variable {f : Failure} {limit : Decimal.DigitLimit}

theorem spared_obstacleOf? {a : Atom} (h : obstacleOf? limit a = some f) :
    f.isOfChaining = false := by
  unfold obstacleOf? at h
  split at h
  · cases h
    rfl
  · split at h
    · cases h
    · cases h
      rfl

mutual

theorem spared_obstacleIn? {ordered : Bool} {around : List Nat} {v : Value}
    (h : obstacleIn? limit ordered around v = some f) : f.isOfChaining = false := by
  unfold obstacleIn? at h
  cases v with
  | atom a => exact spared_obstacleOf? h
  | list items => exact spared_obstacleInItems? h
  | tuple items => exact spared_obstacleInItems? h
  | set _ =>
    cases h
    rfl
  | object fields =>
    dsimp only at h
    split at h
    · cases h
      rfl
    · exact spared_obstacleInFields? h
  | shared _ v => exact spared_obstacleIn? h
  | knot l v =>
    dsimp only at h
    split at h
    · cases h
      rfl
    · exact spared_obstacleIn? h
  | again _ =>
    cases h
    rfl

theorem spared_obstacleInItems? {ordered : Bool} {around : List Nat} {items : List Value}
    (h : obstacleInItems? limit ordered around items = some f) : f.isOfChaining = false := by
  cases items with
  | nil => cases h
  | cons v rest =>
    rcases Option.or_eq_some_iff.mp h with h | ⟨-, h⟩
    · exact spared_obstacleIn? h
    · exact spared_obstacleInItems? h

theorem spared_obstacleInFields? {ordered : Bool} {around : List Nat} {fields : Fields}
    (h : obstacleInFields? limit ordered around fields = some f) : f.isOfChaining = false := by
  cases fields with
  | nil => cases h
  | cons kv rest =>
    rcases Option.or_eq_some_iff.mp h with h | ⟨-, h⟩
    · rcases Option.or_eq_some_iff.mp h with h | ⟨-, h⟩
      · exact spared_obstacleOf? h
      · exact spared_obstacleIn? h
    · exact spared_obstacleInFields? h

end

theorem spared_writeSorted (layout : Layout) (v : Value) : (writeSorted layout v).Spared := by
  unfold writeSorted
  split
  · exact .ok _
  · rename_i h
    exact .error (spared_obstacleIn? h)

end Json

namespace Parts

theorem spared_bodyFields (b : Option Body) : (bodyFields b).Spared := by
  unfold bodyFields
  split
  · exact .ok _
  · exact .ite (.error rfl) (.ok _)

theorem spared_ofAnyEvent (e : HttpEvent) : (ofAnyEvent e).Spared := by
  unfold ofAnyEvent
  split
  · refine (spared_bodyFields _).bind fun _ => .bind (.mapM (fun r => ?_) _) fun _ => .ok _
    exact (spared_bodyFields _).bind fun _ => .ok _
  · exact .ok _

theorem spared_serviceParts (config : DocumentationConfig) (models : List ModelDescriptor)
    (events : List HttpEvent) : (serviceParts config models events).Spared :=
  .bind (.mapM (fun _ => (Value.spared_text _).bind fun _ => .ok _) _) fun _ =>
    .bind (.mapM spared_ofAnyEvent events) fun _ => .ok _

theorem spared_version (parts : List Part) (given : Value) : (version parts given).Spared :=
  .ite given.spared_text ((Json.spared_writeSorted _ _).bind fun _ => .ok _)

end Parts

/-! ### Compilations -/

namespace Compile
variable {g g' : ResourceGraph}

theorem spared_checkImports (models : List ModelDescriptor) (events : List HttpEvent) :
    (checkImports models events).Spared := by
  unfold checkImports
  split
  · exact .error rfl
  · exact .ok ()

theorem spared_augmentEvent (safeMode : Bool) (g : ResourceGraph) (e : HttpEvent) :
    (augmentEvent safeMode g e).Spared := by
  unfold augmentEvent
  split
  · exact .ok g
  · dsimp only
    split
    · exact .error rfl
    · split
      · exact .ok _
      · rename_i h
        exact .error (Resource.spared_augment _ _ _ _ _ h)

/-- Documenting the method resources leaves the names of a graph distinct. -/
theorem distinct_augmentEvents {safeMode : Bool} {events : List HttpEvent}
    (hd : ResourceGraph.Distinct g.names) (h : augmentEvents safeMode g events = .ok g') :
    ResourceGraph.Distinct g'.names := by
  induction events generalizing g with
  | nil =>
    cases h
    exact hd
  | cons e events ih =>
    obtain ⟨g₁, h₁, h₂⟩ := Result.bind_eq_ok.mp h
    refine ih ?_ h₂
    unfold augmentEvent at h₁
    split at h₁
    · cases h₁
      exact hd
    · dsimp only at h₁
      split at h₁
      · cases h₁
      · split at h₁
        · cases h₁
          exact hd.add _ _
        · cases h₁

theorem spared_documentedGraph (hd : ResourceGraph.Distinct g.names)
    (models : List ModelDescriptor) (events : List HttpEvent) (settings : CompileSettings) :
    (documentedGraph g models events settings).Spared := by
  refine .bind (.ofResult (spared_checkImports models events)) fun _ =>
    .ofResult_bind (ModelDescriptor.spared_toResources _ models) fun rs hrs => ?_
  have hadded := hd.addAll fun nr hnr => exists_text_of_toResources hrs nr hnr
  refine .bind (.modify _) fun _ => .ofResult_bind (.foldlM (spared_augmentEvent _) _ _)
    fun g₁ hg₁ => .bind (.modify _) fun _ => ?_
  have hd₁ := distinct_augmentEvents hadded hg₁
  have hedges : (Edit.outcome
      (ResourceGraph.chainModels (.int settings.chunking.width)) g₁).2.Spared := by
    intro f hf
    unfold Edit.outcome at hf
    split at hf
    · cases hf
    · rename_i h
      obtain rfl := Except.error.inj hf
      rw [ResourceGraph.chainModels_eq_error hd₁ settings.chunking.width.property h]
      rfl
  exact .ite (.bind (.ofResult hedges) fun _ => .bind (.modify _) fun _ => .pure _) (.pure _)

theorem spared_commit (g : ResourceGraph) (restApi : Value) : (commit g restApi).Spared := by
  refine .bind .get fun t => .bind (.ofResult t.spared_asObject) fun fields =>
    .bind (.set _) fun _ => .bind (.ofResult ?_) fun _ => .set _
  refine (Value.spared_asObject _).bind fun pairs => ?_
  dsimp only
  split <;> exact .ok _

theorem spared_onMetrics {α : Type} {edit : Edit Metrics α} (h : edit.Spared) :
    (onMetrics edit).Spared :=
  .bind .get fun _ => h.zoom _ _

theorem spared_onTemplate {α : Type} {edit : Edit Value α} (h : edit.Spared) :
    (onTemplate edit).Spared :=
  .bind .get fun _ => h.zoom _ _

theorem spared_sources (config : DocumentationConfig) (events : List HttpEvent) :
    (sources config events).2.Spared := by
  unfold sources
  split
  · exact Swagger.spared_apply _ _ _
  · exact .ok _

/-- A compilation of resources with distinct names does not fail because of the chaining. -/
theorem spared_compile {service : Value} {settings : CompileSettings} {w w' : Workspace}
    {f : Failure} (hd : ∀ g, readGraph w.template = .ok g → ResourceGraph.Distinct g.names)
    (h : compile service settings w = .error f w') : f.isOfChaining = false := by
  have hread : (readGraph w.template).Spared :=
    (Value.spared_field _ _).bind fun v =>
      .ite (v.spared_asObject.bind fun fields => .bind (.mapM (fun kv =>
        (Resource.spared_ofEntry kv.2).bind fun _ => .ok _) fields) fun _ => .ok _)
        (.bind (.ok []) fun fields => .bind (.mapM (fun kv =>
          (Resource.spared_ofEntry kv.2).bind fun _ => .ok _) fields) fun _ => .ok _)
  unfold compile at h
  rw [Edit.bind_of_ok (Edit.get_apply w)] at h
  refine Edit.Spared.ofResult_bind hread (fun g hg => ?_) w f w' h
  refine .bind (.ofResult (DocumentationConfig.spared_ofService service)) fun config? => ?_
  split
  · exact .pure _
  · exact .bind (.ofResult (spared_serviceEvents service)) fun events =>
      .bind (.ofResult (spared_sources _ events)) fun models =>
      .bind (spared_onMetrics (spared_documentedGraph (hd g hg) _ _ _)) fun g =>
      .bind (spared_onTemplate (spared_commit _ _)) fun _ =>
      .bind (.ofResult (Parts.spared_serviceParts _ _ _)) fun parts =>
      .bind (.ofResult (Parts.spared_version _ _)) fun _ => .pure _

/-! ### A service that asks for chains -/

/-- A service with a section but no models, whose models are to be chained. -/
def chainedService : Value := .ofPairs
  [("provider", .ofPairs [("documentation", .ofPairs [("splitModels", .bool true)])]),
    ("custom", .ofPairs [("documentation", .ofPairs [("version", .str "1")])])]

/-- A template with a resource under a text and a model under a number. -/
def numberedTemplate : Value := .ofPairs [("Resources", .object
  [(.str "Topic", .ofPairs [("Type", .str "AWS::SNS::Topic")]),
    (.int 1, .ofPairs [("Type", .str modelKind)])])]

/-- A template with a resource under what is not a number and a model under a number. -/
def nanTemplate : Value := .ofPairs [("Resources", .object
  [(.float (0.0 / 0.0), .ofPairs [("Type", .str "AWS::SNS::Topic")]),
    (.float 1.0, .ofPairs [("Type", .str modelKind)])])]

end Compile

open Compile in
/-- **Chaining never fails a compilation.**  The settings of a service are invalid, or they have
the width of chains that is asked for, which is at least one.  Whatever the settings, a compilation
into a template with distinct names of resources fails neither because the width is too small nor
because the names are not kept. -/
theorem chaining_never_fails (service : Value) :
    (∀ options env, (options.truthy = true → ∃ fields, options.asObject = .ok fields) →
      (∃ problems, CompileSettings.ofService service options env =
          .error (.invalid "ChunkingConfig" problems)) ∨
        ∃ settings, CompileSettings.ofService service options env = .ok settings ∧
          Shape.positive (CompileSettings.widthAsked service env) = .ok settings.chunking.width ∧
          1 ≤ settings.chunking.width.val) ∧
    ∀ settings w, (∀ g, readGraph w.template = .ok g → ResourceGraph.Distinct g.names) →
      ∀ f w', compile service settings w = .error f w' →
        f ≠ .namesDiffer ∧ ∀ width, f ≠ .badWidth width := by
  constructor
  · intro options env ho
    rcases CompileSettings.ofService_width service ho env with ⟨_, -, placed, h⟩ | h
    · exact .inl ⟨placed, h⟩
    · exact .inr h
  · intro settings w hd f w' h
    have hf := spared_compile hd h
    constructor
    · rintro rfl
      cases hf
    · rintro width rfl
      cases hf

open Compile in
/-- Names of two kinds cannot be put in order; a compilation fails with that and with nothing else,
whatever the width that the environment asks for. -/
theorem chaining_never_fails_numbered : ∃ settings,
    CompileSettings.ofService chainedService (.object []) ⟨none, some " 2 "⟩ = .ok settings ∧
      settings.chunking.width = 2 ∧
      (∀ g, readGraph numberedTemplate = .ok g → ResourceGraph.Distinct g.names) ∧
      ∃ f w', compile chainedService settings ⟨numberedTemplate, .empty⟩ = .error f w' ∧
        f = .badShape ∧ f ≠ .namesDiffer ∧ ∀ width, f ≠ .badWidth width := by
  obtain ⟨hsettings, hcompile⟩ := chaining_never_fails chainedService
  rcases hsettings (.object []) ⟨none, some " 2 "⟩ (fun _ => ⟨[], rfl⟩) with
    ⟨_, hinvalid⟩ | ⟨settings, hs, hwidth, -⟩
  · cases hinvalid
  · have hdistinct : ∀ g, readGraph numberedTemplate = .ok g →
        ResourceGraph.Distinct g.names := by
      intro g hg
      cases hg
      exact ⟨by simp [ResourceGraph.names, Atom.isNaN],
        by simp [ResourceGraph.names, Atom.same, Atom.whole?]⟩
    obtain ⟨f, w', h, hf⟩ : ∃ f w', compile chainedService settings ⟨numberedTemplate, .empty⟩ =
        .error f w' ∧ f = .badShape := by
      cases hs
      exact ⟨_, _, rfl, rfl⟩
    exact ⟨settings, hs, (Checked.ok.inj hwidth).symm, hdistinct, f, w', h, hf,
      hcompile settings _ hdistinct f w' h⟩

open Compile in
/-- What is not a number ends up before a number or after it, as it stood before, so that names of
which it is one are not found to be kept. -/
theorem nan_names_not_kept : ∃ settings w',
    CompileSettings.ofService chainedService (.object []) ⟨none, none⟩ = .ok settings ∧
      compile chainedService settings ⟨nanTemplate, .empty⟩ = .error .namesDiffer w' :=
  ⟨_, _, rfl, rfl⟩

end GatewayDocs
