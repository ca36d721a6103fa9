import GatewayDocs.Proofs.Kept

/-! # What is added to a map

Documentation writes into three kinds of maps: the parameters and the models of a response, and the
parameters of a request.  What becomes of such a map is said of the values that are found in it
(`Value.PartBecomes`): parameters keep what is there (`partBecomes_parameters`), models replace it
(`partBecomes_models`), and a map to which nothing is to be added is not even made. -/

namespace GatewayDocs
open CompileSettings (subsection)

namespace Pairs
variable {α : Type} {xs ys : List (Atom × α)} {s : String}

/-- Of pairs that are written one after the other, the last one of a key is found. -/
theorem lookup_putAll (ht : ∀ kv ∈ ys, ∃ t, kv.1 = .str t) :
    lookup (.str s) (putAll xs ys) = (lookup (.str s) ys.reverse).or (lookup (.str s) xs) := by
  induction ys generalizing xs with
  | nil => rfl
  | cons kv ys ih =>
    obtain ⟨k, v⟩ := kv
    obtain ⟨t, rfl⟩ : ∃ t, k = .str t := ht (k, v) List.mem_cons_self
    rw [putAll_cons, ih fun kv hkv => ht kv (List.mem_cons_of_mem _ hkv), List.reverse_cons,
      lookup_append, Option.or_assoc]
    refine congrArg (Option.or _) ?_
    by_cases hts : t = s
    · subst hts
      rw [lookup_put_self, lookup_cons_self]
      rfl
    · have hne : Atom.str t ≠ .str s := fun h => hts (Atom.str.inj h)
      rw [lookup_put_of_ne hts, lookup_cons_of_ne hne]
      rfl

end Pairs

/-! ### What is given -/

/-- The value that parameters at a place give to a key: that of the first one whose key it is. -/
def Parameter.value? (place : String) (value : Parameter → Bool) (ps : List Parameter)
    (key : String) : Option Value :=
  (ps.find? fun p => Resource.placedName place p.name == key).map fun p => .bool (value p)

/-- What references give to a content type: what the last one for it is written as. -/
def ModelRefs.last? (refs : ModelRefs) (contentType : String) : Option Value :=
  Pairs.lookup (.str contentType) refs.targets.reverse

section Given
variable {place key : String} {value : Parameter → Bool} {p : Parameter} {ps qs : List Parameter}
  {fs : Fields} {refs refs' : ModelRefs}

theorem Parameter.value?_append : value? place value (ps ++ qs) key =
    (value? place value ps key).or (value? place value qs key) := by
  unfold value?
  rw [List.find?_append, Option.map_or]

theorem Parameter.value?_cons : value? place value (p :: ps) key =
    (if Resource.placedName place p.name = key then some (.bool (value p)) else none).or
      (value? place value ps key) := by
  unfold value?
  by_cases hp : Resource.placedName place p.name = key
  · rw [List.find?_cons_of_pos (by simp [hp]), if_pos hp]
    rfl
  · rw [List.find?_cons_of_neg (by simp [hp]), if_neg hp]
    rfl

theorem Fields.get?_putNew {name : String} {v : Value} : get? key (putNew name v fs) =
    (get? key fs).or (if name = key then some v else none) := by
  unfold putNew get?
  rw [Pairs.putNew_eq_put]
  by_cases hname : name = key
  · subst hname
    rw [Pairs.lookup_put_self, if_pos rfl]
    cases Pairs.lookup (.str name) fs <;> rfl
  · rw [Pairs.lookup_put_of_ne hname, if_neg hname, Option.or_none]

/-- Parameters that are added one after the other keep what is there. -/
theorem Parameter.get?_foldl_putNew : Fields.get? key (ps.foldl (fun fs p =>
      Fields.putNew (Resource.placedName place p.name) (.bool (value p)) fs) fs) =
    (Fields.get? key fs).or (value? place value ps key) := by
  induction ps generalizing fs with
  | nil => exact Option.or_none.symm
  | cons p ps ih => rw [List.foldl_cons, ih, Fields.get?_putNew, Option.or_assoc, value?_cons]

theorem ModelRefs.last?_append (key : String) :
    last? (refs ++ refs') key = (last? refs' key).or (last? refs key) := by
  unfold last? targets
  rw [List.map_append, List.reverse_append, Pairs.lookup_append]

end Given

/-! ### What becomes of a map -/

theorem not_isEmpty_append {α : Type} (xs ys : List α) :
    (!(xs ++ ys).isEmpty) = (!xs.isEmpty || !ys.isEmpty) := by
  cases xs <;> rfl

namespace Value
variable {key : String} {given given' : Bool} {next next' : String → Option Value → Option Value}
  {v w u : Value}

/-- What becomes of the map under a key.  If nothing is given it is left alone; otherwise it is
there, and what is found in it under a name follows from what was found there. -/
structure PartBecomes (key : String) (given : Bool)
    (next : String → Option Value → Option Value) (v w : Value) : Prop where
  values : ∀ name, Fields.get? name (subsection [key] w) =
    next name (Fields.get? name (subsection [key] v))
  untouched : given = false → w.field? key = v.field? key
  made : given = true → ∃ fs, w.field? key = some (.object fs)

namespace PartBecomes

theorem congr (h : PartBecomes key given next v w)
    (hnext : ∀ name old, next name old = next' name old) : PartBecomes key given next' v w :=
  ⟨fun name => (h.values name).trans (hnext name _), h.untouched, h.made⟩

/-- What becomes of a map is a matter of what is under its key before and after. -/
theorem of_fields {v' w' : Value} (h : PartBecomes key given next v w)
    (hv : v'.field? key = v.field? key) (hw : w'.field? key = w.field? key) :
    PartBecomes key given next v' w' := by
  refine ⟨fun name => ?_, fun hnone => ?_, fun hsome => hw ▸ h.made hsome⟩
  · unfold subsection
    rw [hv, hw]
    exact h.values name
  · rw [hv, hw]
    exact h.untouched hnone

/-- What is left alone is as it was. -/
theorem of_field?_eq (h : w.field? key = v.field? key) :
    PartBecomes key false (fun _ old => old) v w := by
  refine ⟨fun name => ?_, fun _ => h, fun hgiven => (nomatch hgiven)⟩
  unfold subsection
  rw [h]

theorem trans (h : PartBecomes key given next v w) (h' : PartBecomes key given' next' w u) :
    PartBecomes key (given || given') (fun name old => next' name (next name old)) v u where
  values name := by rw [h'.values name, h.values name]
  untouched hnone := by
    obtain ⟨hgiven, hgiven'⟩ := Bool.or_eq_false_iff.mp hnone
    exact (h'.untouched hgiven').trans (h.untouched hgiven)
  made hsome := by
    by_cases hgiven' : given' = true
    · exact h'.made hgiven'
    · have hnone := Bool.eq_false_iff.mpr hgiven'
      rw [hnone, Bool.or_false] at hsome
      rw [h'.untouched hnone]
      exact h.made hsome

end PartBecomes

/-- The pairs of a part that starts as an empty object. -/
theorem subsection_of_getD {fs gs : Fields}
    (h : (Fields.get? key fs).getD (.object []) = .object gs) :
    subsection [key] (.object fs) = gs := by
  have hfield : (object fs).field? key = Fields.get? key fs := rfl
  unfold subsection
  rw [hfield]
  cases hx : Fields.get? key fs with
  | none =>
    rw [hx] at h
    cases h
    rfl
  | some x =>
    rw [hx] at h
    cases h
    rfl

/-- Writes into a map make of it what they make of its pairs. -/
theorem partBecomes_of_runAll {ws : List Write} {f : Fields → Fields}
    (hfield : ∀ w ∈ ws, ∃ k d i, w = .field k d i)
    (hrun : ∀ gs, Write.runAll ws (.object gs) = .ok (.object (f gs)))
    (hnext : ∀ gs name, Fields.get? name (f gs) = next name (Fields.get? name gs))
    (h : Write.runAll (ws.map (.field key (.object []))) v = .ok u) :
    PartBecomes key (!ws.isEmpty) next v u := by
  by_cases hne : ws = []
  · subst hne
    obtain rfl : v = u := Except.ok.inj h
    have hself : ∀ gs, f gs = gs := fun gs => (Value.object.inj (Except.ok.inj (hrun gs))).symm
    refine (PartBecomes.of_field?_eq rfl).congr fun name old => ?_
    cases old with
    | none => exact (congrArg (Fields.get? name) (hself [])).symm.trans (hnext [] name)
    | some x =>
      have hone : Fields.get? name [(.str name, x)] = some x := Pairs.lookup_cons_self
      have := hnext [(.str name, x)] name
      rw [hself, hone] at this
      exact this
  · obtain ⟨fs, x, rfl, hx, rfl⟩ := (Write.runAll_map_field hne).mp h
    obtain ⟨gs, hgs⟩ := Write.exists_object_of_runAll hne hfield hx
    rw [hgs, hrun gs] at hx
    obtain rfl : Value.object (f gs) = x := Except.ok.inj hx
    have hput : Fields.get? key (Pairs.put (.str key) (.object (f gs)) fs) =
      some (.object (f gs)) := Pairs.lookup_put_self
    have hafter : (Fields.get? key (Pairs.put (.str key) (.object (f gs)) fs)).getD (.object []) =
        .object (f gs) := by
      rw [hput]
      rfl
    refine ⟨fun name => ?_, fun hnone => ?_, fun _ => ⟨_, hput⟩⟩
    · rw [subsection_of_getD hgs, subsection_of_getD hafter]
      exact hnext gs name
    · simp [hne] at hnone

/-- Parameters keep what is there. -/
theorem partBecomes_parameters {place : String} {value : Parameter → Bool} {ps : List Parameter}
    (h : Write.runAll ((Parameter.writes place value ps).map (.field key (.object []))) v = .ok u) :
    PartBecomes key (!ps.isEmpty) (fun name old => old.or (Parameter.value? place value ps name))
      v u := by
  have hgiven : (Parameter.writes place value ps).isEmpty = ps.isEmpty := by
    simp [Parameter.writes]
  rw [← hgiven]
  exact partBecomes_of_runAll Parameter.exists_field_of_mem_writes
    (fun gs => Parameter.runAll_writes place value ps)
    (fun gs name => Parameter.get?_foldl_putNew) h

/-- Models replace what is there. -/
theorem partBecomes_models {refs : ModelRefs} (ht : refs.Texts)
    (h : Write.runAll ((Fields.writes refs.targets).map (.field key (.object []))) v = .ok u) :
    PartBecomes key (!refs.isEmpty) (fun name old => (refs.last? name).or old) v u := by
  have hgiven : (Fields.writes refs.targets).isEmpty = refs.isEmpty := by
    by_cases hne : refs = []
    · subst hne
      rfl
    · have htargets : refs.targets ≠ [] := by simpa [ModelRefs.targets] using hne
      rw [List.isEmpty_eq_false_iff.mpr (Fields.writes_ne_nil ht.targets htargets),
        List.isEmpty_eq_false_iff.mpr hne]
  rw [← hgiven]
  exact partBecomes_of_runAll Fields.exists_field_of_mem_writes
    (fun gs => Fields.runAll_writes ht.targets) (fun gs name => Pairs.lookup_putAll ht.targets) h

end Value
end GatewayDocs
