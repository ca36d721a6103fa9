import GatewayDocs.Proofs.Pairs
import GatewayDocs.Proofs.Write
import GatewayDocs.Template.Resource

/-! # Changes at a place without labels

A path leads from a value to a part of it if every value on the way is an object that has the
key or a list that has the place (`Value.Leads`).  A change there is a change of that part and
of nothing else (`Leads.change_eq`), and a resource has no other places to carry it to
(`Resource.changeProperties_of_leads`), so an edit of a resource replaces what it edits
(`Resource.editAt_iff`, `Resource.editUnder_iff`). -/

namespace GatewayDocs

/-- A path leads through objects by their keys and through lists by places. -/
inductive Value.Leads : List Step → Value → Value → Prop where
  | here (v : Value) : Leads [] v v
  | key {s : String} {fs : Fields} {p x : Value} {path : List Step} :
      Pairs.lookup (.str s) fs = some p → Leads path p x →
      Leads (.key (.str s) :: path) (.object fs) x
  | index {i : Nat} {items : List Value} {p x : Value} {path : List Step} :
      items[i]? = some p → Leads path p x → Leads (.index i :: path) (.list items) x

namespace Value
variable {v x y z p : Value} {s : String} {fs : Fields} {items : List Value} {i : Nat}
  {path rest : List Step} {f : Value → Value}

/-- A value with another one at a place. -/
def replace (path : List Step) (v y : Value) : Value := v.change (fun _ => y) path

theorem change_key (h : Pairs.lookup (.str s) fs = some p) :
    (object fs).change f (.key (.str s) :: rest) =
      .object (Pairs.put (.str s) (p.change f rest) fs) := by
  simp only [change, inside, bare_object, part?, h, putPart]

theorem change_index (h : items[i]? = some p) :
    (list items).change f (.index i :: rest) = .list (items.set i (p.change f rest)) := by
  simp only [change, inside, bare_list, part?, h, putPart]

theorem change_nil (h : v.isOpen = true) : v.change f [] = f v := inside_of_isOpen h

theorem replace_nil (h : v.isOpen = true) : v.replace [] y = y := change_nil h

theorem asObject_iff (h : v.isOpen = true) : v.asObject = .ok fs ↔ v = .object fs := by
  unfold asObject
  rw [bare_of_isOpen h]
  cases v with
  | object gs => rw [Except.ok.injEq, object.injEq]
  | atom _ => exact ⟨fun h => (nomatch h), fun h => (nomatch h)⟩
  | list _ => exact ⟨fun h => (nomatch h), fun h => (nomatch h)⟩
  | _ => cases h

namespace Leads

theorem append (h : Leads path v p) (hp : Leads rest p x) : Leads (path ++ rest) v x := by
  induction h with
  | here => exact hp
  | key hl _ ih => exact .key hl (ih hp)
  | index hi _ ih => exact .index hi (ih hp)

theorem at?_eq (h : Leads path v x) : v.at? path = some x := by
  induction h with
  | here => rfl
  | key hl _ ih => simp only [at?, part?, bare_object, hl, Option.bind_some, ih]
  | index hi _ ih => simp only [at?, part?, bare_list, hi, Option.bind_some, ih]

theorem labelOn?_eq (h : Leads path v x) (hx : x.isOpen = true) : v.labelOn? path = none := by
  induction h with
  | here v =>
    cases v with
    | shared _ _ => cases hx
    | _ => rfl
  | key hl _ ih => simp only [labelOn?, part?, bare_object, hl, Option.bind_some, ih hx]; rfl
  | index hi _ ih => simp only [labelOn?, part?, bare_list, hi, Option.bind_some, ih hx]; rfl

/-- A change at a place is a replacement of what is there. -/
theorem change_eq (h : Leads path v x) (hx : x.isOpen = true) :
    v.change f path = v.replace path (f x) := by
  unfold replace
  induction h with
  | here => rw [change_nil hx, change_nil hx]
  | key hl _ ih => rw [change_key hl, change_key hl, ih hx]
  | index hi _ ih => rw [change_index hi, change_index hi, ih hx]

/-- A change further in is a replacement of what is changed. -/
theorem change_append (rest : List Step) (h : Leads path v p) (hp : p.isOpen = true) :
    v.change f (path ++ rest) = v.replace path (p.change f rest) := by
  unfold replace
  induction h with
  | here => rw [List.nil_append, change_nil hp]
  | key hl _ ih => rw [List.cons_append, change_key hl, change_key hl, ih hp]
  | index hi _ ih => rw [List.cons_append, change_index hi, change_index hi, ih hp]

/-- What is put at a place is there. -/
theorem replace (h : Leads path v x) (hx : x.isOpen = true) : Leads path (v.replace path y) y := by
  unfold Value.replace
  induction h with
  | here v =>
    rw [change_nil hx]
    exact .here y
  | key hl _ ih =>
    rw [change_key hl]
    exact .key Pairs.lookup_put_self (ih hx)
  | index hi _ ih =>
    rw [change_index hi]
    exact .index (by rw [List.getElem?_set_self (List.getElem?_eq_some_iff.mp hi).1]) (ih hx)

theorem replace_self (h : Leads path v x) (hx : x.isOpen = true) : v.replace path x = v := by
  unfold Value.replace
  induction h with
  | here => exact change_nil hx
  | key hl _ ih => rw [change_key hl, ih hx, Pairs.put_of_lookup hl]
  | index hi _ ih =>
    obtain ⟨hlt, rfl⟩ := List.getElem?_eq_some_iff.mp hi
    rw [change_index hi, ih hx, List.set_getElem_self]

/-- Of two replacements at a place the last one counts. -/
theorem replace_replace (h : Leads path v x) (hx : x.isOpen = true) (hy : y.isOpen = true) :
    (v.replace path y).replace path z = v.replace path z := by
  unfold Value.replace
  induction h with
  | here v => rw [change_nil hx, change_nil hy, change_nil hx]
  | key hl _ ih =>
    rw [change_key hl, change_key hl, change_key Pairs.lookup_put_self, ih hx, Pairs.put_put_self]
  | index hi _ ih =>
    rw [change_index hi, change_index hi, change_index
      (List.getElem?_set_self (List.getElem?_eq_some_iff.mp hi).1), ih hx, List.set_set]

end Leads
end Value

namespace Resource
variable {r r' : Resource} {x y : Value} {path : List Step} {names names' : List String}
  {f : Fields → Fields} {key : String} {parts : String → Outline}

/-- A resource with other properties. -/
def setProperties (v : Value) (r : Resource) : Resource := { r with properties := v }

/-- A resource with another value at a place of its properties. -/
def replaceAt (path : List Step) (y : Value) (r : Resource) : Resource :=
  r.setProperties (r.properties.replace path y)

/-- A change at a place without labels is a replacement of what is there. -/
theorem changeProperties_of_leads {f : Value → Value} (h : r.properties.Leads path x)
    (hx : x.isOpen = true) (hy : (f x).isOpen = true) :
    r.changeProperties path f = r.replaceAt path (f x) := by
  simp only [changeProperties, h.change_eq hx, (h.replace hx).labelOn?_eq hy]
  rfl

/-! ### Dependencies beside properties -/

theorem addDependencies_append :
    r.addDependencies (names ++ names') = (r.addDependencies names).addDependencies names' :=
  List.foldl_append

@[simp] theorem properties_addDependencies :
    (r.addDependencies names).properties = r.properties := by
  induction names generalizing r with
  | nil => rfl
  | cons n names ih => exact ih (r := r.addDependency n)

@[simp] theorem kind_addDependencies : (r.addDependencies names).kind = r.kind := by
  induction names generalizing r with
  | nil => rfl
  | cons n names ih => exact ih (r := r.addDependency n)

@[simp] theorem extra_addDependencies : (r.addDependencies names).extra = r.extra := by
  induction names generalizing r with
  | nil => rfl
  | cons n names ih => exact ih (r := r.addDependency n)

theorem setProperties_addDependencies :
    (r.addDependencies names).setProperties y = (r.setProperties y).addDependencies names := by
  induction names generalizing r with
  | nil => rfl
  | cons n names ih => exact ih (r := r.addDependency n)

theorem replaceAt_addDependencies :
    (r.addDependencies names).replaceAt path y = (r.replaceAt path y).addDependencies names := by
  unfold replaceAt
  rw [setProperties_addDependencies, properties_addDependencies]

/-! ### Edits at a place -/

theorem editAt_iff (hx : r.properties.Leads path x) (ho : x.isOpen = true) :
    editAt path (modify f) r = .ok () r' ↔
      ∃ fs, x = .object fs ∧ r' = r.replaceAt path (.object (f fs)) := by
  unfold editAt
  rw [Edit.bind_of_ok (Edit.get_apply r), hx.at?_eq, Option.getD_some, Edit.bind_eq_ok]
  constructor
  · rintro ⟨fs, s, hfs, h⟩
    obtain ⟨hobject, rfl⟩ := Edit.ofResult_eq_ok.mp hfs
    obtain rfl := (Value.asObject_iff ho).mp hobject
    refine ⟨fs, rfl, ?_⟩
    have := changeProperties_of_leads (f := fun _ => .object (f fs)) hx ho rfl
    cases h
    exact this
  · rintro ⟨fs, rfl, rfl⟩
    refine ⟨fs, r, Edit.ofResult_eq_ok.mpr ⟨rfl, rfl⟩, ?_⟩
    exact congrArg (EStateM.Result.ok ()) (changeProperties_of_leads hx ho rfl)

/-- The part under a key, which starts as an empty object, is open. -/
theorem isOpen_part {fs : Fields} {inner : String → Outline} (hk : parts key = .object inner)
    (hc : (Outline.object parts).Clear (.object fs)) :
    ((Pairs.lookup (.str key) fs).getD (.object [])).isOpen = true := by
  cases hl : Pairs.lookup (.str key) fs with
  | none => rfl
  | some p =>
    have := hc.2 fs key p rfl hl
    rw [hk] at this
    exact this.1

/-- The part under a key is there once it is made. -/
theorem leads_made (key : String) (fs : Fields) (hx : r.properties.Leads path x)
    (ho : x.isOpen = true) :
    (r.replaceAt path (.object (Fields.putNew key (.object []) fs))).properties.Leads
      (path ++ [.key (.str key)]) ((Pairs.lookup (.str key) fs).getD (.object [])) :=
  (hx.replace ho).append <| .key
    ((congrArg (Pairs.lookup _) Pairs.putNew_eq_put).trans Pairs.lookup_put_self) (.here _)

theorem replaceAt_made {fs gs : Fields} (hx : r.properties.Leads path x) (ho : x.isOpen = true)
    (hp : ((Pairs.lookup (.str key) fs).getD (.object [])).isOpen = true) :
    (r.replaceAt path (.object (Fields.putNew key (.object []) fs))).replaceAt
        (path ++ [.key (.str key)]) (.object gs) =
      r.replaceAt path (.object (Pairs.put (.str key) (.object gs) fs)) := by
  refine congrArg (setProperties · r) ?_
  have hmade : Fields.putNew key (.object []) fs =
      Pairs.put (.str key) ((Pairs.lookup (.str key) fs).getD (.object [])) fs :=
    Pairs.putNew_eq_put
  have hin := (hx.replace (y := .object (Fields.putNew key (.object []) fs)) ho).change_append
    (f := fun _ => Value.object gs) [.key (.str key)] rfl
  refine hin.trans ?_
  rw [hmade, Value.change_key Pairs.lookup_put_self, Value.change_nil hp, Pairs.put_put_self]
  exact hx.replace_replace ho rfl

theorem editUnder_iff (hx : r.properties.Leads path x) (hc : (Outline.object parts).Clear x)
    {inner : String → Outline} (hk : parts key = .object inner) :
    editUnder path key (modify f) r = .ok () r' ↔ ∃ fs gs, x = .object fs ∧
      (Pairs.lookup (.str key) fs).getD (.object []) = .object gs ∧
      r' = r.replaceAt path (.object (Pairs.put (.str key) (.object (f gs)) fs)) := by
  unfold editUnder
  rw [Edit.bind_eq_ok]
  constructor
  · rintro ⟨_, r₁, h₁, h⟩
    obtain ⟨fs, rfl, rfl⟩ := (editAt_iff hx hc.1).mp h₁
    have hp := isOpen_part hk hc
    obtain ⟨gs, hgs, rfl⟩ := (editAt_iff (leads_made _ _ hx hc.1) hp).mp h
    exact ⟨fs, gs, rfl, hgs, replaceAt_made hx hc.1 hp⟩
  · rintro ⟨fs, gs, rfl, hgs, rfl⟩
    have hp := isOpen_part hk hc
    exact ⟨(), _, (editAt_iff hx hc.1).mpr ⟨fs, rfl, rfl⟩,
      (editAt_iff (leads_made _ _ hx hc.1) hp).mpr ⟨gs, hgs, (replaceAt_made hx hc.1 hp).symm⟩⟩

end Resource
end GatewayDocs
