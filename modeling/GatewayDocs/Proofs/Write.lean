import GatewayDocs.Proofs.Edit
import GatewayDocs.Proofs.Pairs
import GatewayDocs.Proofs.Response
import GatewayDocs.Value.Place

/-! # Writes into nested values

What documentation does to the properties of a method resource is a sequence of writes
(`Write`): each one goes down through objects by key and through responses by status code,
makes what is missing on the way, and at the end either puts a value or keeps what is there.

An `Outline` says where parts are and where only whole values are put.  Writes that fit one
outline never put a whole value above the place of another write, so a place that was written
once stays (`settled_of_run`), and they keep a value clear of labels where its parts are
(`clear_run`). -/

namespace GatewayDocs

/-- A write into a value. -/
inductive Write where
  /-- Keeps the value. -/
  | keep
  /-- Puts a value in its place. -/
  | put (v : Value)
  /-- Writes into the part under a key of an object, which starts with a default. -/
  | field (key : String) (default : Value) (inner : Write)
  /-- Writes into the entry of a status code in a list of responses. -/
  | response (code : String) (inner : Write)

/-- Where the parts of a value are. -/
inductive Outline where
  | leaf
  | object (parts : String → Outline)
  | responses (entry : Outline)

/-- An atom, a list or an object: neither behind a label nor of another kind. -/
def Value.isOpen : Value → Bool
  | .atom _ => true
  | .list _ => true
  | .object _ => true
  | _ => false

/-- A value is open wherever an outline has parts. -/
def Outline.Clear : Outline → Value → Prop
  | .leaf, _ => True
  | .object parts, v => v.isOpen = true ∧
    ∀ fs k x, v = .object fs → Pairs.lookup (.str k) fs = some x → (parts k).Clear x
  | .responses entry, v => v.isOpen = true ∧ ∀ items, v = .list items → ∀ x ∈ items, entry.Clear x

namespace Value
variable {v : Value}

theorem bare_of_isOpen (h : v.isOpen = true) : v.bare = v := by
  cases v with
  | atom _ => rfl
  | list _ => rfl
  | object _ => rfl
  | _ => cases h

theorem inside_of_isOpen {f : Value → Value} (h : v.isOpen = true) : v.inside f = f v := by
  cases v with
  | atom _ => rfl
  | list _ => rfl
  | object _ => rfl
  | _ => cases h

end Value

namespace Outline
variable {o : Outline} {a : Atom}

theorem clear_atom : o.Clear (.atom a) := by
  cases o with
  | leaf => trivial
  | object parts => exact ⟨rfl, fun _ _ _ h => nomatch h⟩
  | responses entry => exact ⟨rfl, fun _ h => nomatch h⟩

theorem clear_nil : o.Clear (.list []) := by
  cases o with
  | leaf => trivial
  | object parts => exact ⟨rfl, fun _ _ _ h => nomatch h⟩
  | responses entry =>
    refine ⟨rfl, fun items h x hx => ?_⟩
    cases h
    cases hx

theorem clear_empty : o.Clear (.object []) := by
  cases o with
  | leaf => trivial
  | object parts =>
    refine ⟨rfl, fun fs k x h hx => ?_⟩
    cases h
    cases hx
  | responses entry => exact ⟨rfl, fun _ h => nomatch h⟩

theorem clear_new (c : String) : o.Clear (Response.new c) := by
  cases o with
  | leaf => trivial
  | object parts =>
    refine ⟨rfl, fun fs k x h hx => ?_⟩
    cases h
    have hm := Pairs.mem_of_lookup hx
    rw [List.map_singleton, List.mem_singleton, Prod.mk.injEq] at hm
    exact hm.2 ▸ clear_atom
  | responses entry => exact ⟨rfl, fun _ h => nomatch h⟩

end Outline

namespace Write
variable {o : Outline} {p q w : Write} {ws : List Write} {v u x y x' y' z d : Value}
  {k c : String} {fs : Fields} {items : List Value}

/-- Carries out a write. -/
def run : Write → Value → Result Value
  | .keep, v => .ok v
  | .put w, _ => .ok w
  | .field k d inner, .object fs =>
    (inner.run ((Pairs.lookup (.str k) fs).getD d)).map fun x => .object (Pairs.put (.str k) x fs)
  | .response c inner, .list items => do
    let found ← Response.found? c items
    (inner.run (found.getD (Response.new c))).map fun x => .list (Response.put c x items)
  | _, _ => .error .badShape

/-- Whether a write leaves the status code of a response alone. -/
def keepsCode : Write → Bool
  | .keep => true
  | .field k _ _ => k ≠ "StatusCode"
  | _ => false

/-- A write fits an outline: it goes down only where parts are, and puts only whole values. -/
def Fits : Outline → Write → Prop
  | _, .keep => True
  | .leaf, .put _ => True
  | .object parts, .field k d inner => (parts k).Clear d ∧ Fits (parts k) inner
  | .responses entry, .response _ inner => inner.keepsCode = true ∧ Fits entry inner
  | _, _ => False

/-- The place of a write is there. -/
def Settled : Write → Value → Prop
  | .field k _ inner, .object fs => ∃ x, Pairs.lookup (.str k) fs = some x ∧ Settled inner x
  | .response c inner, .list items =>
    ∃ x, Response.found? c items = .ok (some x) ∧ Settled inner x
  | .keep, _ => True
  | .put _, _ => True
  | _, _ => False

/-! ### One write -/

theorem run_field_iff : (field k d w).run v = .ok u ↔ ∃ fs x, v = .object fs ∧
    w.run ((Pairs.lookup (.str k) fs).getD d) = .ok x ∧ u = .object (Pairs.put (.str k) x fs) := by
  constructor
  · intro h
    cases v with
    | object fs =>
      obtain ⟨x, hx, rfl⟩ := Result.map_eq_ok.mp h
      exact ⟨fs, x, rfl, hx, rfl⟩
    | _ => cases h
  · rintro ⟨fs, x, rfl, hx, rfl⟩
    exact Result.map_eq_ok.mpr ⟨x, hx, rfl⟩

theorem run_response_iff : (response c w).run v = .ok u ↔ ∃ items found x, v = .list items ∧
    Response.found? c items = .ok found ∧ w.run (found.getD (Response.new c)) = .ok x ∧
    u = .list (Response.put c x items) := by
  constructor
  · intro h
    cases v with
    | list items =>
      obtain ⟨found, hf, h⟩ := Result.bind_eq_ok.mp h
      obtain ⟨x, hx, rfl⟩ := Result.map_eq_ok.mp h
      exact ⟨items, found, x, rfl, hf, hx, rfl⟩
    | _ => cases h
  · rintro ⟨items, found, x, rfl, hf, hx, rfl⟩
    exact Result.bind_eq_ok.mpr ⟨found, hf, Result.map_eq_ok.mpr ⟨x, hx, rfl⟩⟩

theorem settled_field_iff : Settled (field k d w) v ↔
    ∃ fs x, v = .object fs ∧ Pairs.lookup (.str k) fs = some x ∧ Settled w x := by
  constructor
  · intro h
    cases v with
    | object fs => exact ⟨fs, h.choose, rfl, h.choose_spec⟩
    | _ => cases h
  · rintro ⟨fs, x, rfl, h⟩
    exact ⟨x, h⟩

theorem settled_response_iff : Settled (response c w) v ↔
    ∃ items x, v = .list items ∧ Response.found? c items = .ok (some x) ∧ Settled w x := by
  constructor
  · intro h
    cases v with
    | list items => exact ⟨items, h.choose, rfl, h.choose_spec⟩
    | _ => cases h
  · rintro ⟨items, x, rfl, h⟩
    exact ⟨x, h⟩

@[simp] theorem settled_keep : Settled keep v := by cases v <;> trivial

@[simp] theorem settled_put : Settled (put u) v := by cases v <;> trivial

/-- A write into a response leaves its status code as it is. -/
theorem code_run (hk : w.keepsCode = true) (h : w.run v = .ok u) (hc : Response.code v = .ok c) :
    Response.code u = .ok c := by
  cases w with
  | keep => exact Except.ok.inj h ▸ hc
  | put _ => cases hk
  | response _ _ => cases hk
  | field k d inner =>
    obtain ⟨fs, x, rfl, -, rfl⟩ := run_field_iff.mp h
    -- the key that is written is another one, so the code is read as before
    have hne : k ≠ "StatusCode" := of_decide_eq_true hk
    have hget : Fields.get "StatusCode" (Pairs.put (.str k) x fs) = Fields.get "StatusCode" fs :=
      congrArg (Option.getD · _) (Pairs.lookup_put_of_ne hne)
    show (Fields.get "StatusCode" (Pairs.put (.str k) x fs)).text = .ok c
    rw [hget]
    exact hc

theorem code_run_entry {found : Option Value} (hk : w.keepsCode = true)
    (hf : Response.found? c items = .ok found) (h : w.run (found.getD (Response.new c)) = .ok x) :
    Response.code x = .ok c := by
  refine code_run hk h ?_
  cases found with
  | none => exact Response.code_new c
  | some y => exact Response.code_of_found? hf

/-- A write can be carried out where its place is there. -/
theorem run_of_settled (h : Settled w v) : ∃ u, w.run v = .ok u := by
  induction w generalizing v with
  | keep => exact ⟨v, rfl⟩
  | put u => exact ⟨u, rfl⟩
  | field k d w ih =>
    obtain ⟨fs, x, rfl, hx, hw⟩ := settled_field_iff.mp h
    obtain ⟨u, hu⟩ := ih hw
    exact ⟨_, run_field_iff.mpr ⟨fs, u, rfl, by rw [hx]; exact hu, rfl⟩⟩
  | response c w ih =>
    obtain ⟨items, x, rfl, hx, hw⟩ := settled_response_iff.mp h
    obtain ⟨u, hu⟩ := ih hw
    exact ⟨_, run_response_iff.mpr ⟨items, _, u, rfl, hx, hu, rfl⟩⟩

/-- A write into a part that is there: the part, and what it becomes. -/
theorem exists_part_of_run (hs : Settled (field k d w) v) (h : (field k d w).run v = .ok u) :
    ∃ fs x y, v = .object fs ∧ Pairs.lookup (.str k) fs = some x ∧ Settled w x ∧ w.run x = .ok y ∧
      u = .object (Pairs.put (.str k) y fs) := by
  obtain ⟨fs, x, rfl, hx, hw⟩ := settled_field_iff.mp hs
  obtain ⟨_, y, he, hy, rfl⟩ := run_field_iff.mp h
  cases he
  rw [hx, Option.getD_some] at hy
  exact ⟨fs, x, y, rfl, hx, hw, hy, rfl⟩

/-- A write into an entry that is there: the entry, and what it becomes under the same code. -/
theorem exists_entry_of_run (hk : w.keepsCode = true) (hs : Settled (response c w) v)
    (h : (response c w).run v = .ok u) :
    ∃ items x y, v = .list items ∧ Response.found? c items = .ok (some x) ∧ Settled w x ∧
      w.run x = .ok y ∧ Response.code y = .ok c ∧ u = .list (Response.put c y items) := by
  obtain ⟨items, x, rfl, hx, hw⟩ := settled_response_iff.mp hs
  obtain ⟨_, found, y, he, hfound, hy, rfl⟩ := run_response_iff.mp h
  cases he
  have hcode := code_run_entry hk hfound hy
  obtain rfl : some x = found := Except.ok.inj (hx.symm.trans hfound)
  exact ⟨items, x, y, rfl, hx, hw, hy, hcode, rfl⟩

/-- A write makes its place. -/
theorem settled_run (hf : Fits o w) (h : w.run v = .ok u) : Settled w u := by
  induction w generalizing v u o with
  | keep => exact settled_keep
  | put _ => exact settled_put
  | field k d w ih =>
    obtain ⟨fs, x, rfl, hx, rfl⟩ := run_field_iff.mp h
    cases o with
    | object parts =>
      exact settled_field_iff.mpr ⟨_, x, rfl, Pairs.lookup_put_self, ih hf.2 hx⟩
    | _ => cases hf
  | response c w ih =>
    obtain ⟨items, found, x, rfl, hfound, hx, rfl⟩ := run_response_iff.mp h
    cases o with
    | responses entry =>
      exact settled_response_iff.mpr ⟨_, x, rfl,
        Response.found?_put hfound (code_run_entry hf.1 hfound hx), ih hf.2 hx⟩
    | _ => cases hf

/-- A write that is carried out twice is carried out once. -/
theorem run_run (hf : Fits o w) (h : w.run v = .ok u) : w.run u = .ok u := by
  induction w generalizing v u o with
  | keep => rfl
  | put _ => exact h
  | field k d w ih =>
    obtain ⟨fs, x, rfl, hx, rfl⟩ := run_field_iff.mp h
    cases o with
    | object parts =>
      refine run_field_iff.mpr ⟨_, x, rfl, ?_, by rw [Pairs.put_put_self]⟩
      rw [Pairs.lookup_put_self]
      exact ih hf.2 hx
    | _ => cases hf
  | response c w ih =>
    obtain ⟨items, found, x, rfl, hfound, hx, rfl⟩ := run_response_iff.mp h
    cases o with
    | responses entry =>
      have hcode := code_run_entry hf.1 hfound hx
      refine run_response_iff.mpr ⟨_, some x, x, rfl, Response.found?_put hfound hcode,
        ih hf.2 hx, by rw [Response.put_put hcode]⟩
    | _ => cases hf

/-- A write keeps a value clear. -/
theorem clear_run (hf : Fits o w) (hv : o.Clear v) (h : w.run v = .ok u) : o.Clear u := by
  induction w generalizing v u o with
  | keep => exact Except.ok.inj h ▸ hv
  | put _ =>
    cases o with
    | leaf => trivial
    | _ => cases hf
  | field k d w ih =>
    obtain ⟨fs, x, rfl, hx, rfl⟩ := run_field_iff.mp h
    cases o with
    | object parts =>
      -- what the write starts from is clear: the part that is there, or the default
      have hpart : (parts k).Clear x := by
        refine ih hf.2 ?_ hx
        cases hl : Pairs.lookup (.str k) fs with
        | none => exact hf.1
        | some y => exact hv.2 fs k y rfl hl
      refine ⟨rfl, fun _ k' y he hy => ?_⟩
      cases he
      by_cases hk : k = k'
      · subst hk
        rw [Pairs.lookup_put_self, Option.some.injEq] at hy
        exact hy ▸ hpart
      · rw [Pairs.lookup_put_of_ne hk] at hy
        exact hv.2 fs k' y rfl hy
    | _ => cases hf
  | response c w ih =>
    obtain ⟨items, found, x, rfl, hfound, hx, rfl⟩ := run_response_iff.mp h
    cases o with
    | responses entry =>
      have hpart : entry.Clear x := by
        refine ih hf.2 ?_ hx
        cases found with
        | none => exact Outline.clear_new c
        | some y => exact hv.2 items rfl y (Response.mem_of_found? hfound)
      refine ⟨rfl, fun _ he y hy => ?_⟩
      cases he
      rcases Slot.mem_fill hy with rfl | hy
      · exact hpart
      · exact hv.2 items rfl y hy
    | _ => cases hf

/-! ### Two writes that fit one outline -/

/-- A place that is there stays when another write is carried out. -/
theorem settled_of_run (hp : Fits o p) (hq : Fits o q) (hs : Settled p v) (h : q.run v = .ok u) :
    Settled p u := by
  induction p generalizing o q v u with
  | keep => exact settled_keep
  | put _ => exact settled_put
  | field k d p ih =>
    obtain ⟨fs, x, rfl, hx, hpx⟩ := settled_field_iff.mp hs
    cases o with
    | object parts =>
      cases q with
      | keep => exact Except.ok.inj h ▸ hs
      | field k' d' q =>
        obtain ⟨fs', y, hfs, hy, rfl⟩ := run_field_iff.mp h
        cases hfs
        -- under the same key both write into one part; another key leaves the part as it is
        by_cases hk : k' = k
        · subst hk
          rw [hx] at hy
          exact settled_field_iff.mpr ⟨_, y, rfl, Pairs.lookup_put_self, ih hp.2 hq.2 hpx hy⟩
        · exact settled_field_iff.mpr ⟨_, x, rfl, (Pairs.lookup_put_of_ne hk).trans hx, hpx⟩
      | _ => cases hq
    | _ => cases hp
  | response c p ih =>
    obtain ⟨items, x, rfl, hx, hpx⟩ := settled_response_iff.mp hs
    cases o with
    | responses entry =>
      cases q with
      | keep => exact Except.ok.inj h ▸ hs
      | response c' q =>
        obtain ⟨items', found, y, hitems, hfound, hy, rfl⟩ := run_response_iff.mp h
        cases hitems
        have hcode := code_run_entry hq.1 hfound hy
        by_cases hc : c' = c
        · subst hc
          rw [Except.ok.inj (hfound.symm.trans hx)] at hy
          exact settled_response_iff.mpr ⟨_, y, rfl, Response.found?_put hfound hcode,
            ih hp.2 hq.2 hpx hy⟩
        · exact settled_response_iff.mpr ⟨_, x, rfl,
            (Response.found?_put_of_ne hc hcode).trans hx, hpx⟩
      | _ => cases hq
    | _ => cases hp

/-! ### Two values that a write makes one -/

/-- A write makes the same of two values. -/
def Joins (w : Write) (x y : Value) : Prop := ∃ z, w.run x = .ok z ∧ w.run y = .ok z

section Joins
variable {xs ys : Fields} {is js : List Value} {k' c' : String} {a b : Value}

/-- A write into the part under a key joins two objects if it joins the parts and the objects are
equal elsewhere. -/
theorem joins_field_iff : (field k d w).Joins (.object xs) (.object ys) ↔
    ∃ z, w.run ((Pairs.lookup (.str k) xs).getD d) = .ok z ∧
      w.run ((Pairs.lookup (.str k) ys).getD d) = .ok z ∧
      Pairs.put (.str k) z xs = Pairs.put (.str k) z ys := by
  constructor
  · rintro ⟨_, hx, hy⟩
    obtain ⟨_, z, he, hzx, rfl⟩ := run_field_iff.mp hx
    cases he
    obtain ⟨_, z', he, hzy, hz⟩ := run_field_iff.mp hy
    cases he
    have hput := Value.object.inj hz
    -- what is put under the key is found there again, so both put the same
    obtain rfl : z = z' := by
      have := congrArg (Pairs.lookup (.str k)) hput
      rwa [Pairs.lookup_put_self, Pairs.lookup_put_self, Option.some.injEq] at this
    exact ⟨z, hzx, hzy, hput⟩
  · rintro ⟨z, hzx, hzy, hput⟩
    exact ⟨_, run_field_iff.mpr ⟨xs, z, rfl, hzx, rfl⟩,
      run_field_iff.mpr ⟨ys, z, rfl, hzy, congrArg _ hput⟩⟩

theorem joins_field_put_self (h : (field k d w).Joins (.object xs) (.object ys))
    (hab : w.Joins a b) : (field k d w).Joins (.object (Pairs.put (.str k) a xs))
      (.object (Pairs.put (.str k) b ys)) := by
  obtain ⟨z₀, -, -, hput⟩ := joins_field_iff.mp h
  obtain ⟨z, hza, hzb⟩ := hab
  refine joins_field_iff.mpr ⟨z, ?_, ?_, ?_⟩
  · rw [Pairs.lookup_put_self]
    exact hza
  · rw [Pairs.lookup_put_self]
    exact hzb
  · have := congrArg (Pairs.put (.str k) z) hput
    rw [Pairs.put_put_self, Pairs.put_put_self] at this
    rw [Pairs.put_put_self, Pairs.put_put_self, this]

/-- Objects that are joined under one key are equal under any other, and stay joined if the same is
written there. -/
theorem joins_field_put_of_ne (h : (field k d w).Joins (.object xs) (.object ys)) (hk : k' ≠ k)
    (ha : Pairs.lookup (.str k') xs = some a) (hb : Pairs.lookup (.str k') ys = some b) :
    a = b ∧ ∀ v, (field k d w).Joins (.object (Pairs.put (.str k') v xs))
      (.object (Pairs.put (.str k') v ys)) := by
  obtain ⟨z, hzx, hzy, hput⟩ := joins_field_iff.mp h
  constructor
  · have := congrArg (Pairs.lookup (.str k')) hput
    rwa [Pairs.lookup_put_of_ne (Ne.symm hk), Pairs.lookup_put_of_ne (Ne.symm hk), ha, hb,
      Option.some.injEq] at this
  · intro v
    refine joins_field_iff.mpr ⟨z, ?_, ?_, ?_⟩
    · rwa [Pairs.lookup_put_of_ne hk]
    · rwa [Pairs.lookup_put_of_ne hk]
    · rw [← Pairs.put_comm hk (by rw [ha]; rfl), hput, Pairs.put_comm hk (by rw [hb]; rfl)]

/-- A write into the entry of a status code joins two lists if it joins the entries and the lists
are equal elsewhere. -/
theorem joins_response_iff (hw : w.keepsCode = true) :
    (response c w).Joins (.list is) (.list js) ↔
      ∃ found found' z, Response.found? c is = .ok found ∧ Response.found? c js = .ok found' ∧
        w.run (found.getD (Response.new c)) = .ok z ∧
        w.run (found'.getD (Response.new c)) = .ok z ∧
        Response.put c z is = Response.put c z js := by
  constructor
  · rintro ⟨_, hx, hy⟩
    obtain ⟨_, found, z, he, hfx, hzx, rfl⟩ := run_response_iff.mp hx
    cases he
    obtain ⟨_, found', z', he, hfy, hzy, hz⟩ := run_response_iff.mp hy
    cases he
    have hput := Value.list.inj hz
    -- the entry that is put is found again by its code, so both put the same
    obtain rfl : z = z' := by
      have hfound := Response.found?_put hfx (code_run_entry hw hfx hzx)
      rw [hput, Response.found?_put hfy (code_run_entry hw hfy hzy)] at hfound
      exact (Option.some.inj (Except.ok.inj hfound)).symm
    exact ⟨found, found', z, hfx, hfy, hzx, hzy, hput⟩
  · rintro ⟨found, found', z, hfx, hfy, hzx, hzy, hput⟩
    exact ⟨_, run_response_iff.mpr ⟨is, found, z, rfl, hfx, hzx, rfl⟩,
      run_response_iff.mpr ⟨js, found', z, rfl, hfy, hzy, congrArg _ hput⟩⟩

theorem joins_response_put_self (hw : w.keepsCode = true)
    (h : (response c w).Joins (.list is) (.list js)) (ha : Response.code a = .ok c)
    (hb : Response.code b = .ok c) (hab : w.Joins a b) :
    (response c w).Joins (.list (Response.put c a is)) (.list (Response.put c b js)) := by
  obtain ⟨found, found', z₀, hfx, hfy, hzx, -, hput⟩ := (joins_response_iff hw).mp h
  obtain ⟨z, hza, hzb⟩ := hab
  have hcode := code_run_entry hw hfx hzx
  refine (joins_response_iff hw).mpr ⟨some a, some b, z, Response.found?_put hfx ha,
    Response.found?_put hfy hb, hza, hzb, ?_⟩
  have := congrArg (Response.put c z) hput
  rw [Response.put_put hcode, Response.put_put hcode] at this
  rw [Response.put_put ha, Response.put_put hb, this]

/-- Lists that are joined in the entry of one status code have equal entries of any other, and stay
joined if the same is written there. -/
theorem joins_response_put_of_ne (hw : w.keepsCode = true)
    (h : (response c w).Joins (.list is) (.list js)) (hc : c' ≠ c)
    (ha : Response.found? c' is = .ok (some a)) (hb : Response.found? c' js = .ok (some b)) :
    a = b ∧ ∀ v, Response.code v = .ok c' →
      (response c w).Joins (.list (Response.put c' v is)) (.list (Response.put c' v js)) := by
  obtain ⟨found, found', z, hfx, hfy, hzx, hzy, hput⟩ := (joins_response_iff hw).mp h
  have hcode := code_run_entry hw hfx hzx
  constructor
  · have hfound : Response.found? c' (Response.put c z is) = Response.found? c' is :=
      Response.found?_put_of_ne (Ne.symm hc) hcode
    rw [hput, Response.found?_put_of_ne (Ne.symm hc) hcode, ha, hb] at hfound
    exact (Option.some.inj (Except.ok.inj hfound)).symm
  · intro v hv
    refine (joins_response_iff hw).mpr ⟨found, found', z, ?_, ?_, hzx, hzy, ?_⟩
    · rwa [Response.found?_put_of_ne hc hv]
    · rwa [Response.found?_put_of_ne hc hv]
    · rw [← Response.put_comm hc hv hcode ha, hput, Response.put_comm hc hv hcode hb]

end Joins

/-- Two values that a write joins are still joined after another write whose place is there in
both. -/
theorem Joins.run (hp : Fits o p) (hq : Fits o q) (hx : Settled p x) (hy : Settled p y)
    (h : q.Joins x y) (hpx : p.run x = .ok x') (hpy : p.run y = .ok y') : q.Joins x' y' := by
  induction q generalizing o p x y x' y' with
  | keep =>
    obtain ⟨z, hqx, hqy⟩ := h
    cases hqx
    cases hqy
    rw [hpx, Except.ok.injEq] at hpy
    exact ⟨x', rfl, congrArg _ hpy.symm⟩
  | put v => exact ⟨v, rfl, rfl⟩
  | field k d q ih =>
    cases o with
    | object parts =>
      cases p with
      | keep =>
        cases hpx
        cases hpy
        exact h
      | field k' d' p =>
        obtain ⟨xs, a, a', rfl, hla, ha, hpa, rfl⟩ := exists_part_of_run hx hpx
        obtain ⟨ys, b, b', rfl, hlb, hb, hpb, rfl⟩ := exists_part_of_run hy hpy
        by_cases hk : k' = k
        · subst hk
          obtain ⟨z, hza, hzb, -⟩ := joins_field_iff.mp h
          rw [hla, Option.getD_some] at hza
          rw [hlb, Option.getD_some] at hzb
          exact joins_field_put_self h (ih hp.2 hq.2 ha hb ⟨z, hza, hzb⟩ hpa hpb)
        · -- the two differ only under `k`, so `p` writes the same into both
          obtain ⟨rfl, hjoins⟩ := joins_field_put_of_ne h hk hla hlb
          obtain rfl : a' = b' := Except.ok.inj (hpa.symm.trans hpb)
          exact hjoins a'
      | _ => cases hp
    | _ => cases hq
  | response c q ih =>
    cases o with
    | responses entry =>
      cases p with
      | keep =>
        cases hpx
        cases hpy
        exact h
      | response c' p =>
        obtain ⟨is, a, a', rfl, hfa, ha, hpa, hca, rfl⟩ := exists_entry_of_run hp.1 hx hpx
        obtain ⟨js, b, b', rfl, hfb, hb, hpb, hcb, rfl⟩ := exists_entry_of_run hp.1 hy hpy
        by_cases hc : c' = c
        · subst hc
          obtain ⟨fx, fy, z, hfx, hfy, hza, hzb, -⟩ := (joins_response_iff hq.1).mp h
          obtain rfl : some a = fx := Except.ok.inj (hfa.symm.trans hfx)
          obtain rfl : some b = fy := Except.ok.inj (hfb.symm.trans hfy)
          exact joins_response_put_self hq.1 h hca hcb
            (ih hp.2 hq.2 ha hb ⟨z, hza, hzb⟩ hpa hpb)
        · -- the two differ only in the entry of `c`, so `p` writes the same into both
          obtain ⟨rfl, hjoins⟩ := joins_response_put_of_ne hq.1 h hc hfa hfb
          obtain rfl : a' = b' := Except.ok.inj (hpa.symm.trans hpb)
          exact hjoins a' hca
      | _ => cases hp
    | _ => cases hq

end Write
end GatewayDocs
