import GatewayDocs.Edit
import Mathlib.Data.List.Forall2

/-! # Running computations on a state

A sequence of computations runs the first and hands its state to the second, unless it fails
(`bind_apply`).  A sequence succeeds only if all of its parts do, each from the state that the
one before has reached (`bind_eq_ok`).

A computation `Keeps` a property of states if it ends in a state with the property whenever it
starts in one, successfully or not; it is enough that its parts do (`Keeps.bind`). -/

namespace GatewayDocs

section Forall
variable {α β : Type} {R : α → β → Prop} {xs : List α} {ys : List β} {x : α} {y : β}

/-- What corresponds to an item of the second of two lists. -/
theorem exists_of_forall₂_right (h : List.Forall₂ R xs ys) (hy : y ∈ ys) : ∃ x ∈ xs, R x y := by
  induction h with
  | nil => cases hy
  | cons hx _ ih =>
    rcases List.mem_cons.mp hy with rfl | hy
    · exact ⟨_, List.mem_cons_self, hx⟩
    · obtain ⟨x, hx, hR⟩ := ih hy
      exact ⟨x, List.mem_cons_of_mem _ hx, hR⟩

/-- What corresponds to an item of the first of two lists. -/
theorem exists_of_forall₂_left (h : List.Forall₂ R xs ys) (hx : x ∈ xs) : ∃ y ∈ ys, R x y :=
  exists_of_forall₂_right h.flip hx

end Forall

namespace Result
variable {α β : Type} {x : Result α} {b : β}

/-- A sequence has a result only if its parts do. -/
theorem bind_eq_ok {ε : Type} {x : Except ε α} {f : α → Except ε β} :
    x >>= f = .ok b ↔ ∃ a, x = .ok a ∧ f a = .ok b := by
  cases x with
  | ok a => exact ⟨fun h => ⟨a, rfl, h⟩, fun ⟨_, ha, h⟩ => Except.ok.inj ha ▸ h⟩
  | error e => exact ⟨fun h => (nomatch h), fun ⟨_, ha, _⟩ => (nomatch ha)⟩

theorem ok_bind {ε : Type} (a : α) (f : α → Except ε β) : (Except.ok a >>= f) = f a := rfl

theorem map_eq_ok {f : α → β} : x.map f = .ok b ↔ ∃ a, x = .ok a ∧ f a = b := by
  cases x with
  | ok a => exact ⟨fun h => ⟨a, rfl, Except.ok.inj h⟩, fun ⟨_, ha, h⟩ => Except.ok.inj ha ▸ h ▸ rfl⟩
  | error e => exact ⟨fun h => (nomatch h), fun ⟨_, ha, _⟩ => (nomatch ha)⟩

/-- A list has results only if each of its items has one. -/
theorem mapM_eq_ok {f : α → Result β} {xs : List α} {ys : List β} :
    xs.mapM f = .ok ys ↔ List.Forall₂ (fun x y => f x = .ok y) xs ys := by
  induction xs generalizing ys with
  | nil =>
    rw [List.mapM_nil, List.forall₂_nil_left_iff]
    exact ⟨fun h => (Except.ok.inj h).symm, fun h => h ▸ rfl⟩
  | cons x xs ih =>
    rw [List.mapM_cons, bind_eq_ok, List.forall₂_cons_left_iff]
    refine exists_congr fun y => ?_
    rw [bind_eq_ok]
    constructor
    · rintro ⟨hy, zs, hzs, h⟩
      exact ⟨zs, hy, ih.mp hzs, (Except.ok.inj h).symm⟩
    · rintro ⟨zs, hy, hzs, rfl⟩
      exact ⟨hy, zs, ih.mpr hzs, rfl⟩

theorem exists_of_mem_mapM {f : α → Result β} {xs : List α} {ys : List β}
    (h : xs.mapM f = .ok ys) {y : β} (hy : y ∈ ys) : ∃ x ∈ xs, f x = .ok y :=
  exists_of_forall₂_right (R := fun x y => f x = .ok y) (mapM_eq_ok.mp h) hy

/-- A list has results if each of its items has one, and what these have to do with the items they
have item by item. -/
theorem exists_mapM {f : α → Result β} {R : α → β → Prop} {xs : List α}
    (h : ∀ x ∈ xs, ∃ y, f x = .ok y ∧ R x y) : ∃ ys, xs.mapM f = .ok ys ∧ List.Forall₂ R xs ys := by
  induction xs with
  | nil => exact ⟨[], rfl, .nil⟩
  | cons x xs ih =>
    obtain ⟨y, hy, hxy⟩ := h x List.mem_cons_self
    obtain ⟨ys, hys, hall⟩ := ih fun x hx => h x (List.mem_cons_of_mem _ hx)
    exact ⟨y :: ys, mapM_eq_ok.mpr (.cons hy (mapM_eq_ok.mp hys)), .cons hxy hall⟩

end Result

namespace Edit
variable {σ τ α β : Type} {x : Edit σ α} {f : α → Edit σ β} {s t : σ} {b : β} {e : Failure}

theorem bind_apply (x : Edit σ α) (f : α → Edit σ β) (s : σ) :
    (x >>= f) s = match x s with
      | .ok a t => f a t
      | .error e t => .error e t := by
  show EStateM.bind x f s = _
  unfold EStateM.bind
  cases x s <;> rfl

@[simp] theorem pure_apply (a : α) (s : σ) : (pure a : Edit σ α) s = .ok a s := rfl

@[simp] theorem throw_apply (e : Failure) (s : σ) : (throw e : Edit σ α) s = .error e s := rfl

@[simp] theorem get_apply (s : σ) : (get : Edit σ σ) s = .ok s s := rfl

@[simp] theorem monadStateGet_apply (s : σ) : (MonadState.get : Edit σ σ) s = .ok s s := rfl

@[simp] theorem set_apply (s t : σ) : (set t : Edit σ Unit) s = .ok () t := rfl

@[simp] theorem modify_apply (f : σ → σ) (s : σ) : (modify f : Edit σ Unit) s = .ok () (f s) :=
  rfl

@[simp] theorem ofResult_ok (a : α) : (ofResult (.ok a) : Edit σ α) = pure a := rfl

@[simp] theorem ofResult_error (e : Failure) : (ofResult (.error e) : Edit σ α) = throw e := rfl

theorem ofResult_bind (r : Result α) (f : α → Result β) :
    (ofResult (r >>= f) : Edit σ β) = ofResult r >>= fun a => ofResult (f a) := by
  cases r with
  | ok a => rw [ofResult_ok, pure_bind]; rfl
  | error e => rfl

theorem bind_of_ok {a : α} (h : x s = .ok a t) : (x >>= f) s = f a t := by
  rw [bind_apply, h]

theorem bind_of_error (h : x s = .error e t) : (x >>= f) s = .error e t := by
  rw [bind_apply, h]

/-- A sequence succeeds only if its parts do. -/
theorem bind_eq_ok : (x >>= f) s = .ok b t ↔ ∃ a u, x s = .ok a u ∧ f a u = .ok b t := by
  rw [bind_apply]
  cases h : x s with
  | ok a u =>
    constructor
    · exact fun hf => ⟨a, u, rfl, hf⟩
    · rintro ⟨a', u', ha, hf⟩
      cases ha
      exact hf
  | error e u =>
    constructor
    · intro hf; cases hf
    · rintro ⟨a', u', ha, -⟩; cases ha

theorem ofResult_eq_ok {r : Result α} {a : α} :
    (ofResult r : Edit σ α) s = .ok a t ↔ r = .ok a ∧ t = s := by
  cases r with
  | ok a' =>
    rw [ofResult_ok, pure_apply, EStateM.Result.ok.injEq, Except.ok.injEq, eq_comm (a := t)]
  | error e =>
    rw [ofResult_error, throw_apply]
    exact ⟨fun h => (nomatch h), fun h => (nomatch h.1)⟩

theorem ofResult_eq_error {r : Result α} :
    (ofResult r : Edit σ α) s = .error e t ↔ r = .error e ∧ t = s := by
  cases r with
  | ok a =>
    rw [ofResult_ok, pure_apply]
    exact ⟨fun h => (nomatch h), fun h => (nomatch h.1)⟩
  | error e' =>
    rw [ofResult_error, throw_apply, EStateM.Result.error.injEq, Except.error.injEq,
      eq_comm (a := t)]

/-- A sequence that starts with a result succeeds only if the result is no failure. -/
theorem ofResult_bind_eq_ok {r : Result α} :
    (ofResult r >>= f) s = .ok b t ↔ ∃ a, r = .ok a ∧ f a s = .ok b t := by
  rw [bind_eq_ok]
  refine exists_congr fun a => ⟨?_, fun ⟨ha, hf⟩ => ⟨s, ofResult_eq_ok.mpr ⟨ha, rfl⟩, hf⟩⟩
  rintro ⟨u, hu, hf⟩
  obtain ⟨ha, rfl⟩ := ofResult_eq_ok.mp hu
  exact ⟨ha, hf⟩

theorem ofResult_bind_of_ok {r : Result α} {a : α} (h : r = .ok a) :
    (ofResult r >>= f) s = f a s := by
  rw [h, ofResult_ok, pure_bind]

theorem ofResult_bind_of_error {r : Result α} (h : r = .error e) :
    (ofResult r >>= f) s = .error e s := by
  rw [h]
  rfl

/-- A result that is no failure is handed on. -/
theorem outcome_of_ok {r : Result α} {a : α} (h : r = .ok a) :
    (ofResult r >>= f).outcome s = (f a).outcome s := by
  rw [h, ofResult_ok, pure_bind]

/-- A failure leaves the state as it is. -/
theorem outcome_of_error {r : Result α} (h : r = .error e) :
    (ofResult r >>= f).outcome s = (s, .error e) := by
  rw [h]
  rfl

/-- A sequence fails in its first part, or in its second one after the first succeeded. -/
theorem bind_eq_error : (x >>= f) s = .error e t ↔
    x s = .error e t ∨ ∃ a u, x s = .ok a u ∧ f a u = .error e t := by
  rw [bind_apply]
  cases h : x s with
  | ok a u =>
    constructor
    · exact fun hf => .inr ⟨a, u, rfl, hf⟩
    · rintro (hf | ⟨a', u', ha, hf⟩)
      · cases hf
      · cases ha
        exact hf
  | error e' u =>
    constructor
    · intro hf
      cases hf
      exact .inl rfl
    · rintro (hf | ⟨a', u', ha, -⟩)
      · cases hf
        rfl
      · cases ha

section Zoom
variable {part : τ} {rebuild : τ → σ} {edit : Edit τ α} {a : α}

theorem zoom_eq_ok : zoom part rebuild edit s = .ok a t ↔
    ∃ p, edit part = .ok a p ∧ t = rebuild p := by
  unfold zoom
  cases edit part with
  | ok b p =>
    constructor
    · intro h
      cases h
      exact ⟨p, rfl, rfl⟩
    · rintro ⟨_, h, rfl⟩
      cases h
      rfl
  | error e p => exact ⟨fun h => (nomatch h), fun ⟨_, h, _⟩ => (nomatch h)⟩

theorem zoom_eq_error : zoom part rebuild edit s = .error e t ↔
    ∃ p, edit part = .error e p ∧ t = rebuild p := by
  unfold zoom
  cases edit part with
  | ok b p => exact ⟨fun h => (nomatch h), fun ⟨_, h, _⟩ => (nomatch h)⟩
  | error f p =>
    constructor
    · intro h
      cases h
      exact ⟨p, rfl, rfl⟩
    · rintro ⟨_, h, rfl⟩
      cases h
      rfl

end Zoom

/-- What every step of a loop keeps of its result and of the state, the loop keeps. -/
theorem foldlM_keeps {I : β → σ → Prop} {f : β → α → Edit σ β} {xs : List α} {b b' : β}
    (h : ∀ {b a s b' s'}, I b s → a ∈ xs → f b a s = .ok b' s' → I b' s') (hb : I b s)
    (hf : xs.foldlM f b s = .ok b' t) : I b' t := by
  induction xs generalizing b s with
  | nil =>
    rw [List.foldlM_nil, pure_apply, EStateM.Result.ok.injEq] at hf
    exact hf.1 ▸ hf.2 ▸ hb
  | cons x xs ih =>
    rw [List.foldlM_cons, bind_eq_ok] at hf
    obtain ⟨b₁, s₁, h₁, hf⟩ := hf
    exact ih (fun hb ha => h hb (List.mem_cons_of_mem _ ha)) (h hb List.mem_cons_self h₁) hf

theorem pure_eq_ok {a a' : α} : (pure a : Edit σ α) s = .ok a' t ↔ a = a' ∧ s = t := by
  rw [pure_apply, EStateM.Result.ok.injEq]

/-! ### What is kept -/

/-- A computation ends in a state with a property if it starts in one. -/
def Keeps (I : σ → Prop) (x : Edit σ α) : Prop := ∀ s, I s → I (x.outcome s).1

variable {I : σ → Prop} {a : α}

theorem Keeps.of_ok (hx : x.Keeps I) (hs : I s) (h : x s = .ok a t) : I t := by
  have := hx s hs
  rwa [outcome, h] at this

theorem Keeps.of_error (hx : x.Keeps I) (hs : I s) (h : x s = .error e t) : I t := by
  have := hx s hs
  rwa [outcome, h] at this

theorem keeps_of (hok : ∀ {s a t}, I s → x s = .ok a t → I t)
    (herror : ∀ {s e t}, I s → x s = .error e t → I t) : x.Keeps I := fun s hs => by
  rw [outcome]
  split
  · exact hok hs ‹_›
  · exact herror hs ‹_›

theorem keeps_pure (a : α) : (pure a : Edit σ α).Keeps I := fun _ => id

theorem keeps_throw (e : Failure) : (throw e : Edit σ α).Keeps I := fun _ => id

theorem keeps_ofResult_bind {r : Result α} (hf : ∀ a, r = .ok a → (f a).Keeps I) :
    (ofResult r >>= f).Keeps I := by
  cases r with
  | ok a =>
    rw [ofResult_ok, pure_bind]
    exact hf a rfl
  | error e => exact keeps_throw e

/-- What follows may take for granted that it sees a state with the property. -/
theorem keeps_get_bind {f : σ → Edit σ β} (hf : ∀ s, I s → (f s).Keeps I) : (get >>= f).Keeps I :=
  fun s hs => hf s hs s hs

theorem keeps_modify {f : σ → σ} (hf : ∀ s, I s → I (f s)) : (modify f : Edit σ Unit).Keeps I :=
  fun s hs => hf s hs

/-- A computation on a part has a property of what is rebuilt from the part. -/
theorem keeps_zoom {part : τ} {rebuild : τ → σ} {edit : Edit τ α}
    (h : I (rebuild (edit.outcome part).1)) : (zoom part rebuild edit).Keeps I := fun s _ => by
  rw [outcome] at h
  rw [outcome, zoom]
  cases hp : edit part with
  | ok a p =>
    rw [hp] at h
    exact h
  | error e p =>
    rw [hp] at h
    exact h

theorem Keeps.bind (hx : x.Keeps I) (hf : ∀ a, (f a).Keeps I) : (x >>= f).Keeps I := by
  refine keeps_of (fun hs h => ?_) (fun hs h => ?_)
  · obtain ⟨a, u, ha, hb⟩ := bind_eq_ok.mp h
    exact (hf a).of_ok (hx.of_ok hs ha) hb
  · rcases bind_eq_error.mp h with ha | ⟨a, u, ha, hb⟩
    · exact hx.of_error hs ha
    · exact (hf a).of_error (hx.of_ok hs ha) hb

theorem Keeps.forM {f : α → Edit σ Unit} {xs : List α} (hf : ∀ a ∈ xs, (f a).Keeps I) :
    (xs.forM f).Keeps I := by
  induction xs with
  | nil => exact keeps_pure ()
  | cons a xs ih =>
    obtain ⟨ha, hxs⟩ := List.forall_mem_cons.mp hf
    exact ha.bind fun _ => ih hxs

end Edit
end GatewayDocs
