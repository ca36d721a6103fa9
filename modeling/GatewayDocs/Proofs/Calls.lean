import GatewayDocs.Proofs.Edit
import GatewayDocs.Publish

/-! # Calls that fail

A computation `Refines` another one if it ends as the other one does wherever it succeeds.  The
calls of a client that may fail refine those of the client itself (`Client.failing_refines`), and
so does every listing that makes them (`Listing.find_refines`, `Listing.items_refines`): what
succeeds although calls may fail ends as if none could.  A search makes only the calls of its
listing, so that it stays the same if only others fail (`Listing.find_congr`). -/

namespace GatewayDocs

variable {σ α β : Type}

namespace Edit

/-! ### Refinement -/

/-- One computation ends as another one does if it succeeds. -/
def Refines (x y : Edit σ α) : Prop := ∀ s a t, x s = .ok a t → y s = .ok a t

variable {x y : Edit σ α} {f g : α → Edit σ β}

theorem Refines.refl (x : Edit σ α) : x.Refines x := fun _ _ _ => id

theorem Refines.bind (hx : x.Refines y) (hf : ∀ a, (f a).Refines (g a)) :
    (x >>= f).Refines (y >>= g) := fun s b t h => by
  obtain ⟨a, u, ha, hb⟩ := bind_eq_ok.mp h
  exact bind_eq_ok.mpr ⟨a, u, hx s a u ha, hf a u b t hb⟩

theorem Refines.forM {f g : α → Edit σ Unit} (hf : ∀ a, (f a).Refines (g a)) (xs : List α) :
    (xs.forM f).Refines (xs.forM g) := by
  induction xs with
  | nil => exact .refl _
  | cons a xs ih => exact .bind (hf a) fun _ => ih

/-- A loop over a list. -/
theorem forIn_eq_forM (f : α → Edit σ Unit) (xs : List α) :
    (forIn xs PUnit.unit fun a _ => do f a; pure (.yield PUnit.unit)) = xs.forM f := by
  induction xs with
  | nil => rfl
  | cons a xs ih =>
    rw [List.forIn_cons]
    simp only [bind_assoc, pure_bind]
    rw [ih]
    rfl

end Edit

/-! ### Clients -/

namespace Client
variable {client : Client σ} {call : Call} {name : String} {failing? : Option String}

theorem recording_apply (r : Recorded σ) :
    client.recording call r = match client call r.state with
      | .ok a s => .ok a ⟨r.calls ++ [call], s⟩
      | .error e s => .error e ⟨r.calls ++ [call], s⟩ := by
  show Edit.zoom r.state (fun s => ⟨r.calls ++ [call], s⟩) (client call) r = _
  unfold Edit.zoom
  cases client call r.state <;> rfl

theorem failing_of_ne (h : failing? ≠ some call.name) :
    client.failing failing? call = client call := if_neg h

theorem failing_self : client.failing (some call.name) call = throw (.callFailed call.name) :=
  if_pos rfl

theorem recording_failing_of_ne (h : failing? ≠ some call.name) :
    (client.failing failing?).recording call = client.recording call := by
  funext r
  rw [recording_apply, recording_apply, failing_of_ne h]

/-- A call that does not fail is answered as if no call failed. -/
theorem failing_refines :
    ((client.failing failing?).recording call).Refines (client.recording call) := fun s a t h => by
  by_cases hname : failing? = some call.name
  · subst hname
    rw [recording_apply, failing_self] at h
    cases h
  · rwa [recording_failing_of_ne hname] at h

/-- A recorded call keeps what its answer keeps. -/
theorem keeps_recording {I : σ → Prop} (h : (client call).Keeps I) :
    ((client.failing failing?).recording call).Keeps fun r => I r.state := by
  intro r hr
  by_cases hname : failing? = some call.name
  · subst hname
    show I (Edit.outcome _ r).1.state
    rw [Edit.outcome, recording_apply, failing_self]
    exact hr
  · have hstate : ((client.recording call).outcome r).1.state =
        ((client call).outcome r.state).1 := by
      rw [Edit.outcome, Edit.outcome, recording_apply]
      cases client call r.state <;> rfl
    show I ((((client.failing failing?).recording call).outcome r).1.state)
    rw [recording_failing_of_ne hname, hstate]
    exact h r.state hr

end Client

/-! ### Listings and publications over a failing client -/

namespace Listing
variable {client c d : Client σ} {l : Listing} {look : Value → Result (Option α)} {pages : Nat}
  {I : σ → Prop} {failing? : Option String}

theorem call_name {call : Call} (h : l.call = .ok call) : call.name = l.name := by
  unfold Listing.call at h
  split at h
  · cases h
  · cases h
    rfl

/-- A search asks for nothing but pages of its listing. -/
theorem find_congr (h : ∀ call, call.name = l.name → c call = d call) :
    find c look pages l = find d look pages l := by
  induction pages generalizing l with
  | zero => rfl
  | succ pages ih =>
    rw [find, find]
    cases hcall : l.call with
    | error e => rfl
    | ok call =>
      have hnext : ∀ position, find c look pages (l.startingAt position) =
          find d look pages (l.startingAt position) := fun position =>
        ih (l := l.startingAt position) h
      simp only [Edit.ofResult_ok, pure_bind, h call (call_name hcall), hnext]

/-- A search whose listing fails makes one call. -/
theorem find_failing_self {call : Call} (hcall : l.call = .ok call) (r : Recorded σ)
    (look : Value → Result (Option α)) (pages : Nat) :
    find (client.failing (some l.name)).recording look (pages + 1) l r =
      .error (.callFailed l.name) ⟨r.calls ++ [call], r.state⟩ := by
  rw [find, hcall, Edit.ofResult_ok, pure_bind, ← call_name hcall]
  refine Edit.bind_of_error ?_
  rw [Client.recording_apply, Client.failing_self]
  rfl

theorem find_refines (h : ∀ call, (c call).Refines (d call)) :
    (find c look pages l).Refines (find d look pages l) := by
  induction pages generalizing l with
  | zero => exact .refl _
  | succ pages ih =>
    refine .bind (.refl _) fun call => .bind (h call) fun answer => .bind (.refl _) fun page =>
      .bind (.refl _) fun members => .bind (.refl _) fun found => ?_
    cases found with
    | some a => exact .refl _
    | none =>
      dsimp only
      split
      · exact ih
      · exact .refl _

theorem items_refines (h : ∀ call, (c call).Refines (d call)) :
    (items c pages l).Refines (items d pages l) := by
  induction pages generalizing l with
  | zero => exact .refl _
  | succ pages ih =>
    refine .bind (.refl _) fun call => .bind (h call) fun answer => .bind (.refl _) fun page =>
      .bind (.refl _) fun found => ?_
    dsimp only
    split
    · exact .bind ih fun _ => .refl _
    · exact .refl _

theorem keeps_find (h : ∀ call, call.name = l.name → (client call).Keeps I) :
    (find client look pages l).Keeps I := by
  induction pages generalizing l with
  | zero => exact Edit.keeps_throw _
  | succ pages ih =>
    refine Edit.keeps_ofResult_bind fun call hcall => (h call (call_name hcall)).bind fun answer =>
      Edit.keeps_ofResult_bind fun page _ => Edit.keeps_ofResult_bind fun members _ =>
        Edit.keeps_ofResult_bind fun found _ => ?_
    cases found with
    | some a => exact Edit.keeps_pure _
    | none =>
      dsimp only
      split
      · exact ih (l := l.startingAt _) h
      · exact Edit.keeps_pure _

theorem keeps_items (h : ∀ call, call.name = l.name → (client call).Keeps I) :
    (items client pages l).Keeps I := by
  induction pages generalizing l with
  | zero => exact Edit.keeps_throw _
  | succ pages ih =>
    refine Edit.keeps_ofResult_bind fun call hcall => (h call (call_name hcall)).bind fun answer =>
      Edit.keeps_ofResult_bind fun page _ => Edit.keeps_ofResult_bind fun found _ => ?_
    dsimp only
    split
    · exact (ih (l := l.startingAt _) h).bind fun _ => Edit.keeps_pure _
    · exact Edit.keeps_pure _

end Listing
end GatewayDocs
