import GatewayDocs.Proofs.Write
import Mathlib.Data.List.Induction

/-! # Writes carried out again

A sequence of writes that fit one outline, carried out again on what it has led to, changes
nothing (`runAll_again`).  That is not because each write by itself would find its value in
place: single writes of the sequence may put other values in between.  But the place of every
write is there after the first time, and then a write whose effect the last write hides stays
hidden (`Joins.runAll`).

Writes into one part of a value are the writes of the part (`runAll_map_field`,
`runAll_map_response`). -/

namespace GatewayDocs.Write

variable {o : Outline} {q w : Write} {ws vs : List Write} {u v x y z x' d : Value} {k c : String}

/-- Carries out writes, one after the other. -/
def runAll (ws : List Write) (v : Value) : Result Value := ws.foldlM (fun v w => w.run v) v

theorem runAll_nil : runAll [] v = .ok v := rfl

theorem runAll_cons_iff : runAll (w :: ws) v = .ok u ↔ ∃ x, w.run v = .ok x ∧ runAll ws x = .ok u :=
  Result.bind_eq_ok

theorem runAll_append_iff :
    runAll (vs ++ ws) v = .ok u ↔ ∃ x, runAll vs v = .ok x ∧ runAll ws x = .ok u := by
  rw [runAll, List.foldlM_append]
  exact Result.bind_eq_ok

theorem runAll_singleton : runAll [w] v = w.run v := by
  rw [runAll, List.foldlM_cons]
  exact bind_pure _

/-- Writes keep a value clear. -/
theorem clear_runAll (hf : ∀ w ∈ ws, Fits o w) (hv : o.Clear v) (h : runAll ws v = .ok u) :
    o.Clear u := by
  induction ws generalizing v with
  | nil => exact Except.ok.inj h ▸ hv
  | cons w ws ih =>
    obtain ⟨x, hx, h⟩ := runAll_cons_iff.mp h
    exact ih (fun w hw => hf w (List.mem_cons_of_mem _ hw))
      (clear_run (hf w List.mem_cons_self) hv hx) h

theorem settled_of_runAll (hf : ∀ w ∈ ws, Fits o w) (hq : Fits o q) (hs : Settled q v)
    (h : runAll ws v = .ok u) : Settled q u := by
  induction ws generalizing v with
  | nil => exact Except.ok.inj h ▸ hs
  | cons w ws ih =>
    obtain ⟨x, hx, h⟩ := runAll_cons_iff.mp h
    exact ih (fun w hw => hf w (List.mem_cons_of_mem _ hw))
      (settled_of_run hq (hf w List.mem_cons_self) hs hx) h

/-- Writes make their places. -/
theorem settled_runAll (hf : ∀ w ∈ ws, Fits o w) (h : runAll ws v = .ok u) :
    ∀ w ∈ ws, Settled w u := by
  induction ws generalizing v with
  | nil => intro w hw; cases hw
  | cons w ws ih =>
    obtain ⟨x, hx, hrest⟩ := runAll_cons_iff.mp h
    have hws : ∀ w ∈ ws, Fits o w := fun w hw => hf w (List.mem_cons_of_mem _ hw)
    have hw := hf w List.mem_cons_self
    intro p hp
    rcases List.mem_cons.mp hp with rfl | hp
    · exact settled_of_runAll hws hw (settled_run hw hx) hrest
    · exact ih hws hrest p hp

/-- Two values that a write joins are still joined after other writes whose places are there in
both. -/
theorem Joins.runAll (hf : ∀ w ∈ ws, Fits o w) (hq : Fits o q) (hx : ∀ w ∈ ws, Settled w x)
    (hy : ∀ w ∈ ws, Settled w y) (hxy : q.Joins x y) (h : runAll ws x = .ok x') :
    ∃ y', Write.runAll ws y = .ok y' ∧ q.Joins x' y' := by
  induction ws generalizing x y with
  | nil => exact ⟨y, rfl, Except.ok.inj h ▸ hxy⟩
  | cons p ws ih =>
    obtain ⟨x₁, hx₁, h⟩ := runAll_cons_iff.mp h
    have hp := hf p List.mem_cons_self
    have hws : ∀ w ∈ ws, Fits o w := fun w hw => hf w (List.mem_cons_of_mem _ hw)
    obtain ⟨y₁, hy₁⟩ := run_of_settled (hy p List.mem_cons_self)
    have hxy₁ := hxy.run hp hq (hx p List.mem_cons_self) (hy p List.mem_cons_self) hx₁ hy₁
    obtain ⟨y', hy', hjoins⟩ := ih hws
      (fun w hw => settled_of_run (hws w hw) hp (hx w (List.mem_cons_of_mem _ hw)) hx₁)
      (fun w hw => settled_of_run (hws w hw) hp (hy w (List.mem_cons_of_mem _ hw)) hy₁) hxy₁ h
    exact ⟨y', runAll_cons_iff.mpr ⟨y₁, hy₁, hy'⟩, hjoins⟩

/-- **Writes carried out twice are carried out once.** -/
theorem runAll_again (hf : ∀ w ∈ ws, Fits o w) (h : runAll ws v = .ok u) :
    runAll ws u = .ok u := by
  induction ws using List.reverseRecOn generalizing v u with
  | nil => rfl
  | append_singleton ws q ih =>
    -- what the earlier writes lead to is a fixed point of them, and the last write makes it `u`
    obtain ⟨t, ht, hq⟩ := runAll_append_iff.mp h
    rw [runAll_singleton] at hq
    have hws : ∀ w ∈ ws, Fits o w := fun w hw => hf w (List.mem_append_left _ hw)
    have hfq : Fits o q := hf q (List.mem_append_right _ (List.mem_singleton_self q))
    have hst := settled_runAll hws ht
    have hsu : ∀ w ∈ ws, Settled w u := fun w hw => settled_of_run (hws w hw) hfq (hst w hw) hq
    have htu : q.Joins t u := ⟨u, hq, run_run hfq hq⟩
    obtain ⟨y, hy, z, hz, hqy⟩ := htu.runAll hws hfq hst hsu (ih hws ht)
    obtain rfl : u = z := Except.ok.inj (hq.symm.trans hz)
    refine runAll_append_iff.mpr ⟨y, hy, ?_⟩
    rw [runAll_singleton]
    exact hqy

/-! ### Writes into one part -/

theorem exists_object_of_runAll (hne : ws ≠ []) (hw : ∀ w ∈ ws, ∃ k d p, w = field k d p)
    (h : runAll ws v = .ok u) : ∃ fs, v = .object fs := by
  cases ws with
  | nil => exact absurd rfl hne
  | cons w ws =>
    obtain ⟨k, d, p, rfl⟩ := hw w List.mem_cons_self
    obtain ⟨x, hx, -⟩ := runAll_cons_iff.mp h
    obtain ⟨fs, -, rfl, -, -⟩ := run_field_iff.mp hx
    exact ⟨fs, rfl⟩

/-- Writes into the part under one key are the writes of the part. -/
theorem runAll_map_field (hne : ws ≠ []) : runAll (ws.map (field k d)) v = .ok u ↔
    ∃ fs x, v = .object fs ∧ runAll ws ((Pairs.lookup (.str k) fs).getD d) = .ok x ∧
      u = .object (Pairs.put (.str k) x fs) := by
  induction ws generalizing v with
  | nil => exact absurd rfl hne
  | cons w ws ih =>
    rw [List.map_cons, runAll_cons_iff]
    -- no writes ask for no object, so the last write is a case of its own
    rcases eq_or_ne ws [] with rfl | hws
    · simp only [List.map_nil, runAll_nil, runAll_singleton, Except.ok.injEq, exists_eq_right]
      exact run_field_iff
    · constructor
      · rintro ⟨t, ht, h⟩
        obtain ⟨fs, x, rfl, hx, rfl⟩ := run_field_iff.mp ht
        obtain ⟨_, y, he, hy, rfl⟩ := (ih hws).mp h
        cases he
        rw [Pairs.lookup_put_self, Option.getD_some] at hy
        exact ⟨fs, y, rfl, runAll_cons_iff.mpr ⟨x, hx, hy⟩, by rw [Pairs.put_put_self]⟩
      · rintro ⟨fs, y, rfl, hy, rfl⟩
        obtain ⟨x, hx, hy⟩ := runAll_cons_iff.mp hy
        refine ⟨_, run_field_iff.mpr ⟨fs, x, rfl, hx, rfl⟩, (ih hws).mpr ⟨_, y, rfl, ?_, ?_⟩⟩
        · rw [Pairs.lookup_put_self]
          exact hy
        · rw [Pairs.put_put_self]

/-- Writes into the entry of one status code are the writes of the entry. -/
theorem runAll_map_response (hne : ws ≠ []) (hk : ∀ w ∈ ws, w.keepsCode = true) :
    runAll (ws.map (response c)) v = .ok u ↔ ∃ items found x, v = .list items ∧
      Response.found? c items = .ok found ∧
      runAll ws (found.getD (Response.new c)) = .ok x ∧ u = .list (Response.put c x items) := by
  induction ws generalizing v with
  | nil => exact absurd rfl hne
  | cons w ws ih =>
    have hkw := hk w List.mem_cons_self
    have hkws : ∀ w ∈ ws, w.keepsCode = true := fun w hw => hk w (List.mem_cons_of_mem _ hw)
    rw [List.map_cons, runAll_cons_iff]
    rcases eq_or_ne ws [] with rfl | hws
    · simp only [List.map_nil, runAll_nil, runAll_singleton, Except.ok.injEq, exists_eq_right]
      exact run_response_iff
    · constructor
      · rintro ⟨t, ht, h⟩
        obtain ⟨items, found, x, rfl, hfound, hx, rfl⟩ := run_response_iff.mp ht
        have hcode := code_run_entry hkw hfound hx
        obtain ⟨_, found', y, he, hfound', hy, rfl⟩ := (ih hws hkws).mp h
        cases he
        rw [Response.found?_put hfound hcode, Except.ok.injEq] at hfound'
        subst hfound'
        exact ⟨items, found, y, rfl, hfound, runAll_cons_iff.mpr ⟨x, hx, hy⟩,
          by rw [Response.put_put hcode]⟩
      · rintro ⟨items, found, y, rfl, hfound, hy, rfl⟩
        obtain ⟨x, hx, hy⟩ := runAll_cons_iff.mp hy
        have hcode := code_run_entry hkw hfound hx
        exact ⟨_, run_response_iff.mpr ⟨items, found, x, rfl, hfound, hx, rfl⟩,
          (ih hws hkws).mpr ⟨_, some x, y, rfl, Response.found?_put hfound hcode, hy,
            by rw [Response.put_put hcode]⟩⟩

end GatewayDocs.Write
