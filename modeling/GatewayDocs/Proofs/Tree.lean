import GatewayDocs.Files.Loading
import GatewayDocs.Proofs.Edit

/-! # What writing keeps of a file tree

A node that is written is there afterwards, and all other places are as they were
(`FileTree.get?_put`).  Making directories only adds directories where nothing was
(`FileTree.Extends`), whether it succeeds or not (`extends_makeAll`), and writing a file changes
its own place alone (`FileTree.ChangesAt`); what one step after the other changes is at the places
of either (`FileTree.ChangesOnly.trans`).  Neither takes a directory away, so a path that leads
to a place leads there for good (`FileTree.place_of_keeps`). -/

namespace GatewayDocs.FileTree
variable {t u v : FileTree} {p : Path} {place q here there : Place} {node : FileNode}
  {bytes : ByteArray} {name : String}

/-! ### Nodes -/

theorem lookup_putNode (place q : Place) (node : FileNode) (nodes : List (Place × FileNode)) :
    (putNode place node nodes).lookup q = if q = place then some node else nodes.lookup q := by
  induction nodes with
  | nil =>
    rw [putNode, List.lookup_cons, List.lookup_nil]
    by_cases hq : q = place
    · rw [if_pos hq, hq, beq_self_eq_true]
    · rw [if_neg hq, beq_false_of_ne hq]
  | cons pn nodes ih =>
    obtain ⟨r, n⟩ := pn
    rw [putNode]
    by_cases hr : r = place
    · rw [if_pos hr, List.lookup_cons, List.lookup_cons, hr]
      by_cases hq : q = place
      · rw [if_pos hq, hq, beq_self_eq_true]
      · rw [if_neg hq, beq_false_of_ne hq]
    · rw [if_neg hr, List.lookup_cons, List.lookup_cons, ih]
      by_cases hq : q = r
      · subst hq
        rw [beq_self_eq_true, if_neg hr]
        exact (if_neg hr).symm
      · rw [beq_false_of_ne hq]

/-- A node that is written is there, and what is at other places stays. -/
theorem get?_put (h : around place = false) (q : Place) :
    (t.put place node).get? q = if q = place then some node else t.get? q := by
  unfold get? put
  rw [lookup_putNode]
  by_cases hq : q = place
  · subst hq
    rw [if_pos rfl, h, if_neg Bool.false_ne_true]
    exact (if_pos rfl).symm
  · rw [if_neg hq, if_neg hq]

theorem get?_put_self (h : around place = false) : (t.put place node).get? place = some node := by
  rw [get?_put h, if_pos rfl]

/-- What is no directory is neither the working directory nor one around it. -/
theorem around_of_ne_directory (h : t.get? place ≠ some .directory) : around place = false := by
  refine Bool.eq_false_iff.mpr fun haround => h ?_
  rw [get?, if_pos haround]

/-! ### Paths -/

/-- Whether all directories of a tree are directories of another one. -/
def KeepsDirectories (t u : FileTree) : Prop :=
  ∀ q, t.get? q = some .directory → u.get? q = some .directory

/-- Steps are taken from directories. -/
theorem directory_of_step (h : t.step here name = .ok there) : t.get? here = some .directory := by
  unfold step at h
  split at h
  · cases h
  · cases h
  · assumption

theorem step_of_keeps (hkeeps : KeepsDirectories t u) (h : t.step here name = .ok there) :
    u.step here name = .ok there := by
  have hhere := directory_of_step h
  unfold step at h ⊢
  rw [hhere] at h
  rw [hkeeps here hhere]
  exact h

/-- A path leads to the same place as long as directories are kept. -/
theorem place_of_keeps (hkeeps : KeepsDirectories t u) (h : t.place p = .ok place) :
    u.place p = .ok place := by
  unfold FileTree.place at h ⊢
  split
  · rename_i hlong
    rw [if_pos hlong] at h
    cases h
  · rename_i hlong
    rw [if_neg hlong] at h
    generalize (if p.root = "" then [] else root) = start at h ⊢
    generalize p.parts = names at h ⊢
    induction names generalizing start with
    | nil => exact h
    | cons name names ih =>
      rw [List.foldlM_cons] at h ⊢
      obtain ⟨here, hstep, hrest⟩ := Result.bind_eq_ok.mp h
      rw [step_of_keeps hkeeps hstep]
      exact ih here hrest

/-! ### Directories that are made -/

/-- Whether a tree is as another one but at some places, with further directories. -/
def ChangesOnly (places : List Place) (t u : FileTree) : Prop :=
  ∀ q ∉ places, u.get? q = t.get? q ∨ t.get? q = none ∧ u.get? q = some .directory

theorem ChangesOnly.trans {places places' : List Place} (htu : ChangesOnly places t u)
    (huv : ChangesOnly places' u v) : ChangesOnly (places ++ places') t v := by
  intro q hq
  obtain ⟨hfirst, hsecond⟩ := not_or.mp (mt List.mem_append.mpr hq)
  obtain hsame | ⟨hnone, hdirectory⟩ := huv q hsecond
  · rw [hsame]
    exact htu q hfirst
  · obtain htu | ⟨-, hnew⟩ := htu q hfirst
    · exact .inr ⟨htu ▸ hnone, hdirectory⟩
    · cases hnone.symm.trans hnew

/-- Whether a tree is as another one, with further directories. -/
def Extends (t u : FileTree) : Prop := ChangesOnly [] t u

theorem Extends.refl (t : FileTree) : Extends t t := fun _ _ => .inl rfl

theorem Extends.trans (htu : Extends t u) (huv : Extends u v) : Extends t v :=
  ChangesOnly.trans htu huv

theorem Extends.keepsDirectories (h : Extends t u) : KeepsDirectories t u := by
  intro q hq
  obtain hsame | ⟨hnone, -⟩ := h q List.not_mem_nil
  · exact hsame.trans hq
  · cases hnone.symm.trans hq

theorem extends_makeOne (h : t.makeOne p = .ok u) : Extends t u := by
  obtain ⟨place, -, h⟩ := Result.bind_eq_ok.mp h
  dsimp only at h
  split at h
  · cases h
  · rename_i hnone
    cases h
    have hfree : t.get? place = none := by
      rwa [Option.isSome_iff_ne_none, not_not] at hnone
    have haround : around place = false := around_of_ne_directory (by rw [hfree]; simp)
    intro q _
    rw [get?_put haround]
    by_cases hq : q = place
    · exact .inr ⟨hq ▸ hfree, if_pos hq⟩
    · exact .inl (if_neg hq)

theorem extends_ensureOne (h : t.ensureOne p = .ok u) : Extends t u := by
  unfold ensureOne at h
  split at h
  · rename_i hmade
    cases h
    exact extends_makeOne hmade
  · split at h
    · cases h
      exact Extends.refl t
    · cases h

/-- Directories are only added, also if one of them cannot be made. -/
theorem extends_makeAll (root : String) (reversed : List String) (t : FileTree) :
    Extends t (makeAll root reversed t).1 := by
  induction reversed with
  | nil =>
    unfold makeAll
    dsimp only
    split
    · exact extends_makeOne ‹_›
    · exact Extends.refl t
    · exact Extends.refl t
  | cons name outer ih =>
    unfold makeAll
    dsimp only
    split
    · exact extends_makeOne ‹_›
    · split
      · rename_i u hu
        rw [hu] at ih
        split
        · exact ih.trans (extends_ensureOne ‹_›)
        · exact ih
      · rename_i hfailed
        exact ih
    · exact Extends.refl t

theorem extends_makeParent (h : makeParent p t = .ok () u) : Extends t u := by
  obtain ⟨_, _, hchecked, hmake⟩ := Edit.bind_eq_ok.mp h
  rw [(Edit.ofResult_eq_ok.mp hchecked).2, Edit.bind_of_ok (Edit.get_apply t)] at hmake
  have hall := extends_makeAll p.root p.parent.parts.reverse t
  cases hmade : makeAll p.root p.parent.parts.reverse t with
  | mk v made =>
    rw [hmade] at hmake hall
    cases made with
    | ok _ =>
      cases hmake
      exact hall
    | error fault =>
      obtain ⟨_, _, -, hthrow⟩ := Edit.bind_eq_ok.mp hmake
      cases hthrow

theorem makeParent_of_makeAll (hcheck : checkPath p.parent = .ok ())
    (h : makeAll p.root p.parent.parts.reverse t = (u, .ok ())) : makeParent p t = .ok () u := by
  rw [makeParent, Edit.ofResult_bind_of_ok hcheck, Edit.bind_of_ok (Edit.get_apply t), h]
  rfl

/-- The directory of a path is made in one that is there. -/
theorem makeParent_of_makeOne (hcheck : checkPath p.parent = .ok ())
    (h : t.makeOne p.parent = .ok u) : makeParent p t = .ok () u := by
  refine makeParent_of_makeAll hcheck ?_
  have hparent : (⟨p.root, p.parent.parts⟩ : Path) = p.parent := rfl
  unfold makeAll
  dsimp only
  rw [List.reverse_reverse, hparent, h]

/-- Whether a tree is as another one, with further directories, but for a file at a place. -/
structure ChangesAt (place : Place) (bytes : ByteArray) (t u : FileTree) : Prop where
  file : u.get? place = some (.file bytes)
  before : t.get? place ≠ some .directory
  others : ChangesOnly [place] t u

theorem ChangesAt.keepsDirectories (h : ChangesAt place bytes t u) : KeepsDirectories t u := by
  intro q hq
  by_cases hplace : q = place
  · exact absurd (hplace ▸ hq) h.before
  · obtain hsame | ⟨hnone, -⟩ := h.others q (mt List.mem_singleton.mp hplace)
    · exact hsame.trans hq
    · cases hnone.symm.trans hq

/-- A file that is written changes its own place alone. -/
theorem exists_changesAt_of_save (h : save p bytes t = .ok () u) :
    ∃ place, checkPath p = .ok () ∧ t.place p = .ok place ∧ ChangesAt place bytes t u := by
  obtain ⟨_, _, hcheck, hwrite⟩ := Edit.bind_eq_ok.mp h
  obtain ⟨hcheck, hsame⟩ := Edit.ofResult_eq_ok.mp hcheck
  rw [hsame, Edit.bind_of_ok (Edit.get_apply t)] at hwrite
  cases hwritten : t.write p bytes with
  | error fault =>
    rw [hwritten] at hwrite
    cases hwrite
  | ok v =>
    rw [hwritten] at hwrite
    cases hwrite
    obtain ⟨place, hplace, hput⟩ := Result.bind_eq_ok.mp hwritten
    have hbefore : t.get? place ≠ some .directory := by
      intro hdirectory
      rw [hdirectory] at hput
      cases hput
    have hput : t.put place (.file bytes) = u := by
      split at hput
      · cases hput
      · exact Except.ok.inj hput
    have haround := around_of_ne_directory hbefore
    subst hput
    exact ⟨place, hcheck, hplace, get?_put_self haround, hbefore, fun q hq => .inl
      ((get?_put haround q).trans (if_neg (mt List.mem_singleton.mpr hq)))⟩

/-- Directories that were made before a file is written are further ones. -/
theorem ChangesAt.of_extends (htu : Extends t u) (h : ChangesAt place bytes u v) :
    ChangesAt place bytes t v where
  file := h.file
  before := fun hdirectory => h.before (htu.keepsDirectories place hdirectory)
  others := ChangesOnly.trans htu h.others

/-- A file is written if its path leads to a place without a directory. -/
theorem save_of_place (hcheck : checkPath p = .ok ()) (hplace : t.place p = .ok place)
    (hfree : t.get? place ≠ some .directory) :
    save p bytes t = .ok () (t.put place (.file bytes)) := by
  have hwrite : t.write p bytes = .ok (t.put place (.file bytes)) := by
    rw [FileTree.write, hplace, Result.ok_bind]
    split
    · exact absurd ‹_› hfree
    · rfl
  rw [save, Edit.ofResult_bind_of_ok hcheck, Edit.bind_of_ok (Edit.get_apply t), hwrite]
  rfl

end GatewayDocs.FileTree
