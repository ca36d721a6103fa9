import GatewayDocs.Proofs.Slot
import GatewayDocs.Value.Basic
import Mathlib.Data.List.Nodup

/-! # Laws of pairs with text keys

Only a text is the same as a text, so among pairs with keys of any kind a text key is looked
up and written as in a finite map: what is written is found, writing elsewhere changes
nothing, and the order of the keys stays except that a new key comes last.

Pairs whose keys are distinct texts (`Pairs.Keyed`) are determined by their keys and by what
is found under each of them (`Keyed.ext`). -/

namespace GatewayDocs

@[simp] theorem Atom.same_text_iff {a : Atom} {s : String} :
    a.same (.str s) = true ↔ a = .str s := by
  cases a with
  | str t => simp
  | float x =>
    unfold Atom.same
    cases h : Decimal.wholeOf? x <;> simp [Atom.whole?, h]
  | _ => simp [Atom.same, Atom.whole?]

theorem Atom.same_text_eq_false {a : Atom} {s : String} (h : a ≠ .str s) :
    a.same (.str s) = false :=
  Bool.eq_false_iff.mpr (mt Atom.same_text_iff.mp h)

theorem Atom.text_same_iff {a : Atom} {s : String} : (Atom.str s).same a = true ↔ a = .str s := by
  cases a with
  | str t =>
    rw [same_text_iff, eq_comm]
  | float x =>
    unfold Atom.same
    cases h : Decimal.wholeOf? x <;> simp [Atom.whole?, h]
  | _ => simp [Atom.same, Atom.whole?]

theorem float_beq_self {x : Float} (h : x.isNaN = false) : (x == x) = true := by
  have hn : x.toModel.unpack.isNaN = false := h
  show (x.toModel.unpack.compare x.toModel.unpack == some .eq) = true
  cases hx : x.toModel.unpack with
  | notANumber =>
    rw [hx] at hn
    cases hn
  | infinity s => cases s <;> rfl
  | zero s => rfl
  | finite s m e hm =>
    have he : (compare e e).then (compare m m) = .eq := by
      have hexponents : compare e e = .eq := Std.ReflCmp.compare_self
      have hmantissas : compare m m = .eq := Std.ReflCmp.compare_self
      rw [hexponents, hmantissas]
      rfl
    cases s with
    | negative =>
      show (some ((compare e e).then (compare m m)).swap == some .eq) = true
      rw [he]
      rfl
    | positive =>
      show (some ((compare e e).then (compare m m)) == some .eq) = true
      rw [he]
      rfl

theorem Stamp.same_self (s : Stamp) : s.same s = true := by
  unfold same
  split <;> simp_all

theorem Atom.same_self (a : Atom) : a.same a = true := by
  unfold same
  cases hw : a.whole? with
  | some m => exact decide_eq_true rfl
  | none =>
    cases a with
    | null => rfl
    | bool b => cases hw
    | int n => cases hw
    | float x =>
      cases hn : x.isNaN with
      | false => exact Bool.or_eq_true_iff.mpr (.inl (float_beq_self hn))
      | true => simp only [hn, Bool.and_true, Bool.or_true]
    | str s => exact decide_eq_true rfl
    | stamp s => exact s.same_self
    | bytes bs => exact decide_eq_true rfl

namespace Pairs
variable {α : Type} {s t : String} {v w : α} {xs ys : List (Atom × α)}

/-- The keys of pairs, in order. -/
def keys (xs : List (Atom × α)) : List Atom := xs.map (·.1)

@[simp] theorem keys_nil : keys ([] : List (Atom × α)) = [] := rfl

@[simp] theorem keys_cons (k : Atom) (v : α) (xs : List (Atom × α)) :
    keys ((k, v) :: xs) = k :: keys xs := rfl

@[simp] theorem keys_append (xs ys : List (Atom × α)) : keys (xs ++ ys) = keys xs ++ keys ys :=
  List.map_append

/-! ### One key -/

theorem lookup_cons_self : lookup (.str s) ((.str s, v) :: xs) = some v := by
  simp [lookup]

theorem lookup_cons_of_ne {k : Atom} (h : k ≠ .str s) :
    lookup (.str s) ((k, v) :: xs) = lookup (.str s) xs := by
  simp [lookup, Atom.same_text_eq_false h]

theorem lookup_append (key : Atom) :
    lookup key (xs ++ ys) = (lookup key xs).or (lookup key ys) := by
  induction xs with
  | nil => rfl
  | cons kv xs ih =>
    obtain ⟨k, v⟩ := kv
    by_cases hk : k.same key = true
    · simp [lookup, hk]
    · simp [lookup, hk, ih]

/-- What is found under a key of changed values is the changed value. -/
theorem lookup_map {β : Type} (f : α → β) (k : Atom) (xs : List (Atom × α)) :
    lookup k (xs.map fun kv => (kv.1, f kv.2)) = (lookup k xs).map f := by
  induction xs with
  | nil => rfl
  | cons kv xs ih =>
    rw [List.map_cons, lookup, lookup, ih]
    split <;> rfl

theorem put_cons_self : put (.str s) v ((.str s, w) :: xs) = (.str s, v) :: xs := by
  simp [put]

theorem put_cons_of_ne {k : Atom} (h : k ≠ .str s) :
    put (.str s) v ((k, w) :: xs) = (k, w) :: put (.str s) v xs := by
  simp [put, Atom.same_text_eq_false h]

/-- Whether a pair has a text key. -/
def hasKey (s : String) (kv : Atom × α) : Bool := kv.1.same (.str s)

theorem hasKey_iff {kv : Atom × α} : hasKey s kv = true ↔ kv.1 = .str s := Atom.same_text_iff

theorem hasKey_self : hasKey s (Atom.str s, v) = true := hasKey_iff.mpr rfl

theorem hasKey_disjoint (h : s ≠ t) (kv : Atom × α) (hs : hasKey s kv = true) :
    hasKey t kv = false := by
  refine Atom.same_text_eq_false ?_
  rw [hasKey_iff.mp hs]
  exact fun he => h (Atom.str.inj he)

theorem lookup_eq_find? (xs : List (Atom × α)) :
    lookup (.str s) xs = (xs.find? (hasKey s)).map (·.2) := by
  induction xs with
  | nil => rfl
  | cons kv xs ih =>
    obtain ⟨k, v⟩ := kv
    by_cases hk : k = .str s
    · subst hk
      rw [lookup_cons_self, List.find?_cons_of_pos hasKey_self]
      rfl
    · rw [lookup_cons_of_ne hk, List.find?_cons_of_neg (mt hasKey_iff.mp hk), ih]

theorem find?_of_lookup (h : lookup (.str s) xs = some v) :
    xs.find? (hasKey s) = some (.str s, v) := by
  rw [lookup_eq_find?, Option.map_eq_some_iff] at h
  obtain ⟨⟨k, v'⟩, hf, rfl⟩ := h
  rw [hf, ← hasKey_iff.mp (List.find?_some hf)]

theorem put_eq_fill (v : α) (xs : List (Atom × α)) :
    put (.str s) v xs = Slot.fill (hasKey s) (.str s, v) xs := by
  induction xs with
  | nil => rfl
  | cons kw xs ih =>
    obtain ⟨k, w⟩ := kw
    by_cases hk : k = .str s
    · subst hk
      rw [put_cons_self, Slot.fill_cons_of_pos hasKey_self]
    · have hno : hasKey s (k, w) = false := Bool.eq_false_iff.mpr (mt hasKey_iff.mp hk)
      rw [put_cons_of_ne hk, Slot.fill_cons_of_neg hno, ih]

@[simp] theorem lookup_put_self : lookup (.str s) (put (.str s) v xs) = some v := by
  rw [lookup_eq_find?, put_eq_fill, Slot.find?_fill hasKey_self]
  rfl

/-- What is under a text stays when something is put under any other key. -/
theorem lookup_put_of_key_ne {k : Atom} (h : k ≠ .str s) :
    lookup (.str s) (put k v xs) = lookup (.str s) xs := by
  induction xs with
  | nil => rw [put, lookup_cons_of_ne h]
  | cons kw xs ih =>
    obtain ⟨l, w⟩ := kw
    by_cases hl : l = .str s
    · subst hl
      have hk : (Atom.str s).same k = false := Bool.eq_false_iff.mpr (mt Atom.text_same_iff.mp h)
      rw [put, hk, if_neg Bool.false_ne_true, lookup_cons_self, lookup_cons_self]
    · rw [put]
      split
      · rw [lookup_cons_of_ne hl, lookup_cons_of_ne hl]
      · rw [lookup_cons_of_ne hl, lookup_cons_of_ne hl, ih]

theorem lookup_put_of_ne (h : s ≠ t) :
    lookup (.str t) (put (.str s) v xs) = lookup (.str t) xs :=
  lookup_put_of_key_ne fun he => h (Atom.str.inj he)

theorem lookup_isSome_iff : (lookup (.str s) xs).isSome ↔ .str s ∈ keys xs := by
  induction xs with
  | nil => simp [lookup]
  | cons kw xs ih =>
    obtain ⟨k, w⟩ := kw
    by_cases hk : k = .str s
    · subst hk; simp [lookup_cons_self]
    · simp [lookup_cons_of_ne hk, ih, Ne.symm hk]

theorem lookup_eq_none_iff : lookup (.str s) xs = none ↔ .str s ∉ keys xs := by
  rw [← lookup_isSome_iff, Option.not_isSome_iff_eq_none]

theorem has_eq_false_iff : has (.str s) xs = false ↔ .str s ∉ keys xs := by
  rw [Bool.eq_false_iff, ne_eq, has, lookup_isSome_iff]

theorem mem_keys_of_lookup (h : lookup (.str s) xs = some v) : .str s ∈ keys xs :=
  lookup_isSome_iff.mp (by rw [h]; rfl)

theorem mem_of_lookup (h : lookup (.str s) xs = some v) : (.str s, v) ∈ xs := by
  induction xs with
  | nil => simp [lookup] at h
  | cons kw xs ih =>
    obtain ⟨k, w⟩ := kw
    by_cases hk : k = .str s
    · subst hk
      rw [lookup_cons_self] at h
      exact Option.some.inj h ▸ List.mem_cons_self
    · rw [lookup_cons_of_ne hk] at h
      exact List.mem_cons_of_mem _ (ih h)

/-- A new key comes last. -/
theorem put_of_lookup_eq_none (h : lookup (.str s) xs = none) :
    put (.str s) v xs = xs ++ [(.str s, v)] := by
  rw [lookup_eq_find?, Option.map_eq_none_iff] at h
  rw [put_eq_fill, Slot.fill_of_find?_eq_none h]

theorem put_of_not_mem (h : .str s ∉ keys xs) : put (.str s) v xs = xs ++ [(.str s, v)] :=
  put_of_lookup_eq_none (lookup_eq_none_iff.mpr h)

/-- A key of any kind has a value. -/
theorem has_of_mem_keys {k : Atom} (h : k ∈ keys xs) : has k xs = true := by
  induction xs with
  | nil => cases h
  | cons lw xs ih =>
    obtain ⟨l, w⟩ := lw
    unfold has lookup
    cases hs : l.same k with
    | true => rfl
    | false =>
      rcases List.mem_cons.mp h with rfl | h
      · rw [k.same_self] at hs
        cases hs
      · exact ih h

/-- The keys stay as they are when a present key is written. -/
theorem keys_put_of_has {k : Atom} (h : has k xs = true) : keys (put k v xs) = keys xs := by
  induction xs with
  | nil => cases h
  | cons lw xs ih =>
    obtain ⟨l, w⟩ := lw
    unfold has lookup at h
    unfold put
    cases hs : l.same k with
    | true => rfl
    | false =>
      rw [hs] at h
      exact congrArg (l :: ·) (ih h)

@[inherit_doc keys_put_of_has]
theorem keys_put_of_mem (h : .str s ∈ keys xs) : keys (put (.str s) v xs) = keys xs :=
  keys_put_of_has (has_of_mem_keys h)

theorem mem_keys_put {k : Atom} :
    k ∈ keys (put (.str s) v xs) ↔ k ∈ keys xs ∨ k = .str s := by
  by_cases h : .str s ∈ keys xs
  · rw [keys_put_of_mem h]
    exact ⟨Or.inl, fun hk => hk.elim id (fun he => he ▸ h)⟩
  · rw [put_of_not_mem h, keys_append]
    simp

/-- Writing what is there already changes nothing. -/
theorem put_of_lookup (h : lookup (.str s) xs = some v) : put (.str s) v xs = xs := by
  rw [put_eq_fill, Slot.fill_of_find?_eq_some (find?_of_lookup h)]

@[simp] theorem put_put_self : put (.str s) v (put (.str s) w xs) = put (.str s) v xs := by
  rw [put_eq_fill, put_eq_fill, put_eq_fill, Slot.fill_fill hasKey_self]

/-- A present key is written before or after any other key. -/
theorem put_comm (h : s ≠ t) (hs : (lookup (.str s) xs).isSome) :
    put (.str s) v (put (.str t) w xs) = put (.str t) w (put (.str s) v xs) := by
  rw [lookup_eq_find?, Option.isSome_map] at hs
  simp only [put_eq_fill]
  exact Slot.fill_comm hasKey_self hasKey_self (hasKey_disjoint h) hs

theorem putNew_eq_put :
    putNew (.str s) v xs = put (.str s) ((lookup (.str s) xs).getD v) xs := by
  unfold putNew has
  cases h : lookup (.str s) xs with
  | none => simpa using (put_of_lookup_eq_none h).symm
  | some w => simpa using (put_of_lookup h).symm

theorem putNew_of_has {k : Atom} (h : has k xs = true) : putNew k v xs = xs := if_pos h

theorem has_putNew : has (.str s) (putNew (.str s) v xs) = true := by
  rw [putNew_eq_put, has, lookup_put_self]
  rfl

/-! ### Many keys -/

@[simp] theorem putAll_nil : putAll xs [] = xs := rfl

@[simp] theorem putAll_cons (k : Atom) (v : α) (xs ys : List (Atom × α)) :
    putAll xs ((k, v) :: ys) = putAll (put k v xs) ys := rfl

theorem lookup_putAll_of_not_mem (h : .str s ∉ keys ys) :
    lookup (.str s) (putAll xs ys) = lookup (.str s) xs := by
  induction ys generalizing xs with
  | nil => rfl
  | cons kv ys ih =>
    obtain ⟨k, v⟩ := kv
    rw [keys_cons, List.mem_cons, not_or] at h
    rw [putAll_cons, ih h.2, lookup_put_of_key_ne fun hk => h.1 hk.symm]

/-- Pairs with new keys that differ from each other are written at the end. -/
theorem putAll_of_fresh (hy : (keys ys).Pairwise fun a b => a.same b = false)
    (hxy : ∀ a ∈ keys xs, ∀ b ∈ keys ys, a.same b = false) : putAll xs ys = xs ++ ys := by
  induction ys generalizing xs with
  | nil => simp
  | cons kv ys ih =>
    obtain ⟨k, v⟩ := kv
    rw [keys_cons, List.pairwise_cons] at hy
    have hput : put k v xs = xs ++ [(k, v)] := by
      have hk : ∀ a ∈ keys xs, a.same k = false := fun a ha => hxy a ha k (by simp)
      clear hxy ih
      induction xs with
      | nil => rfl
      | cons lw xs ih =>
        obtain ⟨l, w⟩ := lw
        rw [put, hk l (by simp), ih fun a ha => hk a (List.mem_cons_of_mem _ ha)]
        rfl
    rw [putAll_cons, hput, ih hy.2, List.append_assoc, List.singleton_append]
    intro a ha b hb
    rw [keys_append, List.mem_append, keys_cons, keys_nil, List.mem_singleton] at ha
    rcases ha with ha | rfl
    · exact hxy a ha b (List.mem_cons_of_mem _ hb)
    · exact hy.1 b hb

/-! ### Distinct text keys -/

/-- The keys of pairs are distinct texts. -/
structure Keyed (xs : List (Atom × α)) : Prop where
  text : ∀ k ∈ keys xs, ∃ s, k = .str s
  nodup : (keys xs).Nodup

theorem Keyed.nil : Keyed ([] : List (Atom × α)) := ⟨by simp, List.nodup_nil⟩

/-- A key that is not there makes pairs with distinct text keys one more. -/
theorem keyed_cons : Keyed ((.str s, v) :: xs) ↔ .str s ∉ keys xs ∧ Keyed xs := by
  constructor
  · intro h
    exact ⟨(List.nodup_cons.mp h.nodup).1,
      fun k hk => h.text k (List.mem_cons_of_mem _ hk), (List.nodup_cons.mp h.nodup).2⟩
  · rintro ⟨hs, htext, hnodup⟩
    refine ⟨fun k hk => ?_, List.nodup_cons.mpr ⟨hs, hnodup⟩⟩
    rcases List.mem_cons.mp hk with rfl | hk
    · exact ⟨s, rfl⟩
    · exact htext k hk

theorem Keyed.tail {kv : Atom × α} (h : Keyed (kv :: xs)) : Keyed xs :=
  ⟨fun k hk => h.text k (List.mem_cons_of_mem _ hk), (List.nodup_cons.mp h.nodup).2⟩

/-- Some of the pairs with distinct text keys. -/
theorem Keyed.sublist (h : Keyed xs) (hsub : ys.Sublist xs) : Keyed ys :=
  ⟨fun k hk => h.text k ((hsub.map Prod.fst).subset hk), h.nodup.sublist (hsub.map Prod.fst)⟩

theorem Keyed.put (h : Keyed xs) : Keyed (put (.str s) v xs) := by
  by_cases hs : .str s ∈ keys xs
  · exact ⟨by rw [keys_put_of_mem hs]; exact h.text, by rw [keys_put_of_mem hs]; exact h.nodup⟩
  · refine ⟨fun k hk => ?_, ?_⟩
    · exact (mem_keys_put.mp hk).elim (h.text k) (fun he => ⟨s, he⟩)
    · rw [put_of_not_mem hs, keys_append]
      exact List.nodup_append.mpr ⟨h.nodup, List.nodup_singleton _, by
        intro a ha b hb he
        rw [keys_cons, keys_nil, List.mem_singleton] at hb
        exact hs (hb ▸ he ▸ ha)⟩

/-- Pairs that are written one after the other have distinct keys. -/
theorem Keyed.putAll (h : Keyed xs) (ht : ∀ kv ∈ ys, ∃ s, kv.1 = .str s) :
    Keyed (putAll xs ys) := by
  induction ys generalizing xs with
  | nil => exact h
  | cons kv ys ih =>
    obtain ⟨⟨s, hs⟩, htail⟩ := List.forall_mem_cons.mp ht
    obtain ⟨k, v⟩ := kv
    cases hs
    exact ih h.put htail

/-- Distinct texts that are no keys yet are written at the end. -/
theorem putAll_eq_append (hy : Keyed ys) (hxy : ∀ s, .str s ∈ keys ys → .str s ∉ keys xs) :
    putAll xs ys = xs ++ ys := by
  refine putAll_of_fresh ?_ ?_
  · refine hy.nodup.imp_of_mem fun {a b} _ hb hab => ?_
    obtain ⟨s, rfl⟩ := hy.text b hb
    exact Atom.same_text_eq_false hab
  · intro a ha b hb
    obtain ⟨s, rfl⟩ := hy.text b hb
    refine Atom.same_text_eq_false ?_
    rintro rfl
    exact hxy s hb ha

/-- What stands beside a key is found under it. -/
theorem Keyed.lookup_of_mem (h : Keyed xs) (hm : (.str s, v) ∈ xs) :
    lookup (.str s) xs = some v := by
  induction xs with
  | nil => cases hm
  | cons kw xs ih =>
    obtain ⟨k, w⟩ := kw
    rcases List.mem_cons.mp hm with he | hm'
    · cases he; exact lookup_cons_self
    · have hk : k ≠ .str s := by
        rintro rfl
        exact (List.nodup_cons.mp h.nodup).1 (List.mem_map.mpr ⟨_, hm', rfl⟩)
      rw [lookup_cons_of_ne hk, ih h.tail hm']

theorem Keyed.lookup_iff (h : Keyed xs) : lookup (.str s) xs = some v ↔ (.str s, v) ∈ xs :=
  ⟨mem_of_lookup, h.lookup_of_mem⟩

/-- Pairs with the same distinct text keys are equal if the same is found under each. -/
theorem Keyed.ext (hx : Keyed xs) (hk : keys xs = keys ys)
    (hl : ∀ s, .str s ∈ keys xs → lookup (.str s) xs = lookup (.str s) ys) : xs = ys := by
  induction xs generalizing ys with
  | nil => exact (List.map_eq_nil_iff.mp hk.symm).symm
  | cons kv xs ih =>
    obtain ⟨k, v⟩ := kv
    obtain ⟨s, rfl⟩ := hx.text k (by simp)
    cases ys with
    | nil => cases hk
    | cons lw ys =>
      obtain ⟨l, w⟩ := lw
      rw [keys_cons, keys_cons, List.cons.injEq] at hk
      obtain ⟨rfl, hk⟩ := hk
      have hvw := hl s (by simp)
      rw [lookup_cons_self, lookup_cons_self] at hvw
      rw [Option.some.inj hvw, ih hx.tail hk]
      intro t ht
      have hst : Atom.str s ≠ .str t := by
        intro he
        rw [← he] at ht
        exact (List.nodup_cons.mp hx.nodup).1 ht
      have := hl t (List.mem_cons_of_mem _ ht)
      rwa [lookup_cons_of_ne hst, lookup_cons_of_ne hst] at this

end Pairs
end GatewayDocs
