import GatewayDocs.Proofs.References
import GatewayDocs.Proofs.RoundTrip
import GatewayDocs.Proofs.Schemas
import GatewayDocs.Proofs.Stays

/-! # Values that JSON can say without loss

A value without loss is made of parts without loss (`Value.hereditary_lossless`), and what is made
of such parts by writing pairs (`Fields.Lossless.put`), by changing what is at a place
(`Value.Lossless.change`) or by replacing references (`Value.lossless_replaceRefs`) is without loss
again.  Nothing in it stands in several places (`Value.isPlain_of_lossless`), and its text is one
whose units make no pairs (`Value.unpaired_of_text`).  Whether a value is without loss can be
tested (`Value.isLossless_iff`). -/

namespace GatewayDocs
open GatewayDocs.Units

/-- Pairs that make an object without loss. -/
structure Fields.Lossless (fs : Fields) : Prop where
  keyed : Pairs.Keyed fs
  keys : ∀ s, .str s ∈ Pairs.keys fs → Unpaired s.toList
  values : ∀ kv ∈ fs, kv.2.Lossless

namespace Value
variable {v w x : Value} {items xs : List Value} {fs : Fields} {s key : String}

/-! ### Parts -/

theorem lossless_list : (list items).Lossless ↔ ∀ v ∈ items, v.Lossless :=
  ⟨fun h => by cases h; assumption, .list⟩

theorem lossless_object : (object fs).Lossless ↔ fs.Lossless :=
  ⟨fun h => by cases h with | object keyed keys values => exact ⟨keyed, keys, values⟩,
    fun h => .object h.keyed h.keys h.values⟩

theorem lossless_str : (str s).Lossless ↔ Unpaired s.toList :=
  ⟨fun h => by cases h; assumption, .str⟩

theorem isPlain_of_lossless (h : v.Lossless) : v.isPlain = true := by
  induction h with
  | list _ ih => exact isPlain_list.mpr ih
  | object keyed _ _ ih => exact isPlain_object.mpr ⟨keyed, ih⟩
  | _ => rfl

theorem isOpen_of_lossless (h : v.Lossless) : v.isOpen = true :=
  isOpen_of_isPlain (isPlain_of_lossless h)

theorem bare_of_lossless (h : v.Lossless) : v.bare = v := bare_of_isOpen (isOpen_of_lossless h)

theorem lossless_of_fields? (h : v.Lossless) (hfs : v.fields? = some fs) : fs.Lossless := by
  unfold fields? at hfs
  rw [bare_of_lossless h] at hfs
  cases v with
  | object gs =>
    cases hfs
    exact lossless_object.mp h
  | _ => cases hfs

theorem lossless_of_asObject (h : v.Lossless) (hfs : v.asObject = .ok fs) : fs.Lossless :=
  lossless_of_fields? h (asObject_eq_ok_iff.mp hfs)

/-- The parts of a value without loss are without loss. -/
theorem hereditary_lossless : Hereditary Lossless where
  items := fun {v items} hitems h => by
    unfold Shape.items? at hitems
    rw [bare_of_lossless h] at hitems
    cases h with
    | list h =>
      cases hitems
      exact h
    | _ => cases hitems
  fields := fun hfs h => (lossless_of_fields? h hfs).values

/-- What is met going through a value without loss is without loss. -/
theorem lossless_of_mem_members (h : v.Lossless) (hxs : v.members = .ok xs) (hx : x ∈ xs) :
    x.Lossless := by
  unfold members at hxs
  rw [bare_of_lossless h] at hxs
  cases h with
  | list h =>
    cases hxs
    exact h x hx
  | object keyed keys _ =>
    cases hxs
    obtain ⟨kv, hkv, rfl⟩ := List.mem_map.mp hx
    obtain ⟨s, hs⟩ := keyed.text kv.1 (List.mem_map_of_mem hkv)
    rw [hs]
    exact .str (keys s (hs ▸ List.mem_map_of_mem hkv))
  | str _ =>
    cases hxs
    obtain ⟨n, -, rfl⟩ := List.mem_map.mp hx
    exact .str (unpaired_ofCodes (.singleton n))
  | _ => cases hxs

/-! ### Copies -/

theorem copiedItems_eq (items : List Value) : copiedItems items = items.map copied := by
  induction items with
  | nil => rfl
  | cons v items ih => rw [copiedItems, ih, List.map_cons]

theorem copiedFields_eq (fields : Fields) :
    copiedFields fields = fields.map fun kv => (kv.1, copied kv.2) := by
  induction fields with
  | nil => rfl
  | cons kv fields ih => rw [copiedFields, ih, List.map_cons]

theorem copied_of_lossless (h : v.Lossless) : v.copied = v := by
  induction h with
  | list _ ih =>
    rw [copied, copiedItems_eq, List.map_congr_left ih, List.map_id']
  | object _ _ _ ih =>
    have hpairs : ∀ kv ∈ _, (kv.1, copied kv.2) = kv := fun kv hkv => by rw [ih kv hkv]
    rw [copied, copiedFields_eq, List.map_congr_left hpairs, List.map_id']
  | _ => rw [copied]

theorem lossless_copied (h : v.Lossless) : v.copied.Lossless := (copied_of_lossless h).symm ▸ h

end Value

/-! ### Pairs -/

namespace Fields.Lossless
variable {fs gs : Fields} {v : Value} {s : String} {k : Atom}

theorem nil : Fields.Lossless [] :=
  ⟨.nil, fun _ h => (nomatch h), List.forall_mem_nil _⟩

theorem cons (hs : .str s ∉ Pairs.keys fs) (hkey : Unpaired s.toList) (hv : v.Lossless)
    (h : fs.Lossless) : Fields.Lossless ((.str s, v) :: fs) := by
  refine ⟨Pairs.keyed_cons.mpr ⟨hs, h.keyed⟩, fun t ht => ?_, List.forall_mem_cons.mpr
    ⟨hv, h.values⟩⟩
  rcases List.mem_cons.mp ht with he | ht
  · exact Atom.str.inj he ▸ hkey
  · exact h.keys t ht

theorem append (h : fs.Lossless) (hg : gs.Lossless)
    (hne : ∀ k ∈ Pairs.keys fs, k ∉ Pairs.keys gs) : Fields.Lossless (fs ++ gs) where
  keyed := by
    refine ⟨?_, ?_⟩
    · rw [Pairs.keys_append]
      exact List.forall_mem_append.mpr ⟨h.keyed.text, hg.keyed.text⟩
    · rw [Pairs.keys_append]
      exact h.keyed.nodup.append hg.keyed.nodup hne
  keys := fun s hs => by
    rw [Pairs.keys_append] at hs
    exact (List.mem_append.mp hs).elim (h.keys s) (hg.keys s)
  values := List.forall_mem_append.mpr ⟨h.values, hg.values⟩

/-- Some of the pairs of an object without loss. -/
theorem sublist (h : fs.Lossless) (hsub : gs.Sublist fs) : gs.Lossless where
  keyed := h.keyed.sublist hsub
  keys := fun s hs => h.keys s ((hsub.map Prod.fst).subset hs)
  values := fun kv hkv => h.values kv (hsub.subset hkv)

theorem lookup (h : fs.Lossless) (hv : Pairs.lookup k fs = some v) : v.Lossless := by
  obtain ⟨l, hl⟩ := Pairs.mem_of_lookup_any hv
  exact h.values _ hl

theorem get? (h : fs.Lossless) (hv : fs.get? s = some v) : v.Lossless := h.lookup hv

theorem get (h : fs.Lossless) (key : String) : (fs.get key).Lossless := by
  unfold Fields.get
  cases hv : fs.get? key with
  | none => exact .null
  | some v => exact h.get? hv

/-- The keys of an object without loss are atoms without loss. -/
theorem key (h : fs.Lossless) (hk : k ∈ Pairs.keys fs) : (Value.atom k).Lossless := by
  obtain ⟨s, rfl⟩ := h.keyed.text k hk
  exact .str (h.keys s hk)

theorem values_put (h : fs.Lossless) (k : Atom) (hv : v.Lossless) :
    ∀ kv ∈ Pairs.put k v fs, kv.2.Lossless := fun kv hkv =>
  (Pairs.forall_put (K := fun _ => True) (fun kv hkv => ⟨trivial, h.values kv hkv⟩) trivial hv kv
    hkv).2

theorem put (h : fs.Lossless) (hs : Unpaired s.toList) (hv : v.Lossless) :
    (fs.put s v).Lossless := by
  refine ⟨h.keyed.put, fun t ht => ?_, h.values_put _ hv⟩
  rcases Pairs.mem_keys_put.mp ht with ht | he
  · exact h.keys t ht
  · exact Atom.str.inj he ▸ hs

/-- Another value for a key that is there. -/
theorem putPresent (h : fs.Lossless) (hk : Pairs.has k fs = true) (hv : v.Lossless) :
    Fields.Lossless (Pairs.put k v fs) := by
  have hkeys := Pairs.keys_put_of_has (v := v) hk
  refine ⟨⟨?_, ?_⟩, ?_, h.values_put k hv⟩
  · rw [hkeys]
    exact h.keyed.text
  · rw [hkeys]
    exact h.keyed.nodup
  · rw [hkeys]
    exact h.keys

theorem putAll (h : fs.Lossless) (hg : gs.Lossless) : Fields.Lossless (Pairs.putAll fs gs) := by
  induction gs generalizing fs with
  | nil => exact h
  | cons kv gs ih =>
    obtain ⟨k, v⟩ := kv
    obtain ⟨s, rfl⟩ := hg.keyed.text k List.mem_cons_self
    have hput := h.put (hg.keys s List.mem_cons_self) (hg.values _ List.mem_cons_self)
    exact ih hput (hg.sublist (List.sublist_cons_self _ _))

/-- Other values for the same keys. -/
theorem map (h : fs.Lossless) {f : Atom × Value → Value} (hf : ∀ kv ∈ fs, (f kv).Lossless) :
    Fields.Lossless (fs.map fun kv => (kv.1, f kv)) := by
  have hkeys : Pairs.keys (fs.map fun kv => (kv.1, f kv)) = Pairs.keys fs := by
    rw [Pairs.keys, List.map_map]
    rfl
  refine ⟨⟨?_, ?_⟩, ?_, List.forall_mem_map.mpr hf⟩
  · rw [hkeys]
    exact h.keyed.text
  · rw [hkeys]
    exact h.keyed.nodup
  · rw [hkeys]
    exact h.keys

end Fields.Lossless

namespace Value
variable {v w x restApi : Value} {items : List Value} {fs : Fields} {s key : String}
  {path : List Step} {step : Step} {f : Value → Value} {g : String → Option Value}

/-! ### A test -/

mutual

/-- Whether JSON can say a value without loss. -/
def isLossless : Value → Bool
  | .atom .null => true
  | .atom (.bool _) => true
  | .atom (.int _) => true
  | .atom (.str s) => decide (Unpaired s.toList)
  | .list items => areLossless items
  | .object fields => areLosslessFields fields
  | _ => false

/-- Whether JSON can say all items of a list without loss. -/
def areLossless : List Value → Bool
  | [] => true
  | v :: rest => isLossless v && areLossless rest

/-- Whether JSON can say pairs without loss. -/
def areLosslessFields : List (Atom × Value) → Bool
  | [] => true
  | (.str s, v) :: rest =>
    !Pairs.has (.str s) rest && decide (Unpaired s.toList) && isLossless v &&
      areLosslessFields rest
  | _ => false

end

mutual

theorem lossless_of_isLossless : (v : Value) → v.isLossless = true → v.Lossless
  | .atom .null, _ => .null
  | .atom (.bool b), _ => .bool b
  | .atom (.int n), _ => .int n
  | .atom (.str _), h => .str (of_decide_eq_true h)
  | .list items, h => .list (lossless_of_areLossless items h)
  | .object fields, h => lossless_object.mpr (lossless_of_areLosslessFields fields h)

theorem lossless_of_areLossless :
    (items : List Value) → areLossless items = true → ∀ v ∈ items, v.Lossless
  | [], _ => List.forall_mem_nil _
  | v :: rest, h => by
    obtain ⟨hv, hrest⟩ := Bool.and_eq_true_iff.mp h
    exact List.forall_mem_cons.mpr ⟨lossless_of_isLossless v hv, lossless_of_areLossless rest hrest⟩

theorem lossless_of_areLosslessFields :
    (fields : Fields) → areLosslessFields fields = true → fields.Lossless
  | [], _ => .nil
  | (.str s, v) :: rest, h => by
    obtain ⟨h, hrest⟩ := Bool.and_eq_true_iff.mp h
    obtain ⟨h, hv⟩ := Bool.and_eq_true_iff.mp h
    obtain ⟨hnew, hkey⟩ := Bool.and_eq_true_iff.mp h
    refine .cons ?_ (of_decide_eq_true hkey) (lossless_of_isLossless v hv)
      (lossless_of_areLosslessFields rest hrest)
    rwa [Bool.not_eq_true', Pairs.has_eq_false_iff] at hnew

end

theorem areLossless_of_forall (h : ∀ v ∈ items, isLossless v = true) :
    areLossless items = true := by
  induction items with
  | nil => rfl
  | cons v items ih =>
    obtain ⟨hv, hitems⟩ := List.forall_mem_cons.mp h
    exact Bool.and_eq_true_iff.mpr ⟨hv, ih hitems⟩

theorem areLosslessFields_of_keyed (hkeyed : Pairs.Keyed fs)
    (hkeys : ∀ s, .str s ∈ Pairs.keys fs → Unpaired s.toList)
    (h : ∀ kv ∈ fs, isLossless kv.2 = true) : areLosslessFields fs = true := by
  induction fs with
  | nil => rfl
  | cons kv fs ih =>
    obtain ⟨k, v⟩ := kv
    obtain ⟨s, rfl⟩ := hkeyed.text k List.mem_cons_self
    obtain ⟨hnew, hrest⟩ := Pairs.keyed_cons.mp hkeyed
    obtain ⟨hv, h⟩ := List.forall_mem_cons.mp h
    have hkey := hkeys s List.mem_cons_self
    have hall := ih hrest (fun t ht => hkeys t (List.mem_cons_of_mem _ ht)) h
    rw [areLosslessFields, Pairs.has_eq_false_iff.mpr hnew, decide_eq_true hkey, hv, hall]
    rfl

theorem isLossless_iff : v.isLossless = true ↔ v.Lossless := by
  refine ⟨lossless_of_isLossless v, fun h => ?_⟩
  induction h with
  | null => rfl
  | bool _ => rfl
  | int _ => rfl
  | str h => exact decide_eq_true h
  | list _ ih => exact areLossless_of_forall ih
  | object keyed keys _ ih => exact areLosslessFields_of_keyed keyed keys ih

instance : DecidablePred Lossless := fun _ => decidable_of_iff _ isLossless_iff

theorem lossless_fieldOrNull (h : v.Lossless) : (v.fieldOrNull key).Lossless :=
  hereditary_lossless.fieldOrNull .null h

/-- The pairs that there are. -/
theorem lossless_pairs (h : v.Lossless) : Fields.Lossless (v.fields?.getD []) := by
  cases hfs : v.fields? with
  | none => exact .nil
  | some fs => exact lossless_of_fields? h hfs

/-! ### Changes at a place -/

theorem label?_of_lossless (h : v.Lossless) : v.label? = none := by cases h <;> rfl

theorem lossless_part? (h : v.Lossless) (hx : v.part? step = some x) : x.Lossless := by
  unfold part? at hx
  rw [bare_of_lossless h] at hx
  split at hx
  · exact (lossless_object.mp h).lookup hx
  · exact lossless_list.mp h x (List.mem_of_getElem? hx)
  · cases hx

theorem lossless_putPart (h : v.Lossless) (hpart : v.part? step = some x) (hw : w.Lossless) :
    (v.putPart step w).Lossless := by
  unfold part? at hpart
  rw [bare_of_lossless h] at hpart
  split at hpart
  · refine lossless_object.mpr ((lossless_object.mp h).putPresent ?_ hw)
    rw [Pairs.has, hpart]
    rfl
  · rename_i items i
    exact lossless_list.mpr fun y hy => (List.mem_or_eq_of_mem_set hy).elim
      (lossless_list.mp h y) fun he => he ▸ hw
  · cases hpart

/-- A change at a place that keeps values without loss keeps the whole one. -/
theorem Lossless.change (h : v.Lossless) (hf : ∀ w : Value, w.Lossless → (f w).Lossless) :
    (v.change f path).Lossless := by
  induction path generalizing v with
  | nil =>
    rw [Value.change, inside_of_isOpen (isOpen_of_lossless h)]
    exact hf v h
  | cons step path ih =>
    rw [Value.change, inside_of_isOpen (isOpen_of_lossless h)]
    split
    · rename_i part hpart
      exact lossless_putPart h hpart (ih (lossless_part? h hpart))
    · exact h

theorem labelOn?_of_lossless (h : v.Lossless) : v.labelOn? path = none := by
  induction path generalizing v with
  | nil => exact label?_of_lossless h
  | cons step path ih =>
    rw [labelOn?, label?_of_lossless h]
    cases hpart : v.part? step with
    | none => rfl
    | some part =>
      rw [Option.bind_some, ih (lossless_part? h hpart)]
      rfl

/-! ### References -/

/-- A value whose references are replaced by values without loss is without loss. -/
theorem lossless_replaceRefs (hg : ∀ s x, Unpaired s.toList → g s = some x → x.Lossless)
    (h : v.Lossless) : (replaceRefs g v).Lossless := by
  induction h with
  | list _ ih =>
    rw [replaceRefs_list]
    exact .list (List.forall_mem_map.mpr ih)
  | @object fields keyed keys values ih =>
    rw [replaceRefs_object]
    refine lossless_object.mpr (Fields.Lossless.map ⟨keyed, keys, values⟩ fun kv hkv => ?_)
    split
    · rename_i s htext
      have hs : Unpaired s.toList :=
        lossless_str.mp (eq_str_of_refText? htext ▸ values kv hkv)
      cases hx : g s with
      | none => exact values kv hkv
      | some x => exact hg s x hs hx
    · exact ih kv hkv
  | null => rw [replaceRefs_leaf rfl]; exact .null
  | bool b => rw [replaceRefs_leaf rfl]; exact .bool b
  | int n => rw [replaceRefs_leaf rfl]; exact .int n
  | str hs => rw [replaceRefs_leaf rfl]; exact .str hs

theorem unpaired_of_mem_refTexts (h : v.Lossless) (hs : s ∈ refTexts v) : Unpaired s.toList := by
  induction h with
  | list _ ih =>
    obtain ⟨v, hv, hs⟩ := mem_refTexts_list.mp hs
    exact ih v hv hs
  | object _ _ values ih =>
    obtain ⟨kv, hkv, htext | hs⟩ := mem_refTexts_object.mp hs
    · exact lossless_str.mp (eq_str_of_refText? htext ▸ values kv hkv)
    · exact ih kv hkv hs
  | _ =>
    rw [refTexts_leaf rfl] at hs
    cases hs

/-! ### Texts -/

theorem clear_between {opening closing : String} {parts : List String}
    (hopening : Clear opening.toList) (hclosing : Clear closing.toList)
    (h : ∀ part ∈ parts, Clear part.toList) : Clear (between opening closing parts).toList := by
  have hsep : Clear ", ".toList := by decide
  rw [between, String.toList_append, String.toList_append, String.toList_intercalate]
  exact (hopening.append (forall_mem_intercalate hsep (List.forall_mem_map.mpr h))).append hclosing

theorem quotedItems_eq (around : Around) (items : List Value) :
    quotedItems around items = items.map (quotedIn around) := by
  induction items with
  | nil => rfl
  | cons v items ih => rw [quotedItems, ih, List.map_cons]

theorem quotedFields_eq (around : Around) (fields : Fields) :
    quotedFields around fields =
      fields.map fun kv => kv.1.quoted ++ ": " ++ quotedIn around kv.2 := by
  induction fields with
  | nil => rfl
  | cons kv fields ih => rw [quotedFields, ih, List.map_cons]

theorem clear_quotedIn (h : v.Lossless) (around : Around) : Clear (v.quotedIn around).toList := by
  induction h with
  | null =>
    rw [quotedIn, Atom.quoted]
    decide
  | bool b =>
    rw [quotedIn, Atom.quoted]
    cases b
    all_goals decide
  | int n => exact Text.clear_intText n
  | str _ => exact Text.clear_quoted _
  | list _ ih =>
    rw [quotedIn, quotedItems_eq]
    exact clear_between (by decide) (by decide)
      (List.forall_mem_map.mpr ih)
  | object keyed _ _ ih =>
    rw [quotedIn, quotedFields_eq]
    refine clear_between (by decide) (by decide)
      (List.forall_mem_map.mpr fun kv hkv => ?_)
    obtain ⟨s, hs⟩ := keyed.text kv.1 (List.mem_map_of_mem hkv)
    rw [hs, String.toList_append, String.toList_append]
    exact ((Text.clear_quoted s).append (by decide)).append (ih kv hkv)

theorem unpaired_spelled (h : v.Lossless) : Unpaired v.spelled.toList := by
  cases h with
  | str hs => exact hs
  | null => exact (clear_quotedIn .null []).unpaired
  | bool b => exact (clear_quotedIn (.bool b) []).unpaired
  | int n => exact (clear_quotedIn (.int n) []).unpaired
  | list h => exact (clear_quotedIn (.list h) []).unpaired
  | object keyed keys values => exact (clear_quotedIn (.object keyed keys values) []).unpaired

theorem unpaired_of_text (h : v.Lossless) (hs : v.text = .ok s) : Unpaired s.toList := by
  unfold text at hs
  split at hs
  · exact Except.ok.inj hs ▸ unpaired_spelled h
  · cases hs

end Value
end GatewayDocs
