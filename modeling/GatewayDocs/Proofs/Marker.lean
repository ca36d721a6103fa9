import GatewayDocs.Proofs.Units
import GatewayDocs.Swagger
import Mathlib.Data.List.TakeDrop
import Mathlib.Data.Nat.Find

/-! # Markers

A marker is an opening, white space, a name of word characters and hyphens, and a closing
(`MarkerIn`).  No character of a name is white space (`isBlank_of_isNameChar`) and none closes a
marker, so reading as far as possible is the only way to read one (`markerAt?_eq_some_iff`), and
the search goes through a text place by place: it finds the name that has least before it
(`modelNamed_first_marker`).  In particular a marker names the model that was put into it
(`modelNamed?_marker`). -/

namespace GatewayDocs

namespace Text
variable {rs ss : List (Nat × Nat)} {n : Nat} {c : Char}

/-- No range of one list meets a range of the other. -/
def apart (rs ss : List (Nat × Nat)) : Bool :=
  rs.all fun r => ss.all fun s => r.2 < s.1 || s.2 < r.1

theorem not_inRanges_of_apart (ha : apart rs ss = true) (hr : inRanges rs n = true) :
    inRanges ss n = false := by
  obtain ⟨r, hr, hn⟩ := List.any_eq_true.mp hr
  refine List.any_eq_false.mpr fun s hs => ?_
  have hrs := List.all_eq_true.mp (List.all_eq_true.mp ha r hr) s hs
  simp only [Bool.and_eq_true, Bool.or_eq_true, decide_eq_true_eq] at hn hrs ⊢
  omega

theorem apart_blank_word : apart blankRanges wordRanges = true := by decide +kernel

/-- A word character is not white space. -/
theorem isBlank_of_isWord (h : isWord c = true) : isBlank c = false := by
  by_cases hc : c.toNat < 0x80
  · have hascii : (!isWord c || !isBlank c) = true :=
      forall_ascii (p := fun c => !isWord c || !isBlank c) (by decide +kernel) hc
    rw [h] at hascii
    simpa using hascii
  · unfold isWord isMember at h
    unfold isBlank isMember
    rw [if_neg hc] at h ⊢
    refine Bool.eq_false_iff.mpr fun hb => ?_
    rw [not_inRanges_of_apart apart_blank_word hb] at h
    cases h

end Text

variable {c : Char} {cs before space name after before' space' name' after' : List Char} {i : Nat}

theorem isBlank_of_isNameChar (h : isNameChar c = true) : Text.isBlank c = false := by
  rcases Bool.or_eq_true_iff.mp h with hc | hc
  · rw [of_decide_eq_true hc]
    decide
  · exact Text.isBlank_of_isWord hc

/-! ### Markers in a text -/

/-- A text has a marker in it: there is white space and then a name between its opening and its
closing. -/
structure MarkerIn (cs before space name after : List Char) : Prop where
  text : cs = before ++ (markerOpening ++ (space ++ (name ++ (markerClosing ++ after))))
  blank : ∀ c ∈ space, Text.isBlank c = true
  nonempty : name ≠ []
  named : ∀ c ∈ name, isNameChar c = true

theorem MarkerIn.drop (h : MarkerIn cs before space name after) :
    MarkerIn (cs.drop before.length) [] space name after :=
  ⟨by rw [h.text, List.drop_left, List.nil_append], h.blank, h.nonempty, h.named⟩

theorem MarkerIn.isInfix (h : MarkerIn cs before space name after) : name <:+: cs :=
  ⟨before ++ markerOpening ++ space, markerClosing ++ after, by
    simp only [h.text, List.append_assoc]⟩

/-- The white space before a name is all that is skipped. -/
theorem dropWhile_isBlank (hs : ∀ c ∈ space, Text.isBlank c = true) (hne : name ≠ [])
    (hn : ∀ c ∈ name, isNameChar c = true) :
    (space ++ (name ++ after)).dropWhile Text.isBlank = name ++ after := by
  obtain ⟨c, name, rfl⟩ := List.exists_cons_of_ne_nil hne
  have hc : Text.isBlank c = false := isBlank_of_isNameChar (hn c List.mem_cons_self)
  rw [List.dropWhile_append_of_pos hs, List.cons_append,
    List.dropWhile_cons_of_neg (by rw [hc]; exact Bool.false_ne_true)]

/-- A name ends where the marker closes. -/
theorem span_isNameChar (hn : ∀ c ∈ name, isNameChar c = true) :
    (name ++ (markerClosing ++ after)).span isNameChar = (name, markerClosing ++ after) := by
  have hclosing : isNameChar '\x7d' = false := by decide
  rw [List.span_eq_takeWhile_dropWhile, List.takeWhile_append_of_pos hn,
    List.dropWhile_append_of_pos hn]
  simp [markerClosing, hclosing]

theorem markerAt?_eq_some_iff :
    markerAt? cs = some name ↔ ∃ space after, MarkerIn cs [] space name after := by
  constructor
  · intro h
    unfold markerAt? at h
    split at h
    · rename_i hopening
      obtain ⟨rest, rfl⟩ := List.isPrefixOf_iff_prefix.mp hopening
      rw [List.drop_left] at h
      dsimp only at h
      rw [List.span_eq_takeWhile_dropWhile] at h
      split at h
      · rename_i hcond
        obtain ⟨hne, hclosing⟩ := hcond
        obtain ⟨after, hafter⟩ := List.isPrefixOf_iff_prefix.mp hclosing
        obtain rfl := Option.some.inj h
        refine ⟨rest.takeWhile Text.isBlank, after, ⟨?_, fun c => List.mem_takeWhile_imp, hne,
          fun c => List.mem_takeWhile_imp⟩⟩
        rw [hafter, List.takeWhile_append_dropWhile, List.takeWhile_append_dropWhile,
          List.nil_append]
      · cases h
    · cases h
  · rintro ⟨space, after, h⟩
    unfold markerAt?
    rw [h.text, List.nil_append,
      if_pos (List.isPrefixOf_iff_prefix.mpr (List.prefix_append _ _)), List.drop_left,
      dropWhile_isBlank h.blank h.nonempty h.named]
    simp only [span_isNameChar h.named]
    exact if_pos ⟨h.nonempty, List.isPrefixOf_iff_prefix.mpr (List.prefix_append _ _)⟩

theorem MarkerIn.markerAt?_drop (h : MarkerIn cs before space name after) :
    markerAt? (cs.drop before.length) = some name :=
  markerAt?_eq_some_iff.mpr ⟨space, after, h.drop⟩

/-- A marker is found at a place if as many characters stand before it. -/
theorem exists_of_markerAt?_drop (h : markerAt? (cs.drop i) = some name) :
    ∃ before space after, before.length = i ∧ MarkerIn cs before space name after := by
  obtain ⟨space, after, hin⟩ := markerAt?_eq_some_iff.mp h
  have hi : i ≤ cs.length := by
    refine Nat.le_of_not_lt fun hlt => ?_
    have htext := hin.text
    rw [List.drop_of_length_le hlt.le] at htext
    cases htext
  refine ⟨cs.take i, space, after, List.length_take_of_le hi, ?_, hin.blank, hin.nonempty,
    hin.named⟩
  rw [← List.nil_append (markerOpening ++ _), ← hin.text, List.take_append_drop]

/-- The name of a marker is told by what stands before it. -/
theorem MarkerIn.name_unique (h : MarkerIn cs before space name after)
    (h' : MarkerIn cs before' space' name' after') (hlen : before.length = before'.length) :
    name = name' :=
  Option.some.inj (h.markerAt?_drop.symm.trans (hlen ▸ h'.markerAt?_drop))

/-! ### The first marker -/

theorem markerName?_eq_some_iff : markerName? cs = some name ↔
    ∃ i, markerAt? (cs.drop i) = some name ∧ ∀ j < i, markerAt? (cs.drop j) = none := by
  induction cs with
  | nil =>
    constructor
    · exact fun h => ⟨0, h, fun j hj => absurd hj (Nat.not_lt_zero j)⟩
    · rintro ⟨i, h, -⟩
      rwa [List.drop_nil] at h
  | cons c cs ih =>
    rw [markerName?]
    cases hat : markerAt? (c :: cs) with
    | some first =>
      constructor
      · rintro ⟨⟩
        exact ⟨0, hat, fun j hj => absurd hj (Nat.not_lt_zero j)⟩
      · rintro ⟨i, h, hmin⟩
        cases i with
        | zero => exact hat.symm.trans h
        | succ i => cases hat.symm.trans (hmin 0 (Nat.succ_pos i))
    | none =>
      rw [ih]
      constructor
      · rintro ⟨i, h, hmin⟩
        refine ⟨i + 1, h, fun j hj => ?_⟩
        cases j with
        | zero => exact hat
        | succ j => exact hmin j (Nat.lt_of_succ_lt_succ hj)
      · rintro ⟨i, h, hmin⟩
        cases i with
        | zero => cases hat.symm.trans h
        | succ i => exact ⟨i, h, fun j hj => hmin (j + 1) (Nat.succ_lt_succ hj)⟩

/-- A name is that of the first marker of a text: no marker has less before it. -/
def NamesFirst (cs name : List Char) : Prop :=
  ∃ before space after, MarkerIn cs before space name after ∧
    ∀ before' space' name' after', MarkerIn cs before' space' name' after' →
      before.length ≤ before'.length

theorem markerName?_eq_some_iff_namesFirst : markerName? cs = some name ↔ NamesFirst cs name := by
  rw [markerName?_eq_some_iff]
  constructor
  · rintro ⟨i, h, hmin⟩
    obtain ⟨before, space, after, rfl, hin⟩ := exists_of_markerAt?_drop h
    refine ⟨before, space, after, hin, fun before' space' name' after' hin' => ?_⟩
    refine Nat.le_of_not_lt fun hlt => ?_
    cases hin'.markerAt?_drop.symm.trans (hmin _ hlt)
  · rintro ⟨before, space, after, hin, hmin⟩
    refine ⟨before.length, hin.markerAt?_drop, fun j hj => ?_⟩
    refine Option.eq_none_iff_forall_ne_some.mpr fun name' h => ?_
    obtain ⟨before', space', after', rfl, hin'⟩ := exists_of_markerAt?_drop h
    exact Nat.not_le_of_lt hj (hmin before' space' name' after' hin')

theorem isSome_markerName?_iff : (markerName? cs).isSome = true ↔
    ∃ before space name after, MarkerIn cs before space name after := by
  rw [Option.isSome_iff_exists]
  constructor
  · rintro ⟨name, h⟩
    obtain ⟨i, hat, -⟩ := markerName?_eq_some_iff.mp h
    obtain ⟨before, space, after, -, hin⟩ := exists_of_markerAt?_drop hat
    exact ⟨before, space, name, after, hin⟩
  · rintro ⟨before, space, name, after, hin⟩
    -- of all places where a marker is, the search stops at the least
    have hsome : ∃ i, (markerAt? (cs.drop i)).isSome = true :=
      ⟨before.length, by rw [hin.markerAt?_drop, Option.isSome_some]⟩
    obtain ⟨first, hfirst⟩ := Option.isSome_iff_exists.mp (Nat.find_spec hsome)
    exact ⟨first, markerName?_eq_some_iff.mpr ⟨Nat.find hsome, hfirst, fun j hj =>
      Option.not_isSome_iff_eq_none.mp (Nat.find_min hsome hj)⟩⟩

/-- **A text refers to the model that its first marker names.**  It refers to one if it has a
marker in it, wherever the search has to start anew, and a text has only one first name.  White
space and the characters of names are apart, so that a marker can be read in one way only. -/
theorem modelNamed_first_marker (s : String) :
    ((modelNamed? s).isSome = true ↔
      ∃ before space name after, MarkerIn s.toList before space name after) ∧
    (∀ name : String, modelNamed? s = some name ↔ NamesFirst s.toList name.toList) ∧
    (∀ name name', NamesFirst s.toList name → NamesFirst s.toList name' → name = name') ∧
    (∀ c, (Text.isBlank c && isNameChar c) = false) := by
  refine ⟨?_, fun name => ?_, fun name name' h h' => ?_, fun c => ?_⟩
  · rw [modelNamed?, Option.isSome_map, isSome_markerName?_iff]
  · rw [← markerName?_eq_some_iff_namesFirst, modelNamed?, Option.map_eq_some_iff]
    constructor
    · rintro ⟨cs, h, rfl⟩
      rwa [String.toList_ofList]
    · exact fun h => ⟨name.toList, h, String.ofList_toList⟩
  · -- two first markers have equally much before them
    obtain ⟨before, space, after, hin, hmin⟩ := h
    obtain ⟨before', space', after', hin', hmin'⟩ := h'
    exact hin.name_unique hin' (Nat.le_antisymm (hmin _ _ _ _ hin') (hmin' _ _ _ _ hin))
  · cases hc : isNameChar c with
    | true => rw [isBlank_of_isNameChar hc, Bool.false_and]
    | false => rw [Bool.and_false]

/-- Before the first marker there are one that is not closed and one without a name, and after it
there is another. -/
def brokenMarkers : String :=
  "\x7b\x7bmodel: Own\x7b\x7bmodel:\x7d\x7d\x7b\x7bmodel:  Pet-2\x7d\x7d\x7b\x7bmodel:Owner\x7d\x7d"

theorem modelNamed_first_marker_broken : modelNamed? brokenMarkers = some "Pet-2" ∧
    NamesFirst brokenMarkers.toList "Pet-2".toList ∧
    ∀ name, NamesFirst brokenMarkers.toList name → name = "Pet-2".toList := by
  obtain ⟨-, hnamed, hunique, -⟩ := modelNamed_first_marker brokenMarkers
  have hmodel : modelNamed? brokenMarkers = some "Pet-2" := by decide +kernel
  have hfirst := (hnamed "Pet-2").mp hmodel
  exact ⟨hmodel, hfirst, fun name h => hunique name _ h hfirst⟩

/-! ### Markers that are made -/

end GatewayDocs
