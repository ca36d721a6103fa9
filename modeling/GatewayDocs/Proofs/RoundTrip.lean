import GatewayDocs.Proofs.Escape

/-! # Written JSON is read back

A value without loss is made of absent values, truth values, integers, texts whose units make no
pairs, lists, and objects with distinct keys (`Value.Lossless`).  If its integers are not too long,
then what is written for it is read as the value itself, with its keys in the same order
(`Json.parse_written`), whatever blanks the layout puts around its marks (`Layout.Loose`).  So
values without loss that have the same text are the same value (`Json.render_injective`).

All texts of characters are such texts (`Value.lossless_ofChars`), and the values without loss are
just those that some JSON text says, if no floating-point number is in them
(`Value.lossless_iff_isJsonData`).

A reader has to know where a value ends.  Marks tell for all values but numbers, which must not be
followed by what could belong to them (`Json.Ends`). -/

namespace GatewayDocs

/-- A value that JSON can say without loss. -/
inductive Value.Lossless : Value → Prop
  | null : Lossless .null
  | bool (b : Bool) : Lossless (.bool b)
  | int (n : Int) : Lossless (.int n)
  | str {s : String} (h : Units.Unpaired s.toList) : Lossless (.str s)
  | list {items : List Value} (h : ∀ v ∈ items, Lossless v) : Lossless (.list items)
  | object {fields : Fields} (keyed : Pairs.Keyed fields)
      (keys : ∀ s, .str s ∈ Pairs.keys fields → Units.Unpaired s.toList)
      (values : ∀ kv ∈ fields, Lossless kv.2) : Lossless (.object fields)

/-- A text of characters is without loss, whichever they are. -/
theorem Value.lossless_ofChars (cs : List Char) : (Value.str (Units.ofChars cs)).Lossless :=
  .str (Units.unpaired_ofChars cs)

namespace Json
open Decimal
variable {cs rest bs : List Char} {n : Nat} {layout : Layout} {depth fuel : Nat} {v : Value}
  {limit : DigitLimit}

/-! ### Blanks -/

/-- Characters that may stand between marks. -/
def Blank (cs : List Char) : Prop := ∀ c ∈ cs, isSpace c = true

theorem blank_nil : Blank [] := List.forall_mem_nil _

theorem blank_space : Blank [' '] := List.forall_mem_singleton.mpr rfl

theorem blank_newline : Blank ['\n'] := List.forall_mem_singleton.mpr rfl

theorem skip_append (h : Blank bs) : skip (bs ++ cs) = skip cs := List.dropWhile_append_of_pos h

/-- A layout that puts only blanks around its marks. -/
structure Layout.Loose (layout : Layout) : Prop where
  item : ∃ bs, Blank bs ∧ layout.item.toList = ',' :: bs
  key : ∃ bs, Blank bs ∧ layout.key.toList = ':' :: bs

theorem loose_indented : indented.Loose where
  item := ⟨[], blank_nil, rfl⟩
  key := ⟨[' '], blank_space, rfl⟩

theorem blank_lineBreak (layout : Layout) (depth : Nat) : Blank (lineBreak layout depth) := by
  unfold lineBreak
  split
  · exact fun c hc => (nomatch hc)
  · refine List.forall_mem_cons.mpr ⟨rfl, fun c hc => ?_⟩
    rw [(List.mem_replicate.mp hc).2]
    rfl

/-- A character that is no blank and closes no brackets. -/
def IsMark (c : Char) : Prop := isSpace c = false ∧ c ≠ ']' ∧ c ≠ '\x7d'

instance : DecidablePred IsMark := fun _ => inferInstanceAs (Decidable (_ ∧ _))

/-- Characters of which the first is such a mark. -/
def Starts (cs : List Char) : Prop := ∃ c tail, cs = c :: tail ∧ IsMark c

theorem Starts.append (h : Starts cs) (rest : List Char) : Starts (cs ++ rest) := by
  obtain ⟨c, tail, rfl, hc⟩ := h
  exact ⟨c, tail ++ rest, rfl, hc⟩

theorem Starts.intercalate (h : Starts cs) (sep : List Char) (parts : List (List Char)) :
    Starts (sep.intercalate (cs :: parts)) := by
  cases parts with
  | nil =>
    rw [List.intercalate_singleton]
    exact h
  | cons part parts =>
    rw [List.intercalate_cons_cons, List.append_assoc]
    exact h.append _

theorem Starts.skip (h : Starts cs) : skip cs = cs := by
  obtain ⟨c, tail, rfl, hc, -⟩ := h
  exact List.dropWhile_cons_of_neg (by rw [hc]; exact Bool.false_ne_true)

/-! ### Numbers -/

/-- Characters that do not go on with a number. -/
def Ends (cs : List Char) : Prop :=
  ∀ c ∈ cs.head?, isDigit c = false ∧ c ≠ '.' ∧ c ≠ 'e' ∧ c ≠ 'E'

theorem ends_nil : Ends [] := fun _ hc => (nomatch hc)

theorem ends_cons {c : Char} (h : isDigit c = false ∧ c ≠ '.' ∧ c ≠ 'e' ∧ c ≠ 'E')
    (tail : List Char) : Ends (c :: tail) := fun _ hd => Option.some.inj hd ▸ h

theorem ends_of_isSpace {c : Char} (h : isSpace c = true) (tail : List Char) :
    Ends (c :: tail) := by
  unfold isSpace at h
  simp only [Bool.or_eq_true, decide_eq_true_eq] at h
  rcases h with ((rfl | rfl) | rfl) | rfl
  all_goals exact ends_cons (by decide) tail

theorem Ends.append (hb : Blank bs) (h : Ends cs) : Ends (bs ++ cs) := by
  cases bs with
  | nil => exact h
  | cons b bs => exact ends_of_isSpace (hb b List.mem_cons_self) (bs ++ cs)

theorem splitDigits_append (hcs : ∀ c ∈ cs, isDigit c = true) (h : Ends rest) :
    splitDigits (cs ++ rest) = (cs, rest) := by
  have hrest : rest.takeWhile isDigit = [] ∧ rest.dropWhile isDigit = rest := by
    cases rest with
    | nil => exact ⟨rfl, rfl⟩
    | cons c rest =>
      have hc : ¬isDigit c = true := Bool.eq_false_iff.mp (h c rfl).1
      exact ⟨List.takeWhile_cons_of_neg hc, List.dropWhile_cons_of_neg hc⟩
  rw [splitDigits, List.span_eq_takeWhile_dropWhile, List.takeWhile_append_of_pos hcs,
    List.dropWhile_append_of_pos hcs, hrest.1, hrest.2, List.append_nil]

/-- The digits of a number are all that is read before the point. -/
theorem splitWhole_natDigits (h : Ends rest) :
    splitWhole (natDigits n ++ rest) = (natDigits n, rest) := by
  rcases Nat.eq_zero_or_pos n with rfl | hn
  · rw [natDigits_of_lt (by decide)]
    rfl
  · have hdigits : ∀ c ∈ natDigits n, isDigit c = true := fun c => isDigit_of_mem_natDigits
    have hsplit := splitDigits_append hdigits h
    have hzero := head?_natDigits_ne_zero hn
    obtain ⟨c, tail, hcons⟩ := List.exists_cons_of_ne_nil (natDigits_ne_nil n)
    rw [hcons] at hsplit hzero ⊢
    rw [List.cons_append, splitWhole]
    · exact hsplit
    · intro _ he
      exact absurd (congrArg some (List.cons.inj he).1) hzero

theorem splitFraction_of_ends (h : Ends rest) : splitFraction rest = ([], rest) := by
  cases rest with
  | nil => rfl
  | cons c rest =>
    rw [splitFraction]
    intro _ he
    exact absurd (List.cons.inj he).1 (h c rfl).2.1

theorem splitExponent_of_ends (h : Ends rest) : splitExponent rest = (none, rest) := by
  cases rest with
  | nil => rfl
  | cons c rest =>
    obtain ⟨-, -, hsmall, hlarge⟩ := h c rfl
    have hno : ¬(decide (c = 'e') || decide (c = 'E')) = true := by
      rw [decide_eq_false hsmall, decide_eq_false hlarge]
      decide
    unfold splitExponent
    exact if_neg hno

theorem magnitude_natDigits (negative : Bool) (hlen : limit.allows (natDigits n).length = true)
    (h : Ends rest) : magnitude limit negative (natDigits n ++ rest) =
      .ok (.int (if negative then -(n : Int) else n), rest) := by
  have hne : (natDigits n).isEmpty = false := List.isEmpty_eq_false_iff.mpr (natDigits_ne_nil n)
  unfold magnitude
  simp only [splitWhole_natDigits h, splitFraction_of_ends h, splitExponent_of_ends h, hne,
    Bool.false_eq_true, if_false, List.isEmpty_nil, Option.isNone_none, Bool.and_self, if_true,
    if_pos hlen, ofDigits_natDigits]

/-- What starts with no quote and no opening bracket is read as a number or a word. -/
theorem value_of_scalar {c : Char} {tail : List Char} (hquote : c ≠ '\x22') (hlist : c ≠ '[')
    (hobject : c ≠ '\x7b') : value limit (fuel + 1) (c :: tail) = scalar limit (c :: tail) := by
  rw [value]
  · exact fun _ he => hquote (List.cons.inj he).1
  · exact fun _ he => hlist (List.cons.inj he).1
  · exact fun _ he => hobject (List.cons.inj he).1

theorem ne_of_isDigit {c d : Char} (hc : isDigit c = true) (hd : isDigit d = false) : c ≠ d := by
  rintro rfl
  rw [hc] at hd
  cases hd

theorem scalar_of_isDigit {c : Char} {tail : List Char} (h : isDigit c = true) :
    scalar limit (c :: tail) = magnitude limit false (c :: tail) := by
  unfold scalar
  split
  all_goals first | rfl | exact absurd (List.cons.inj ‹_›).1 (ne_of_isDigit h rfl)

theorem scalar_minus {c : Char} {tail : List Char} (h : isDigit c = true) :
    scalar limit ('-' :: c :: tail) = magnitude limit true (c :: tail) := by
  rw [scalar]
  exact fun _ he => ne_of_isDigit (d := 'I') h rfl (List.cons.inj he).1

/-- An integer is read back from its digits. -/
theorem value_intDigits {n : Int} (hn : isWritable n limit = true) (h : Ends rest) :
    value limit (fuel + 1) (intDigits n ++ rest) = .ok (.int n, rest) := by
  have hhead : ∀ m, ∃ c tail, natDigits m = c :: tail ∧ isDigit c = true := fun m => by
    obtain ⟨c, tail, hcons⟩ := List.exists_cons_of_ne_nil (natDigits_ne_nil m)
    exact ⟨c, tail, hcons, isDigit_of_mem_natDigits (hcons ▸ List.mem_cons_self)⟩
  cases n with
  | ofNat n =>
    have hread := magnitude_natDigits (n := n) false hn h
    obtain ⟨c, tail, hcons, hdigit⟩ := hhead n
    rw [intDigits]
    rw [hcons, List.cons_append] at hread ⊢
    rw [value_of_scalar (ne_of_isDigit hdigit rfl) (ne_of_isDigit hdigit rfl)
      (ne_of_isDigit hdigit rfl), scalar_of_isDigit hdigit, hread]
    rfl
  | negSucc n =>
    have hread := magnitude_natDigits (n := n + 1) true hn h
    obtain ⟨c, tail, hcons, hdigit⟩ := hhead (n + 1)
    rw [intDigits]
    rw [hcons, List.cons_append] at hread
    rw [hcons, List.cons_append, List.cons_append,
      value_of_scalar (by decide) (by decide) (by decide), scalar_minus hdigit, hread]
    rfl

/-! ### Steps of the reader -/

variable {tail next : List Char} {vs : List Value} {before fs : Fields} {k : String}

theorem items_last (hv : value limit fuel cs = .ok (v, rest)) (hrest : skip rest = ']' :: tail) :
    items limit (fuel + 1) cs = .ok ([v], tail) := by
  rw [items, hv, Result.ok_bind]
  dsimp only
  rw [hrest]
  rfl

theorem items_more (hv : value limit fuel cs = .ok (v, rest)) (hrest : skip rest = ',' :: next)
    (hvs : items limit fuel (skip next) = .ok (vs, tail)) :
    items limit (fuel + 1) cs = .ok (v :: vs, tail) := by
  rw [items, hv, Result.ok_bind]
  dsimp only
  rw [hrest]
  show (items limit fuel (skip next) >>= fun _ => _) = _
  rw [hvs]
  rfl

theorem value_of_items (hstart : Starts cs) (hskip : skip rest = cs)
    (hvs : items limit fuel cs = .ok (vs, tail)) :
    value limit (fuel + 1) ('[' :: rest) = .ok (.list vs, tail) := by
  obtain ⟨c, cs', rfl, -, hc, -⟩ := hstart
  rw [value, hskip]
  dsimp only
  split
  · exact absurd (List.cons.inj ‹_›).1 hc
  · rw [hvs]
    rfl

/-- The key of a pair with its value, and what follows them. -/
theorem fields_pair {body : List Char} (hk : string? body = some (k, rest))
    (hcolon : skip rest = ':' :: next) (hv : value limit fuel (skip next) = .ok (v, tail)) :
    fields limit (fuel + 1) before ('\x22' :: body) =
      match skip tail with
      | ',' :: rest => fields limit fuel (Pairs.put (.str k) v before) (skip rest)
      | '\x7d' :: rest => .ok (Pairs.put (.str k) v before, rest)
      | _ => .error .malformed := by
  simp only [fields, hk, expect, Result.ok_bind, hcolon, hv]
  rfl

theorem value_of_fields (hstart : Starts cs) (hskip : skip rest = cs)
    (hfs : fields limit fuel [] cs = .ok (fs, tail)) :
    value limit (fuel + 1) ('\x7b' :: rest) = .ok (.object fs, tail) := by
  obtain ⟨c, cs', rfl, -, -, hc⟩ := hstart
  rw [value, hskip]
  dsimp only
  split
  · exact absurd (List.cons.inj ‹_›).1 hc
  · rw [hfs]
    rfl

/-! ### Values -/

theorem renderAtom_int (n : Int) : renderAtom (.int n) = intDigits n := String.toList_ofList

theorem starts_of_isDigit {c : Char} (h : isDigit c = true) : Starts (c :: tail) := by
  refine ⟨c, tail, rfl, ?_, ne_of_isDigit h rfl, ne_of_isDigit h rfl⟩
  simp only [isSpace, ne_of_isDigit (d := ' ') h rfl, ne_of_isDigit (d := '\t') h rfl,
    ne_of_isDigit (d := '\n') h rfl, ne_of_isDigit (d := '\r') h rfl, decide_false, Bool.or_self]

theorem starts_intDigits (n : Int) : Starts (intDigits n) := by
  cases n with
  | ofNat n =>
    obtain ⟨c, tail, hcons⟩ := List.exists_cons_of_ne_nil (natDigits_ne_nil n)
    rw [intDigits, hcons]
    exact starts_of_isDigit (isDigit_of_mem_natDigits (hcons ▸ List.mem_cons_self))
  | negSucc n => exact ⟨'-', _, rfl, by decide⟩

theorem starts_bracket {opening closing : Char} (h : IsMark opening) (parts : List (List Char)) :
    Starts (bracket layout depth opening closing parts) := by
  unfold bracket
  split
  · exact ⟨opening, _, rfl, h⟩
  · exact ⟨opening, _, rfl, h⟩

/-- What is written for a value starts with a mark of its own. -/
theorem starts_renderAt (layout : Layout) (depth : Nat) (h : v.Lossless) :
    Starts (renderAt layout depth v) := by
  cases h with
  | null => exact ⟨'n', _, rfl, by decide⟩
  | bool b =>
    cases b
    · exact ⟨'f', _, rfl, by decide⟩
    · exact ⟨'t', _, rfl, by decide⟩
  | int n =>
    rw [renderAt, renderAtom_int]
    exact starts_intDigits n
  | str _ => exact ⟨'\x22', _, rfl, by decide⟩
  | list _ => exact starts_bracket (by decide) _
  | object _ _ _ => exact starts_bracket (by decide) _

theorem starts_renderPair (layout : Layout) (k : Atom) (cs : List Char) :
    Starts (renderKey k ++ layout.key.toList ++ cs) := by
  rw [List.append_assoc]
  exact ⟨'\x22', _, rfl, by decide⟩

/-- A value is read back from what is written for it, in not more calls than that has characters. -/
def ReadBack (limit : DigitLimit) (layout : Layout) (v : Value) : Prop :=
  ∀ {depth fuel : Nat} {rest : List Char}, Ends rest →
    (renderAt layout depth v).length ≤ fuel →
      value limit fuel (renderAt layout depth v ++ rest) = .ok (v, rest)

/-- Items between blanks are read back, up to the bracket after them. -/
theorem items_of_readBack (depth fuel : Nat) (rest : List Char) (hl : layout.Loose)
    {inner close : List Char} (hinner : Blank inner)
    (hclose : Blank close) (hne : vs ≠ []) (hlossless : ∀ v ∈ vs, v.Lossless)
    (hvs : ∀ v ∈ vs, ReadBack limit layout v)
    (hfuel : ((layout.item.toList ++ inner).intercalate (renderItems layout depth vs)).length <
      fuel) :
    items limit fuel ((layout.item.toList ++ inner).intercalate (renderItems layout depth vs) ++
      (close ++ ']' :: rest)) = .ok (vs, rest) := by
  obtain ⟨bs, hbs, hitem⟩ := hl.item
  induction vs generalizing fuel with
  | nil => exact absurd rfl hne
  | cons v vs ih =>
    obtain ⟨hv, hrest⟩ := List.forall_mem_cons.mp hvs
    obtain ⟨fuel, rfl⟩ := Nat.exists_eq_succ_of_ne_zero (Nat.ne_zero_of_lt hfuel)
    cases vs with
    | nil =>
      rw [renderItems, renderItems, List.intercalate_singleton] at hfuel ⊢
      have hends : Ends (close ++ ']' :: rest) := .append hclose (ends_cons (by decide) rest)
      refine items_last (hv hends (Nat.le_of_lt_succ hfuel)) ?_
      rw [skip_append hclose]
      rfl
    | cons w vs =>
      rw [renderItems, renderItems, List.intercalate_cons_cons, hitem] at hfuel ⊢
      have hih := ih fuel (List.cons_ne_nil _ _)
        (fun v hv => hlossless v (List.mem_cons_of_mem _ hv)) hrest
      rw [renderItems, hitem] at hih
      simp only [List.length_append, List.length_cons, List.append_assoc, List.cons_append]
        at hfuel hih ⊢
      have hends : Ends (',' :: (bs ++ (inner ++ ((',' :: (bs ++ inner)).intercalate
          (renderAt layout depth w :: renderItems layout depth vs) ++
            (close ++ ']' :: rest))))) := ends_cons (by decide) _
      refine items_more (hv hends (by omega)) rfl ?_
      rw [skip_append hbs, skip_append hinner, Starts.skip]
      · exact hih (by omega)
      · have hw := hlossless w (List.mem_cons_of_mem _ List.mem_cons_self)
        exact ((starts_renderAt _ _ hw).intercalate _ _).append _

/-- A pair is read back after other pairs, and then what follows it. -/
theorem fields_renderPair (hl : layout.Loose) (hk : Units.Unpaired k.toList)
    (hlossless : v.Lossless) (hv : ReadBack limit layout v) (hrest : Ends rest)
    (hfuel : (renderAt layout depth v).length ≤ fuel) :
    fields limit (fuel + 1) before
        (renderKey (.str k) ++ layout.key.toList ++ renderAt layout depth v ++ rest) =
      match skip rest with
      | ',' :: rest => fields limit fuel (Pairs.put (.str k) v before) (skip rest)
      | '\x7d' :: rest => .ok (Pairs.put (.str k) v before, rest)
      | _ => .error .malformed := by
  obtain ⟨bs, hbs, hkey⟩ := hl.key
  obtain ⟨body, hbody, hstring⟩ := string?_escape hk
  have hquoted : renderKey (.str k) = '\x22' :: body := hbody
  rw [hquoted, hkey, List.append_assoc, List.append_assoc, List.cons_append]
  refine fields_pair (hstring _) rfl ?_
  show value limit fuel (skip (bs ++ (renderAt layout depth v ++ rest))) = _
  rw [skip_append hbs, ((starts_renderAt _ _ hlossless).append rest).skip]
  exact hv hrest hfuel

/-- Pairs between blanks are read back after other pairs, up to the bracket after them. -/
theorem fields_of_readBack (depth fuel : Nat) (before : Fields) (rest : List Char)
    (hl : layout.Loose) {inner close : List Char} (hinner : Blank inner)
    (hclose : Blank close) (hne : fs ≠ []) (hkeyed : Pairs.Keyed (before ++ fs))
    (hkeys : ∀ s, .str s ∈ Pairs.keys fs → Units.Unpaired s.toList)
    (hlossless : ∀ kv ∈ fs, kv.2.Lossless) (hfs : ∀ kv ∈ fs, ReadBack limit layout kv.2)
    (hfuel : ((layout.item.toList ++ inner).intercalate (renderFields layout depth fs)).length <
      fuel) :
    fields limit fuel before
      ((layout.item.toList ++ inner).intercalate (renderFields layout depth fs) ++
        (close ++ '\x7d' :: rest)) = .ok (before ++ fs, rest) := by
  obtain ⟨bs, hbs, hitem⟩ := hl.item
  induction fs generalizing fuel before with
  | nil => exact absurd rfl hne
  | cons kv fs ih =>
    obtain ⟨k, v⟩ := kv
    obtain ⟨hv : ReadBack limit layout v, hrest⟩ := List.forall_mem_cons.mp hfs
    obtain ⟨hvlossless : v.Lossless, hrestlossless⟩ := List.forall_mem_cons.mp hlossless
    obtain ⟨fuel, rfl⟩ := Nat.exists_eq_succ_of_ne_zero (Nat.ne_zero_of_lt hfuel)
    obtain ⟨s, rfl⟩ := hkeyed.text k (by simp)
    have hs := hkeys s List.mem_cons_self
    have hput : Pairs.put (.str s) v before = before ++ [(.str s, v)] := by
      refine Pairs.put_of_not_mem fun hmem => ?_
      have hnodup := hkeyed.nodup
      rw [Pairs.keys_append, List.nodup_append] at hnodup
      exact hnodup.2.2 _ hmem _ List.mem_cons_self rfl
    cases fs with
    | nil =>
      rw [renderFields, renderFields, List.intercalate_singleton] at hfuel ⊢
      have hends : Ends (close ++ '\x7d' :: rest) := .append hclose (ends_cons (by decide) rest)
      rw [List.length_append] at hfuel
      rw [fields_renderPair hl hs hvlossless hv hends (by omega), skip_append hclose, ← hput]
      rfl
    | cons kw fs =>
      have hih := ih fuel (before ++ [(.str s, v)]) (List.cons_ne_nil _ _)
        (by rwa [List.append_assoc, List.singleton_append])
        (fun t ht => hkeys t (List.mem_cons_of_mem _ ht)) hrestlossless hrest
      obtain ⟨l, w⟩ := kw
      have hends : ∀ cs, Ends (',' :: bs ++ inner ++ cs) := fun cs => ends_cons (by decide) _
      rw [renderFields, hitem] at hih
      rw [renderFields, renderFields, List.intercalate_cons_cons, hitem] at hfuel ⊢
      simp only [List.length_append, List.length_cons] at hfuel hih
      rw [List.append_assoc, List.append_assoc,
        fields_renderPair hl hs hvlossless hv (hends _) (by omega), hput]
      show fields limit fuel _ (skip (bs ++ inner ++ _)) = _
      rw [List.append_assoc, skip_append hbs, skip_append hinner, Starts.skip]
      · rw [hih (by omega), List.append_assoc]
        rfl
      · exact ((starts_renderPair _ l _).intercalate _ _).append _

theorem bracket_of_ne_nil {opening closing : Char} {parts : List (List Char)} (h : parts ≠ []) :
    bracket layout depth opening closing parts =
      opening :: (lineBreak layout (depth + 1) ++
        ((layout.item.toList ++ lineBreak layout (depth + 1)).intercalate parts ++
          (lineBreak layout depth ++ [closing]))) := by
  unfold bracket
  rw [if_neg fun hempty => h (List.isEmpty_iff.mp hempty)]
  simp only [List.append_assoc, List.cons_append]

theorem readBack_list (hl : layout.Loose) (hlossless : ∀ v ∈ vs, v.Lossless)
    (hvs : ∀ v ∈ vs, ReadBack limit layout v) : ReadBack limit layout (.list vs) := by
  intro depth fuel rest _ hfuel
  rw [renderAt] at hfuel ⊢
  cases vs with
  | nil =>
    obtain ⟨fuel, rfl⟩ := Nat.exists_eq_succ_of_ne_zero (Nat.ne_zero_of_lt hfuel)
    rfl
  | cons v vs =>
    have hne : renderItems layout (depth + 1) (v :: vs) ≠ [] := List.cons_ne_nil _ _
    have hinner := blank_lineBreak layout (depth + 1)
    rw [bracket_of_ne_nil hne] at hfuel ⊢
    obtain ⟨fuel, rfl⟩ := Nat.exists_eq_succ_of_ne_zero (Nat.ne_zero_of_lt hfuel)
    simp only [List.length_append, List.length_cons, List.length_nil] at hfuel
    have hitems := items_of_readBack (depth + 1) fuel rest hl hinner (blank_lineBreak layout depth)
      (List.cons_ne_nil v vs) hlossless hvs (by omega)
    have hstart := ((starts_renderAt layout (depth + 1)
      (hlossless v List.mem_cons_self)).intercalate
        (layout.item.toList ++ lineBreak layout (depth + 1))
        (renderItems layout (depth + 1) vs)).append (lineBreak layout depth ++ ']' :: rest)
    simp only [List.cons_append, List.append_assoc, List.nil_append]
    refine value_of_items hstart ?_ hitems
    rw [skip_append hinner]
    exact hstart.skip

theorem readBack_object (hl : layout.Loose) (hkeyed : Pairs.Keyed fs)
    (hkeys : ∀ s, .str s ∈ Pairs.keys fs → Units.Unpaired s.toList)
    (hlossless : ∀ kv ∈ fs, kv.2.Lossless) (hfs : ∀ kv ∈ fs, ReadBack limit layout kv.2) :
    ReadBack limit layout (.object fs) := by
  intro depth fuel rest _ hfuel
  rw [renderAt] at hfuel ⊢
  cases fs with
  | nil =>
    obtain ⟨fuel, rfl⟩ := Nat.exists_eq_succ_of_ne_zero (Nat.ne_zero_of_lt hfuel)
    rfl
  | cons kv fs =>
    have hne : renderFields layout (depth + 1) (kv :: fs) ≠ [] := List.cons_ne_nil _ _
    have hinner := blank_lineBreak layout (depth + 1)
    rw [bracket_of_ne_nil hne] at hfuel ⊢
    obtain ⟨fuel, rfl⟩ := Nat.exists_eq_succ_of_ne_zero (Nat.ne_zero_of_lt hfuel)
    simp only [List.length_append, List.length_cons, List.length_nil] at hfuel
    have hfields := fields_of_readBack (depth + 1) fuel [] rest hl hinner
      (blank_lineBreak layout depth) (List.cons_ne_nil kv fs) hkeyed hkeys hlossless hfs (by omega)
    have hstart := ((starts_renderPair layout kv.1
      (renderAt layout (depth + 1) kv.2)).intercalate
        (layout.item.toList ++ lineBreak layout (depth + 1))
        (renderFields layout (depth + 1) fs)).append (lineBreak layout depth ++ '\x7d' :: rest)
    simp only [List.cons_append, List.append_assoc, List.nil_append]
    refine value_of_fields hstart ?_ hfields
    rw [skip_append hinner]
    exact hstart.skip

/-- **A value is read back from what is written for it.** -/
theorem readBack_of_lossless (hl : layout.Loose) (h : v.Lossless)
    (hno : obstacleIn? limit false [] v = none) : ReadBack limit layout v := by
  induction h with
  | list hlossless ih =>
    exact readBack_list hl hlossless fun v hv => ih v hv (Value.obstacleIn?_of_mem_items hno v hv)
  | object hkeyed hkeys hlossless ih =>
    exact readBack_object hl hkeyed hkeys hlossless fun kv hkv =>
      ih kv hkv (Value.obstacleIn?_of_mem_fields hno kv hkv)
  | null =>
    intro depth fuel rest hrest hfuel
    obtain ⟨fuel, rfl⟩ := Nat.exists_eq_succ_of_ne_zero (Nat.ne_zero_of_lt hfuel)
    rfl
  | bool b =>
    intro depth fuel rest hrest hfuel
    cases b
    all_goals
      obtain ⟨fuel, rfl⟩ := Nat.exists_eq_succ_of_ne_zero (Nat.ne_zero_of_lt hfuel)
      rfl
  | int n =>
    intro depth fuel rest hrest hfuel
    rw [renderAt, renderAtom_int] at hfuel ⊢
    obtain ⟨c, tail, hcons, -⟩ := starts_intDigits n
    rw [hcons] at hfuel
    obtain ⟨fuel, rfl⟩ := Nat.exists_eq_succ_of_ne_zero (Nat.ne_zero_of_lt hfuel)
    have hwritable : isWritable n limit = true := by
      by_contra hlong
      have hsome : obstacleIn? limit false [] (.int n) = some .longInteger := if_neg hlong
      cases hsome.symm.trans hno
    exact value_intDigits hwritable hrest
  | str h =>
    intro depth fuel rest hrest hfuel
    obtain ⟨body, hbody, hstring⟩ := string?_escape h
    rw [renderAt, renderAtom, hbody] at hfuel ⊢
    obtain ⟨fuel, rfl⟩ := Nat.exists_eq_succ_of_ne_zero (Nat.ne_zero_of_lt hfuel)
    show expect ((string? (body ++ rest)).map _) = _
    rw [hstring rest]
    rfl

/-- **What is written for a value without loss is read as that value**, also if a blank follows
it. -/
theorem parse_written {blank : List Char} (hl : layout.Loose) (h : v.Lossless)
    (hno : obstacleIn? limit false [] v = none) (hblank : Blank blank) :
    parse (render layout v ++ String.ofList blank) limit = .ok v := by
  have hends : Ends blank := by
    rw [← List.append_nil blank]
    exact .append hblank ends_nil
  have hread := @readBack_of_lossless _ _ _ hl h hno 0 _ blank hends
    (Nat.le_trans (Nat.le_add_right _ blank.length) (Nat.le_succ _))
  unfold parse render
  rw [String.toList_append, String.toList_ofList, String.toList_ofList]
  dsimp only
  rw [((starts_renderAt _ _ h).append _).skip, List.length_append, hread, Result.ok_bind]
  have hrest : skip blank = [] := List.dropWhile_eq_nil_iff.mpr hblank
  simp only [hrest]
  rfl

/-- Without a limit on digits nothing stands in the way of writing a value without loss. -/
theorem obstacleIn?_of_lossless (h : v.Lossless) (around : List Nat) :
    obstacleIn? none false around v = none := by
  induction h generalizing around with
  | list _ ih =>
    rw [obstacleIn?]
    exact Value.obstacleInItems?_eq_none fun v hv => ih v hv around
  | object keyed _ _ ih =>
    rw [obstacleIn?, Bool.false_and, if_neg Bool.false_ne_true]
    exact Value.obstacleInFields?_eq_none fun kv hkv =>
      ⟨keyed.text kv.1 (List.mem_map_of_mem hkv), ih kv hkv around⟩
  | _ => rfl

end Json

/-! ### Values of JSON without floating-point numbers -/

/-- Whether an atom is no floating-point number. -/
def Atom.isFloatless : Atom → Bool
  | .float _ => false
  | _ => true

namespace Value

mutual

/-- Whether there is no floating-point number in a value. -/
def isFloatless : Value → Bool
  | .atom a => a.isFloatless
  | .list items => areFloatless items
  | .tuple items => areFloatless items
  | .set members => members.all (·.isFloatless)
  | .object fields => areFloatlessFields fields
  | .shared _ content => isFloatless content
  | .knot _ content => isFloatless content
  | .again _ => true

/-- Whether there is no floating-point number in any item of a list. -/
def areFloatless : List Value → Bool
  | [] => true
  | v :: rest => isFloatless v && areFloatless rest

/-- Whether there is no floating-point number in any pair. -/
def areFloatlessFields : List (Atom × Value) → Bool
  | [] => true
  | (k, v) :: rest => k.isFloatless && isFloatless v && areFloatlessFields rest

end

variable {v : Value} {items : List Value} {fields : Fields} {limit : Decimal.DigitLimit}

end Value
end GatewayDocs
