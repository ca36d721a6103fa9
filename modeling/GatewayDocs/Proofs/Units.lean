import GatewayDocs.Proofs.Numeral
import GatewayDocs.Text.Case
import GatewayDocs.Text.Quoted
import Mathlib.Data.List.Chain
import Mathlib.Data.List.Forall2

/-! # What a text holds

A text is told by the code points and units that it holds: `Units.ofCodes_codes` says so, and
`Units.codes_ofCodes` that every list of code points is held by a text, and that of units too, if no
two neighbours among them are the units of a pair.

If such neighbours stood side by side, the text could not be told from the one with their character,
once both are written in units.  `Units.Unpaired` says that this is nowhere so, and `Units.Clear`
that there are no units at all.  Unpaired are the texts of characters (`unpaired_ofChars`) and all
texts whose codes were joined (`unpaired_join`).

A part of an unpaired text is unpaired, and unpaired texts may be joined with clear ones
(`Unpaired.append_clear`).  Letters in another case make the same pairs as before
(`Unpaired.flatten`). -/

namespace GatewayDocs.Units
variable {c d : Char} {cs ds es : List Char} {s t : String} {m n : Nat} {ns : List Nat}

/-- Two codes that are not the units of a pair. -/
def Apart (m n : Nat) : Prop := (isHigh m && isLow n) = false

/-- Whether two characters stand for two units that are alone, and together make a pair. -/
def isPair (c d : Char) : Bool :=
  (unit? c).any isHigh && (unit? d).any isLow && (held? c d).isNone

/-- Characters of which no two neighbours stand for units that together make a pair. -/
def Unpaired (cs : List Char) : Prop := cs.IsChain fun c d => isPair c d = false

/-- Characters of which none stands for a unit. -/
def Clear (cs : List Char) : Prop := ∀ c ∈ cs, unit? c = none

instance (m n : Nat) : Decidable (Apart m n) :=
  inferInstanceAs (Decidable ((isHigh m && isLow n) = false))

instance (cs : List Char) : Decidable (Unpaired cs) :=
  inferInstanceAs (Decidable (cs.IsChain fun c d => isPair c d = false))

instance (cs : List Char) : Decidable (Clear cs) :=
  List.decidableBAll (fun c => unit? c = none) cs

/-! ### Single characters -/

theorem apart_of_left (h : isHigh m = false) : Apart m n := by
  rw [Apart, h, Bool.false_and]

theorem apart_of_right (h : isLow n = false) : Apart m n := by
  rw [Apart, h, Bool.and_false]

theorem isHigh_eq_false_of_le (h : 0x10000 ≤ n) : isHigh n = false :=
  Bool.eq_false_iff.mpr fun hn => absurd (isHigh_iff.mp hn).2 (by omega)

theorem isLow_eq_false_of_le (h : 0x10000 ≤ n) : isLow n = false :=
  Bool.eq_false_iff.mpr fun hn => absurd (isLow_iff.mp hn).2 (by omega)

theorem isUnit_eq_false_of_le (h : 0x10000 ≤ n) : isUnit n = false := by
  rw [isUnit, isHigh_eq_false_of_le h, isLow_eq_false_of_le h, Bool.false_or]

theorem isHigh_eq_false_of_isLow (h : isLow n = true) : isHigh n = false :=
  Bool.eq_false_iff.mpr fun hn => absurd (isHigh_iff.mp hn).2 (Nat.not_lt.mpr (isLow_iff.mp h).1)

theorem isLow_eq_false_of_isHigh (h : isHigh n = true) : isLow n = false :=
  Bool.eq_false_iff.mpr fun hn => absurd (isLow_iff.mp hn).1 (Nat.not_le.mpr (isHigh_iff.mp h).2)

theorem isUnit_of_isHigh (h : isHigh n = true) : isUnit n = true := by
  rw [isUnit, h, Bool.true_or]

theorem isUnit_of_isLow (h : isLow n = true) : isUnit n = true := by
  rw [isUnit, h, Bool.or_true]

theorem le_pair (high low : Nat) : 0x10000 ≤ pair high low := by
  unfold pair
  omega

theorem toNat_lt (c : Char) : c.toNat < 0x110000 := by
  have hvalid : c.toNat < 0xd800 ∨ 0xdfff < c.toNat ∧ c.toNat < 0x110000 := c.valid
  omega

/-- The number of a character is that of no unit. -/
theorem isUnit_toNat (c : Char) : isUnit c.toNat = false := by
  have hvalid : c.toNat < 0xd800 ∨ 0xdfff < c.toNat ∧ c.toNat < 0x110000 := c.valid
  refine Bool.eq_false_iff.mpr fun h => ?_
  have hunit := isUnit_iff.mp h
  omega

theorem toNat_alone (h : isUnit n = true) : (alone n).toNat = raise + n := by
  have hunit := isUnit_iff.mp h
  have hraise : raise = 0x100000 := rfl
  have hvalid : (raise + n).isValidChar := .inr ⟨by omega, by omega⟩
  rw [alone, Char.ofNat, dif_pos hvalid]
  rfl

/-- The character in the stead of a unit stands for it. -/
theorem unit?_alone (h : isUnit n = true) : unit? (alone n) = some n := by
  have hunit := isUnit_iff.mp h
  have hstead : isStead (raise + n) = true :=
    isStead_iff.mpr ⟨Nat.add_le_add_left hunit.1 raise, Nat.add_lt_add_left hunit.2 raise⟩
  rw [unit?, toNat_alone h, if_pos hstead, Nat.add_sub_cancel_left]

/-- A character stands for a unit if it is the one in its stead. -/
theorem unit?_eq_some (h : unit? c = some n) : isUnit n = true ∧ c = alone n := by
  unfold unit? at h
  split at h
  · rename_i hstead
    obtain rfl := Option.some.inj h
    have hraise : raise = 0x100000 := rfl
    have hcode := isStead_iff.mp hstead
    refine ⟨isUnit_iff.mpr ⟨by omega, by omega⟩, ?_⟩
    rw [alone, Nat.add_sub_cancel' (by omega), Char.ofNat_toNat]
  · cases h

theorem isStead_eq_false_of_unit? (h : unit? c = none) : isStead c.toNat = false := by
  unfold unit? at h
  split at h
  · cases h
  · exact Bool.eq_false_iff.mpr ‹_›

theorem code_of_some (h : unit? c = some n) : code c = n := by
  rw [code, h, Option.getD_some]

theorem code_of_none (h : unit? c = none) : code c = c.toNat := by
  rw [code, h, Option.getD_none]

theorem lt_of_isStead (h : isStead n = true) : n < 0x110000 := by
  have := (isStead_iff.mp h).2
  omega

theorem le_of_isStead (h : isStead n = true) : 0x10000 ≤ n := by
  have := (isStead_iff.mp h).1
  omega

theorem held_of_isUnit (h : isUnit n = true) : held n = [alone n] := if_pos h

theorem held_of_isStead (h : isStead n = true) :
    held n = [alone (first n), alone (second n)] := by
  rw [held, isUnit_eq_false_of_le (le_of_isStead h), h]
  rfl

theorem held_of_character (h : isUnit n = false) (hstead : isStead n = false) :
    held n = [Char.ofNat n] := by
  rw [held, h, hstead]
  rfl

/-- A character that is not held with the next one is held by itself. -/
theorem held_code (c : Char) : held (code c) = [c] := by
  cases h : unit? c with
  | some n =>
    obtain ⟨hunit, rfl⟩ := unit?_eq_some h
    rw [code_of_some h, held_of_isUnit hunit]
  | none =>
    rw [code_of_none h, held_of_character (isUnit_toNat c) (isStead_eq_false_of_unit? h),
      Char.ofNat_toNat]

/-- What two characters hold together is a code point whose units they stand for. -/
theorem held?_eq_some (h : held? c d = some n) : ∃ high low, unit? c = some high ∧
    unit? d = some low ∧ isHigh high = true ∧ isLow low = true ∧ n = pair high low ∧
    isStead n = true := by
  unfold held? at h
  split at h
  · rename_i high low hc hd
    split at h
    · rename_i hpair
      rw [Bool.and_eq_true, Bool.and_eq_true] at hpair
      obtain rfl := Option.some.inj h
      exact ⟨high, low, hc, hd, hpair.1.1, hpair.1.2, rfl, hpair.2⟩
    · cases h
  · cases h

theorem held_of_held? (h : held? c d = some n) : held n = [c, d] := by
  obtain ⟨high, low, hc, hd, hhigh, hlow, hn, hstead⟩ := held?_eq_some h
  have hfirst : first n = high := hn ▸ first_pair hhigh hlow
  have hsecond : second n = low := hn ▸ second_pair hlow
  rw [held_of_isStead hstead, hfirst, hsecond, ← (unit?_eq_some hc).2, ← (unit?_eq_some hd).2]

/-- **A text is told by its codes.** -/
theorem flatMap_held_codes (cs : List Char) : (codes cs).flatMap held = cs := by
  fun_induction codes cs with
  | case1 => rfl
  | case2 c => exact (List.flatMap_singleton held _).trans (held_code c)
  | case3 c d rest n h ih => rw [List.flatMap_cons, ih, held_of_held? h, List.cons_append,
      List.singleton_append]
  | case4 c d rest h ih => rw [List.flatMap_cons, ih, held_code, List.singleton_append]

theorem ofCodes_codes (s : String) : ofCodes (codes s.toList) = s := by
  rw [ofCodes, flatMap_held_codes, String.ofList_toList]

theorem codes_injective : Function.Injective codes :=
  Function.LeftInverse.injective flatMap_held_codes

theorem isPair_of_left (h : unit? c = none) : isPair c d = false := by
  rw [isPair, h, Option.any_none, Bool.false_and, Bool.false_and]

theorem isPair_of_right (h : unit? d = none) : isPair c d = false := by
  rw [isPair, h, Option.any_none, Bool.and_false, Bool.false_and]

theorem Clear.append (hc : Clear cs) (hd : Clear ds) : Clear (cs ++ ds) :=
  List.forall_mem_append.mpr ⟨hc, hd⟩

theorem unit?_of_isStead (h : isStead c.toNat = false) : unit? c = none :=
  if_neg (Bool.eq_false_iff.mp h)

theorem clear_of_lt (h : ∀ c ∈ cs, c.toNat < raise) : Clear cs := fun c hc => by
  have hraise : raise = 0x100000 := rfl
  have hlt := h c hc
  refine unit?_of_isStead (Bool.eq_false_iff.mpr fun hstead => ?_)
  have hcode := (isStead_iff.mp hstead).1
  omega

theorem lt_raise_of_le (h : c ≤ d) (hd : d.toNat < raise) : c.toNat < raise :=
  Nat.lt_of_le_of_lt (UInt32.le_iff_toNat_le.mp (Char.le_def.mp h)) hd

/-! ### Unpaired texts -/

theorem unpaired_nil : Unpaired [] := .nil

theorem unpaired_singleton (c : Char) : Unpaired [c] := .singleton c

theorem Clear.unpaired (h : Clear cs) : Unpaired cs := by
  induction cs with
  | nil => exact unpaired_nil
  | cons c cs ih =>
    obtain ⟨hc, hcs⟩ := List.forall_mem_cons.mp h
    exact List.IsChain.cons (ih hcs) fun d _ => isPair_of_left hc

theorem Unpaired.of_infix (h : Unpaired cs) (hd : ds <:+: cs) : Unpaired ds :=
  List.IsChain.infix h hd

theorem Unpaired.append_clear (hc : Unpaired cs) (hd : Clear ds) : Unpaired (cs ++ ds) :=
  List.IsChain.append hc hd.unpaired fun _ _ d hmem =>
    isPair_of_right (hd d (List.mem_of_mem_head? hmem))

theorem Clear.append_unpaired (hc : Clear cs) (hd : Unpaired ds) : Unpaired (cs ++ ds) :=
  List.IsChain.append hc.unpaired hd fun c hmem _ _ =>
    isPair_of_left (hc c (List.mem_of_mem_getLast? hmem))

/-- Unpaired texts may be joined with a clear one between them. -/
theorem Unpaired.append_between (hc : Unpaired cs) (hd : Clear ds) (hne : ds ≠ [])
    (he : Unpaired es) : Unpaired (cs ++ ds ++ es) := by
  refine List.IsChain.append (hc.append_clear hd) he fun c hmem _ _ => ?_
  rw [List.getLast?_append_of_ne_nil cs hne] at hmem
  exact isPair_of_left (hd c (List.mem_of_mem_getLast? hmem))

/-- What holds of all characters of some texts and of what stands between them. -/
theorem forall_mem_intercalate {P : Char → Prop} {sep : List Char} {parts : List (List Char)}
    (hsep : ∀ c ∈ sep, P c) (h : ∀ part ∈ parts, ∀ c ∈ part, P c) :
    ∀ c ∈ sep.intercalate parts, P c := by
  induction parts with
  | nil => exact List.forall_mem_nil _
  | cons part parts ih =>
    obtain ⟨hpart, hparts⟩ := List.forall_mem_cons.mp h
    cases parts with
    | nil =>
      rw [List.intercalate_singleton]
      exact hpart
    | cons part' parts =>
      rw [List.intercalate_cons_cons]
      exact List.forall_mem_append.mpr ⟨List.forall_mem_append.mpr ⟨hpart, hsep⟩, ih hparts⟩

/-! ### Codes -/

theorem isHigh_code (c : Char) : isHigh (code c) = (unit? c).any isHigh := by
  cases h : unit? c with
  | some n => rw [code_of_some h, Option.any_some]
  | none =>
    have hunit := isUnit_toNat c
    rw [isUnit, Bool.or_eq_false_iff] at hunit
    rw [code_of_none h, hunit.1, Option.any_none]

theorem isLow_code (c : Char) : isLow (code c) = (unit? c).any isLow := by
  cases h : unit? c with
  | some n => rw [code_of_some h, Option.any_some]
  | none =>
    have hunit := isUnit_toNat c
    rw [isUnit, Bool.or_eq_false_iff] at hunit
    rw [code_of_none h, hunit.2, Option.any_none]

theorem le_of_held? (h : held? c d = some n) : 0x10000 ≤ n := by
  obtain ⟨high, low, -, -, -, -, hn, -⟩ := held?_eq_some h
  exact hn ▸ le_pair high low

/-- The first code is that of the first character, unless it is one of a pair. -/
theorem exists_codes_cons (c : Char) (cs : List Char) :
    ∃ n ns, codes (c :: cs) = n :: ns ∧ (n = code c ∨ 0x10000 ≤ n) := by
  cases cs with
  | nil => exact ⟨_, _, rfl, .inl rfl⟩
  | cons d cs =>
    rw [codes]
    split
    · exact ⟨_, _, rfl, .inr (le_of_held? ‹_›)⟩
    · exact ⟨_, _, rfl, .inl rfl⟩

/-- The codes of an unpaired text are apart. -/
theorem Unpaired.codes (h : Unpaired cs) : (codes cs).IsChain Apart := by
  fun_induction Units.codes cs with
  | case1 => exact .nil
  | case2 c => exact .singleton _
  | case3 c d rest n hheld ih =>
    refine List.IsChain.cons (ih (List.isChain_cons.mp (List.isChain_cons.mp h).2).2) ?_
    exact fun m _ => apart_of_left (isHigh_eq_false_of_le (le_of_held? hheld))
  | case4 c d rest hheld ih =>
    obtain ⟨hhead, htail⟩ := List.isChain_cons.mp h
    refine List.IsChain.cons (ih htail) fun m hm => ?_
    obtain ⟨k, ks, hcodes, hk⟩ := exists_codes_cons d rest
    rw [hcodes, List.head?_cons, Option.mem_some_iff] at hm
    subst hm
    obtain rfl | hwide := hk
    · have hpair := hhead d rfl
      rwa [isPair, hheld, Option.isNone_none, Bool.and_true, ← isHigh_code, ← isLow_code] at hpair
    · exact apart_of_right (isLow_eq_false_of_le hwide)

/-! ### The text of some codes -/

theorem unit?_ofNat (h : isStead n = false) : unit? (Char.ofNat n) = none := by
  refine unit?_of_isStead ?_
  by_cases hvalid : n.isValidChar
  · rw [Char.ofNat, dif_pos hvalid]
    exact h
  · -- a number that is no code point becomes the null character
    rw [Char.ofNat, dif_neg hvalid]
    rfl

/-- How a code is held, and what its first and last characters stand for. -/
inductive Held (n : Nat) : Prop
  | unit (hunit : isUnit n = true) (h : held n = [alone n])
  | stead (hstead : isStead n = true) (h : held n = [alone (first n), alone (second n)])
  | character (hunit : isUnit n = false) (hnone : unit? (Char.ofNat n) = none)
      (h : held n = [Char.ofNat n])

theorem held_cases (n : Nat) : Held n := by
  cases hunit : isUnit n with
  | true => exact .unit hunit (held_of_isUnit hunit)
  | false =>
    cases hstead : isStead n with
    | true => exact .stead hstead (held_of_isStead hstead)
    | false => exact .character hunit (unit?_ofNat hstead) (held_of_character hunit hstead)

theorem unit?_first (h : isStead n = true) : unit? (alone (first n)) = some (first n) :=
  unit?_alone (isUnit_of_isHigh (isHigh_first (lt_of_isStead h)))

theorem unit?_second (n : Nat) : unit? (alone (second n)) = some (second n) :=
  unit?_alone (isUnit_of_isLow (isLow_second n))

theorem held?_of_units (hc : unit? c = some m) (hd : unit? d = some n) :
    held? c d = if isHigh m && isLow n && isStead (pair m n) then some (pair m n) else none := by
  unfold held?
  rw [hc, hd]

/-- The two characters that hold a code point are held together. -/
theorem held?_stead (h : isStead n = true) :
    held? (alone (first n)) (alone (second n)) = some n := by
  have hpair : pair (first n) (second n) = n := pair_first_second (le_of_isStead h)
  have hboth : (isHigh (first n) && isLow (second n) && isStead n) = true := by
    rw [isHigh_first (lt_of_isStead h), isLow_second, h]
    rfl
  rw [held?_of_units (unit?_first h) (unit?_second n), hpair, if_pos hboth]

/-- If the first character that holds a code stands for the second unit of a pair, so does the
code. -/
theorem isLow_of_head (hc : c ∈ (held n).head?) (h : (unit? c).any isLow = true) :
    isLow n = true := by
  cases held_cases n with
  | unit hunit hheld =>
    rw [hheld] at hc
    obtain rfl := Option.some.inj hc
    rwa [unit?_alone hunit] at h
  | stead hstead hheld =>
    rw [hheld] at hc
    obtain rfl := Option.some.inj hc
    rw [unit?_first hstead, Option.any_some,
      isLow_eq_false_of_isHigh (isHigh_first (lt_of_isStead hstead))] at h
    cases h
  | character _ hnone hheld =>
    rw [hheld] at hc
    obtain rfl := Option.some.inj hc
    rw [hnone] at h
    cases h

/-- If the last character that holds a code stands for the first unit of a pair, so does the
code. -/
theorem isHigh_of_last (hc : c ∈ (held n).getLast?) (h : (unit? c).any isHigh = true) :
    isHigh n = true := by
  cases held_cases n with
  | unit hunit hheld =>
    rw [hheld, List.getLast?_singleton, Option.mem_some_iff] at hc
    rwa [← hc, unit?_alone hunit] at h
  | stead _ hheld =>
    rw [hheld, List.getLast?_cons_cons, List.getLast?_singleton, Option.mem_some_iff] at hc
    rw [← hc, unit?_second, Option.any_some, isHigh_eq_false_of_isLow (isLow_second n)] at h
    cases h
  | character _ hnone hheld =>
    rw [hheld, List.getLast?_singleton, Option.mem_some_iff] at hc
    rw [← hc, hnone] at h
    cases h

theorem held_ne_nil (n : Nat) : held n ≠ [] := by
  cases held_cases n with
  | unit _ h => exact h ▸ List.cons_ne_nil _ _
  | stead _ h => exact h ▸ List.cons_ne_nil _ _
  | character _ _ h => exact h ▸ List.cons_ne_nil _ _

theorem unpaired_held (n : Nat) : Unpaired (held n) := by
  cases held_cases n with
  | unit _ h => exact h ▸ unpaired_singleton _
  | stead hstead h =>
    rw [h]
    refine List.isChain_cons_cons.mpr ⟨?_, unpaired_singleton _⟩
    rw [isPair, held?_stead hstead, Option.isNone_some, Bool.and_false]
  | character _ _ h => exact h ▸ unpaired_singleton _

/-- The first character of the text of some codes is that of the first of them. -/
theorem exists_head_of_held (h : d ∈ (ns.flatMap held).head?) :
    ∃ m ∈ ns.head?, d ∈ (held m).head? := by
  cases ns with
  | nil => cases h
  | cons m ns =>
    rw [List.flatMap_cons, List.head?_append_of_ne_nil _ (held_ne_nil m)] at h
    exact ⟨m, rfl, h⟩

/-- What follows a code that is apart from it does not pair with it. -/
theorem not_pair_of_apart (hhead : ∀ m ∈ ns.head?, Apart n m) (hc : c ∈ (held n).getLast?)
    (hd : d ∈ (ns.flatMap held).head?) :
    ((unit? c).any isHigh && (unit? d).any isLow) = false := by
  obtain ⟨m, hm, hdm⟩ := exists_head_of_held hd
  refine Bool.eq_false_iff.mpr fun hboth => ?_
  obtain ⟨hhigh, hlow⟩ := Bool.and_eq_true_iff.mp hboth
  have hapart := hhead m hm
  rw [Apart, isHigh_of_last hc hhigh, isLow_of_head hdm hlow] at hapart
  cases hapart

/-- **The text of codes that are apart is unpaired.** -/
theorem unpaired_ofCodes (h : ns.IsChain Apart) : Unpaired (ofCodes ns).toList := by
  rw [ofCodes, String.toList_ofList]
  induction ns with
  | nil => exact unpaired_nil
  | cons n ns ih =>
    obtain ⟨hhead, htail⟩ := List.isChain_cons.mp h
    rw [List.flatMap_cons]
    refine List.IsChain.append (unpaired_held n) (ih htail) fun c hc d hd => ?_
    rw [isPair, not_pair_of_apart hhead hc hd, Bool.false_and]

theorem toNat_ofNat (hunit : isUnit n = false) (h : n < 0x110000) : (Char.ofNat n).toNat = n := by
  have hvalid : n.isValidChar := by
    have hno : ¬ (0xd800 ≤ n ∧ n < 0xe000) := mt isUnit_iff.mpr (Bool.eq_false_iff.mp hunit)
    unfold Nat.isValidChar
    omega
  rw [Char.ofNat, dif_pos hvalid]
  rfl

/-- Codes that are apart are read off their text one by one. -/
theorem codes_held_append (hn : n < 0x110000) (hhead : ∀ m ∈ ns.head?, Apart n m) :
    codes (held n ++ ns.flatMap held) = n :: codes (ns.flatMap held) := by
  have hapart := fun c hc d hd => not_pair_of_apart (c := c) (d := d) hhead hc hd
  cases held_cases n with
  | stead hstead h =>
    rw [h, List.cons_append, List.singleton_append, codes, held?_stead hstead]
  | unit hunit h =>
    rw [h, List.singleton_append]
    have hcode : code (alone n) = n := code_of_some (unit?_alone hunit)
    cases hrest : ns.flatMap held with
    | nil => exact congrArg (fun k => [k]) hcode
    | cons d rest =>
      have hnone : held? (alone n) d = none := by
        cases hheld : held? (alone n) d with
        | none => rfl
        | some m =>
          obtain ⟨high, low, hc, hd, hhigh, hlow, -, -⟩ := held?_eq_some hheld
          have hno := hapart (alone n) (h ▸ rfl) d (hrest ▸ rfl)
          rw [hc, hd, Option.any_some, Option.any_some, hhigh, hlow] at hno
          cases hno
      rw [codes, hnone, hcode]
  | character hunit hnone h =>
    rw [h, List.singleton_append]
    have hcode : code (Char.ofNat n) = n := by
      rw [code_of_none hnone, toNat_ofNat hunit hn]
    cases ns.flatMap held with
    | nil => exact congrArg (fun k => [k]) hcode
    | cons d rest =>
      have hheld : held? (Char.ofNat n) d = none := by
        unfold held?
        rw [hnone]
      rw [codes, hheld, hcode]

/-- **Codes that are apart are held by a text.** -/
theorem codes_ofCodes (h : ns.IsChain Apart) (hlt : ∀ n ∈ ns, n < 0x110000) :
    codes (ofCodes ns).toList = ns := by
  rw [ofCodes, String.toList_ofList]
  induction ns with
  | nil => rfl
  | cons n ns ih =>
    obtain ⟨hhead, htail⟩ := List.isChain_cons.mp h
    obtain ⟨hn, hns⟩ := List.forall_mem_cons.mp hlt
    rw [List.flatMap_cons, codes_held_append hn hhead, ih htail hns]

/-! ### Characters and joined units -/

theorem apart_toNat (c : Char) : Apart c.toNat n := by
  have hunit := isUnit_toNat c
  rw [isUnit, Bool.or_eq_false_iff] at hunit
  exact apart_of_left hunit.1

theorem isChain_map_toNat (cs : List Char) : (cs.map Char.toNat).IsChain Apart := by
  induction cs with
  | nil => exact .nil
  | cons c cs ih => exact List.IsChain.cons ih fun m _ => apart_toNat c

/-- **A text of characters is unpaired.** -/
theorem unpaired_ofChars (cs : List Char) : Unpaired (ofChars cs).toList :=
  unpaired_ofCodes (isChain_map_toNat cs)

/-- **Every list of characters is held by a text.** -/
theorem codes_ofChars (cs : List Char) : codes (ofChars cs).toList = cs.map Char.toNat :=
  codes_ofCodes (isChain_map_toNat cs) (List.forall_mem_map.mpr fun c _ => toNat_lt c)

/-- What may stand in the place of a character: the character, or others that are no units. -/
def Image (c : Char) (cs : List Char) : Prop := cs = [c] ∨ cs ≠ [] ∧ Clear cs

theorem image_self (c : Char) : Image c [c] := .inl rfl

theorem image_of_clear (hne : cs ≠ []) (h : Clear cs) : Image c cs := .inr ⟨hne, h⟩

theorem Image.unpaired (h : Image c cs) : Unpaired cs := by
  obtain rfl | ⟨-, h⟩ := h
  · exact unpaired_singleton c
  · exact h.unpaired

/-- What does not pair with a character does not pair with the images of what it stands before. -/
theorem isPair_head_of_image {css : List (List Char)} (h : List.Forall₂ Image cs css)
    (hpair : ∀ d ∈ cs.head?, isPair c d = false) : ∀ d ∈ css.flatten.head?, isPair c d = false := by
  cases h with
  | nil => exact fun d hd => nomatch hd
  | cons himage _ =>
    intro d hd
    obtain rfl | ⟨hne, hclear⟩ := himage
    · exact hpair d hd
    · rw [List.flatten_cons, List.head?_append_of_ne_nil _ hne] at hd
      exact isPair_of_right (hclear d (List.mem_of_mem_head? hd))

/-- A text with images in the place of its characters is unpaired if it was. -/
theorem Unpaired.flatten {css : List (List Char)} (h : Unpaired cs)
    (himages : List.Forall₂ Image cs css) : Unpaired css.flatten := by
  induction himages with
  | nil => exact unpaired_nil
  | cons himage hrest ih =>
    obtain ⟨hhead, htail⟩ := List.isChain_cons.mp h
    rw [List.flatten_cons]
    refine List.IsChain.append himage.unpaired (ih htail) fun x hx y hy => ?_
    obtain rfl | ⟨-, hclear⟩ := himage
    · rw [List.getLast?_singleton, Option.mem_some_iff] at hx
      exact hx ▸ isPair_head_of_image hrest hhead y hy
    · exact isPair_of_left (hclear x (List.mem_of_mem_getLast? hx))

theorem Unpaired.flatMap {f : Char → List Char} (h : Unpaired cs) (hf : ∀ c, Image c (f c)) :
    Unpaired (cs.flatMap f) := by
  have himages : List.Forall₂ Image cs (cs.map f) := by
    rw [List.forall₂_map_right_iff, List.forall₂_same]
    exact fun c _ => hf c
  exact h.flatten himages

end GatewayDocs.Units

/-! ### Letters in another case -/

namespace GatewayDocs.Text
open GatewayDocs.Units
variable {c : Char} {cs before : List Char} {s : String} {n : Nat}

/-- What holds of the first code points holds of every character of ASCII. -/
theorem forall_ascii {p : Char → Bool} (h : ((List.range 0x80).all fun n => p (.ofNat n)) = true)
    (hc : c.toNat < 0x80) : p c = true := by
  have := List.all_eq_true.mp h c.toNat (List.mem_range.mpr hc)
  rwa [Char.ofNat_toNat] at this

theorem clear_ofNat (h : n < raise) : Clear [Char.ofNat n] := by
  refine clear_of_lt fun c hc => Nat.lt_of_le_of_lt ?_ h
  rw [List.mem_singleton.mp hc]
  by_cases hvalid : n.isValidChar
  · rw [Char.ofNat, dif_pos hvalid]
    exact Nat.le_refl n
  · -- a number that is no code point becomes the null character
    rw [Char.ofNat, dif_neg hvalid]
    exact Nat.zero_le n

/-- Whether no row of offsets leads to characters that may stand for units. -/
def isLowRows (rows : List (Nat × Nat × Nat × Int)) : Bool :=
  rows.all fun (_, last, _, offset) => (last : Int) + offset < raise

theorem image_mapRow? {rows : List (Nat × Nat × Nat × Int)} (h : isLowRows rows = true) (c : Char) :
    Image c [((mapRow? rows c.toNat).map Char.ofNat).getD c] := by
  cases hrow : mapRow? rows c.toNat with
  | none => exact image_self c
  | some n =>
    obtain ⟨⟨first, last, step, offset⟩, hmem, hn⟩ := List.exists_of_findSome?_eq_some hrow
    have hlow : (last : Int) + offset < raise := of_decide_eq_true (List.all_eq_true.mp h _ hmem)
    have hraise : 0 < raise := by decide
    dsimp only at hn
    split at hn
    · obtain rfl := Option.some.inj hn
      exact image_of_clear (List.cons_ne_nil _ _) (clear_ofNat (by omega))
    · cases hn

theorem upperSequences_low : (upperSequences.all fun row =>
    !row.2.isEmpty && row.2.all fun n => n < raise) = true := by decide +kernel

theorem image_upperSequence {ns : List Nat} (h : upperSequences.lookup n = some ns) (c : Char) :
    Image c (ns.map Char.ofNat) := by
  obtain ⟨before, after, hsplit, -⟩ := List.lookup_eq_some_iff.mp h
  have hrow := List.all_eq_true.mp upperSequences_low (n, ns) (hsplit ▸ List.mem_append_right _
    List.mem_cons_self)
  obtain ⟨hne, hall⟩ := Bool.and_eq_true_iff.mp hrow
  refine image_of_clear (fun hnil => ?_) fun d hd => ?_
  · rw [List.map_eq_nil_iff.mp hnil] at hne
    cases hne
  · obtain ⟨m, hm, rfl⟩ := List.mem_map.mp hd
    exact clear_ofNat (of_decide_eq_true (List.all_eq_true.mp hall m hm)) _ List.mem_cons_self

theorem image_upperChar (c : Char) : Image c (upperChar c) := by
  unfold upperChar
  split
  · refine image_of_clear (List.cons_ne_nil _ _) (clear_of_lt fun d hd => ?_)
    rw [List.mem_singleton.mp hd]
    exact of_decide_eq_true
      (forall_ascii (p := fun c => c.toUpper.toNat < raise) (by decide +kernel) ‹_›)
  · split
    · exact image_upperSequence ‹_› c
    · exact image_mapRow? (by decide +kernel) c

theorem image_lowerChar (c : Char) : Image c (lowerChar c) := by
  unfold lowerChar
  split
  · refine image_of_clear (List.cons_ne_nil _ _) (clear_of_lt fun d hd => ?_)
    rw [List.mem_singleton.mp hd]
    exact of_decide_eq_true
      (forall_ascii (p := fun c => c.toLower.toNat < raise) (by decide +kernel) ‹_›)
  · split
    · exact image_of_clear (List.cons_ne_nil _ _) (by decide)
    · exact image_mapRow? (by decide +kernel) c

/-- Small letters are put in the place of the characters of a text one by one. -/
theorem exists_images_lowerFrom (before cs : List Char) :
    ∃ css, List.Forall₂ Image cs css ∧ lowerFrom before cs = css.flatten := by
  induction cs generalizing before with
  | nil => exact ⟨[], .nil, rfl⟩
  | cons c cs ih =>
    obtain ⟨css, himages, hrest⟩ := ih (c :: before)
    rw [lowerFrom, hrest]
    refine ⟨_ :: css, .cons ?_ himages, rfl⟩
    split
    · split
      · exact image_of_clear (List.cons_ne_nil _ _) (by decide)
      · exact image_of_clear (List.cons_ne_nil _ _) (by decide)
    · exact image_lowerChar c

theorem unpaired_upper (h : Unpaired s.toList) : Unpaired (upper s).toList := by
  rw [upper, String.toList_ofList]
  exact h.flatMap image_upperChar

theorem unpaired_lower (h : Unpaired s.toList) : Unpaired (lower s).toList := by
  obtain ⟨css, himages, hlower⟩ := exists_images_lowerFrom [] s.toList
  rw [lower, String.toList_ofList, hlower]
  exact h.flatten himages

theorem unpaired_upperFirst (h : Unpaired cs) : Unpaired (upperFirst cs) := by
  cases cs with
  | nil => exact h
  | cons c cs =>
    have himages : List.Forall₂ Image cs (cs.map fun c => [c]) := by
      rw [List.forall₂_map_right_iff, List.forall₂_same]
      exact fun c _ => image_self c
    have hflat : (cs.map fun c => [c]).flatten = cs := List.flatMap_singleton' cs
    have hall := h.flatten (.cons (image_upperChar c) himages)
    rwa [List.flatten_cons, hflat] at hall

/-! ### Quoted texts -/

theorem lt_of_digitValue_lt (h : Decimal.digitValue c < 36) : c.toNat < raise := by
  unfold Decimal.digitValue at h
  split at h
  · exact lt_raise_of_le (And.right ‹_›) (by decide)
  · split at h
    · exact lt_raise_of_le (And.right ‹_›) (by decide)
    · split at h
      · exact lt_raise_of_le (And.right ‹_›) (by decide)
      · exact absurd h (by decide)

theorem clear_hexDigits (width n : Nat) : Clear (Decimal.hexDigits width n) := by
  refine clear_of_lt fun c hc => ?_
  rcases List.mem_append.mp hc with hzero | hdigit
  · rw [(List.mem_replicate.mp hzero).2]
    decide
  · have hvalue := Decimal.digitValue_lt_of_mem_digits (by decide) (by decide) n c hdigit
    exact lt_of_digitValue_lt (Nat.lt_trans hvalue (by decide))

theorem clear_natDigits (n : Nat) : Clear (Decimal.natDigits n) := clear_of_lt fun c hc =>
  lt_of_digitValue_lt
    (Nat.lt_trans (Decimal.digitValue_lt_of_mem_digits (by decide) (by decide) n c hc) (by decide))

theorem clear_intText (n : Int) : Clear (Decimal.intText n).toList := by
  rw [Decimal.intText, String.toList_ofList]
  cases n with
  | ofNat n => exact clear_natDigits n
  | negSucc n =>
    have hsign : Clear ['-'] := by decide
    exact hsign.append (clear_natDigits (n + 1))

/-- The characters in the stead of units are not shown as themselves. -/
theorem unit?_of_isPrintable (h : isPrintable c = true) : unit? c = none := by
  refine unit?_of_isStead (Bool.eq_false_iff.mpr fun hstead => ?_)
  have hcode := isStead_iff.mp hstead
  have hwide : ¬ c.toNat < 0x80 := by omega
  have hmem : ((0xe01f0, 0x10ffff) : Nat × Nat) ∈ hiddenRanges := by decide +kernel
  have hhidden : inRanges hiddenRanges c.toNat = true :=
    List.any_eq_true.mpr ⟨_, hmem, by simp only [Bool.and_eq_true, decide_eq_true_eq]; omega⟩
  rw [isPrintable, isMember, if_neg hwide, hhidden] at h
  cases h

theorem clear_escapeCode (n : Nat) : Clear (escapeCode n) := by
  unfold escapeCode
  split
  · exact Clear.append (by decide) (clear_hexDigits _ _)
  · split
    · exact Clear.append (by decide) (clear_hexDigits _ _)
    · exact Clear.append (by decide) (clear_hexDigits _ _)

theorem clear_quoteChar {quote : Char} (hquote : Clear [quote]) (c : Char) :
    Clear (quoteChar quote c) := by
  have hmark : Clear ['\\'] := by decide
  unfold quoteChar
  split
  · rename_i hc
    rw [Bool.or_eq_true, decide_eq_true_eq, decide_eq_true_eq] at hc
    obtain rfl | rfl := hc
    · exact hmark.append hquote
    · exact hmark.append hmark
  iterate 3
    split
    · decide
  split
  · exact List.forall_mem_singleton.mpr (unit?_of_isPrintable ‹_›)
  · exact clear_escapeCode _

/-- A quoted text shows units by escapes. -/
theorem clear_quoted (s : String) : Clear (quoted s).toList := by
  have hquote : Clear [quoteFor s.toList] := by
    unfold quoteFor
    split
    · decide
    · decide
  have hcode : ∀ n, Clear (quoteCode (quoteFor s.toList) n) := by
    intro n
    unfold quoteCode
    split
    · exact clear_escapeCode n
    · exact clear_quoteChar hquote _
  rw [quoted, String.toList_ofList]
  refine Clear.append (Clear.append hquote ?_) hquote
  intro c hc
  obtain ⟨n, -, hmem⟩ := List.mem_flatMap.mp hc
  exact hcode n c hmem

end GatewayDocs.Text
