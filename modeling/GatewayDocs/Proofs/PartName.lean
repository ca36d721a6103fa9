import GatewayDocs.Template.Naming
import Mathlib.Data.List.DropRight

/-! # Names of parts of paths

Braces are looked for line by line.  On a line, the first opening brace that a closing one follows
is paired with the last closing brace (`markVariables_paired`), and as no closing brace is left
behind that, at most one pair is marked on a line (`markVariables_unclosed`).  So the name of a part
is made of the names of its lines (`partName_lines`), and that of a line is told by its last closing
brace and by whether this comes after the first opening one (`lineName`). -/

namespace GatewayDocs.Naming
open Text

variable {cs line rest before inside after : List Char}

/-- The letters and digits of a text. -/
def letters (cs : List Char) : List Char := cs.filter isAsciiAlnum

theorem letters_append (xs ys : List Char) : letters (xs ++ ys) = letters xs ++ letters ys :=
  List.filter_append xs ys

theorem letters_opening (cs : List Char) : letters ('\x7b' :: cs) = letters cs := rfl

theorem letters_mark : letters "Var".toList = "Var".toList := rfl

/-- A line ends here: the text is over, or another line begins. -/
def LineEnds (rest : List Char) : Prop := ∀ c ∈ rest.head?, c = '\n'

/-! ### Braces on a line -/

theorem markVariables_cons_of_ne {c : Char} (hc : c ≠ '\x7b') :
    markVariables (c :: cs) = c :: markVariables cs := by
  rw [markVariables, if_neg hc]

theorem markVariables_of_split (h : splitAtLastBrace cs = some (inside, after)) :
    markVariables ('\x7b' :: cs) = inside ++ "Var".toList ++ markVariables after := by
  rw [markVariables, if_pos rfl]
  split
  · rename_i hsome
    cases h.symm.trans hsome
    rfl
  · rename_i hnone
    cases h.symm.trans hnone

theorem markVariables_of_no_split (h : splitAtLastBrace cs = none) :
    markVariables ('\x7b' :: cs) = '\x7b' :: markVariables cs := by
  rw [markVariables, if_pos rfl]
  split
  · rename_i hsome
    cases h.symm.trans hsome
  · rfl

theorem splitAtLastBrace_of_lineEnds (h : LineEnds rest) : splitAtLastBrace rest = none := by
  cases rest with
  | nil => rfl
  | cons c rest => rw [splitAtLastBrace, if_pos (h c rfl)]

/-- A line without a closing brace is not split. -/
theorem splitAtLastBrace_unclosed (hline : '\n' ∉ line) (hclosing : '\x7d' ∉ line)
    (h : LineEnds rest) : splitAtLastBrace (line ++ rest) = none := by
  induction line with
  | nil => exact splitAtLastBrace_of_lineEnds h
  | cons c line ih =>
    obtain ⟨hc, hline⟩ := List.ne_and_not_mem_of_not_mem_cons hline
    obtain ⟨hb, hclosing⟩ := List.ne_and_not_mem_of_not_mem_cons hclosing
    rw [List.cons_append, splitAtLastBrace, if_neg hc.symm, ih hline hclosing]
    exact if_neg hb.symm

/-- A line is split at its last closing brace. -/
theorem splitAtLastBrace_closed (hinside : '\n' ∉ inside) (hafter : '\n' ∉ after)
    (hclosing : '\x7d' ∉ after) (h : LineEnds rest) :
    splitAtLastBrace (inside ++ '\x7d' :: (after ++ rest)) = some (inside, after ++ rest) := by
  induction inside with
  | nil =>
    rw [List.nil_append, splitAtLastBrace, if_neg (by decide),
      splitAtLastBrace_unclosed hafter hclosing h]
    exact if_pos rfl
  | cons c inside ih =>
    obtain ⟨hc, hinside⟩ := List.ne_and_not_mem_of_not_mem_cons hinside
    rw [List.cons_append, splitAtLastBrace, if_neg hc.symm, ih hinside]

/-- Nothing is marked before the first opening brace. -/
theorem markVariables_unopened (hopening : '\x7b' ∉ before) :
    markVariables (before ++ cs) = before ++ markVariables cs := by
  induction before with
  | nil => rfl
  | cons c before ih =>
    obtain ⟨hc, hopening⟩ := List.ne_and_not_mem_of_not_mem_cons hopening
    rw [List.cons_append, markVariables_cons_of_ne hc.symm, ih hopening, List.cons_append]

/-- Nothing is marked where no closing brace follows. -/
theorem markVariables_unclosed (hline : '\n' ∉ line) (hclosing : '\x7d' ∉ line)
    (h : LineEnds rest) : markVariables (line ++ rest) = line ++ markVariables rest := by
  induction line with
  | nil => rfl
  | cons c line ih =>
    have hline' := List.not_mem_of_not_mem_cons hline
    have hclosing' := List.not_mem_of_not_mem_cons hclosing
    rw [List.cons_append]
    by_cases hc : c = '\x7b'
    · subst hc
      rw [markVariables_of_no_split (splitAtLastBrace_unclosed hline' hclosing' h),
        ih hline' hclosing', List.cons_append]
    · rw [markVariables_cons_of_ne hc, ih hline' hclosing', List.cons_append]

/-- The first opening brace and the last closing brace of a line are a pair. -/
theorem markVariables_paired (hopening : '\x7b' ∉ before) (hinside : '\n' ∉ inside)
    (hafter : '\n' ∉ after) (hclosing : '\x7d' ∉ after) (h : LineEnds rest) :
    markVariables (before ++ '\x7b' :: (inside ++ '\x7d' :: (after ++ rest))) =
      before ++ (inside ++ "Var".toList ++ (after ++ markVariables rest)) := by
  rw [markVariables_unopened hopening,
    markVariables_of_split (splitAtLastBrace_closed hinside hafter hclosing h),
    markVariables_unclosed hafter hclosing h]

/-! ### The name of a line -/

/-- What stands before the last closing brace. -/
def beforeLastBrace (line : List Char) : List Char := (line.rdropWhile (· ≠ '\x7d')).dropLast

/-- What stands after the last closing brace. -/
def afterLastBrace (line : List Char) : List Char := line.rtakeWhile (· ≠ '\x7d')

/-- The name of a line: its letters and digits, and a mark in the place of the last closing brace,
if one comes after the first opening brace. -/
def lineName (line : List Char) : List Char :=
  if '\x7d' ∈ line.dropWhile (· ≠ '\x7b') then
    letters (beforeLastBrace line) ++ "Var".toList ++ letters (afterLastBrace line)
  else letters line

theorem lastBrace_eq (inside : List Char) (hclosing : '\x7d' ∉ after) :
    beforeLastBrace (inside ++ '\x7d' :: after) = inside ∧
      afterLastBrace (inside ++ '\x7d' :: after) = after := by
  have hall : ∀ c ∈ after.reverse, decide (c ≠ '\x7d') = true := fun c hc =>
    decide_eq_true fun he => hclosing (he ▸ List.mem_reverse.mp hc)
  have hreverse : (inside ++ '\x7d' :: after).reverse =
      after.reverse ++ '\x7d' :: inside.reverse := by
    rw [List.reverse_append, List.reverse_cons, List.append_assoc, List.singleton_append]
  constructor
  · rw [beforeLastBrace, List.rdropWhile, hreverse, List.dropWhile_append_of_pos hall,
      List.dropWhile_cons_of_neg (by decide), List.reverse_cons, List.reverse_reverse,
      List.dropLast_concat]
  · rw [afterLastBrace, List.rtakeWhile, hreverse, List.takeWhile_append_of_pos hall,
      List.takeWhile_cons_of_neg (by decide), List.append_nil, List.reverse_reverse]

/-- A text with a closing brace, cut at the last one. -/
theorem exists_lastBrace (h : '\x7d' ∈ cs) :
    ∃ inside after, cs = inside ++ '\x7d' :: after ∧ '\x7d' ∉ after := by
  obtain ⟨before, after, hreverse, hbefore⟩ :=
    List.eq_append_cons_of_mem (List.mem_reverse.mpr h)
  refine ⟨after.reverse, before.reverse, ?_, fun hmem => hbefore (List.mem_reverse.mp hmem)⟩
  rw [← List.reverse_reverse cs, hreverse, List.reverse_append, List.reverse_cons,
    List.append_assoc, List.singleton_append]

theorem dropWhile_before (hopening : '\x7b' ∉ before) :
    (before ++ cs).dropWhile (· ≠ '\x7b') = cs.dropWhile (· ≠ '\x7b') :=
  List.dropWhile_append_of_pos fun _ hc => decide_eq_true fun he => hopening (he ▸ hc)

theorem lineName_unopened (hopening : '\x7b' ∉ line) : lineName line = letters line := by
  have hdrop : line.dropWhile (· ≠ '\x7b') = [] := by
    rw [← List.append_nil line, dropWhile_before hopening]
    rfl
  rw [lineName, hdrop, if_neg List.not_mem_nil]

theorem lineName_unclosed (hopening : '\x7b' ∉ before) (hclosing : '\x7d' ∉ after) :
    lineName (before ++ '\x7b' :: after) = letters before ++ letters after := by
  have hnone : '\x7d' ∉ '\x7b' :: after := List.not_mem_cons_of_ne_of_not_mem (by decide) hclosing
  rw [lineName, dropWhile_before hopening, List.dropWhile_cons_of_neg (by decide), if_neg hnone,
    letters_append, letters_opening]

theorem lineName_paired (hopening : '\x7b' ∉ before) (hclosing : '\x7d' ∉ after) :
    lineName (before ++ '\x7b' :: (inside ++ '\x7d' :: after)) =
      letters before ++ letters inside ++ "Var".toList ++ letters after := by
  have hsome : '\x7d' ∈ '\x7b' :: (inside ++ '\x7d' :: after) :=
    List.mem_cons_of_mem _ List.mem_append_cons_self
  obtain ⟨hbefore, hafter⟩ := lastBrace_eq (before ++ '\x7b' :: inside) hclosing
  rw [List.append_assoc, List.cons_append] at hbefore hafter
  rw [lineName, dropWhile_before hopening, List.dropWhile_cons_of_neg (by decide), if_pos hsome,
    hbefore, hafter, letters_append, letters_opening]

/-- The letters and digits of a line that is marked are its name. -/
theorem letters_markVariables_append (hline : '\n' ∉ line) (h : LineEnds rest) :
    letters (markVariables (line ++ rest)) = lineName line ++ letters (markVariables rest) := by
  by_cases hopening : '\x7b' ∈ line
  · obtain ⟨before, tail, rfl, hbefore⟩ := List.eq_append_cons_of_mem hopening
    have htail : '\n' ∉ tail := fun hmem =>
      hline (List.mem_append_right _ (List.mem_cons_of_mem _ hmem))
    by_cases hclosing : '\x7d' ∈ tail
    · obtain ⟨inside, after, rfl, hafter⟩ := exists_lastBrace hclosing
      have hlast : '\n' ∉ after := fun hmem =>
        htail (List.mem_append_right _ (List.mem_cons_of_mem _ hmem))
      have hmarked := markVariables_paired hbefore (fun hmem => htail (List.mem_append_left _ hmem))
        hlast hafter h
      rw [lineName_paired hbefore hafter, List.append_assoc, List.cons_append, List.append_assoc,
        List.cons_append, hmarked]
      simp only [letters_append, letters_mark, List.append_assoc]
    · have hnone : '\x7d' ∉ '\x7b' :: tail :=
        List.not_mem_cons_of_ne_of_not_mem (by decide) hclosing
      have hmarked := markVariables_unclosed (fun hmem => hline (List.mem_append_right _ hmem))
        hnone h
      rw [lineName_unclosed hbefore hclosing, List.append_assoc, markVariables_unopened hbefore,
        hmarked]
      simp only [letters_append, letters_opening, List.append_assoc]
  · rw [lineName_unopened hopening, markVariables_unopened hopening, letters_append]

/-! ### The name of a part -/

/-- The letters and digits of a text that is marked are the names of its lines. -/
theorem letters_markVariables (cs : List Char) :
    letters (markVariables cs) = (cs.splitOn '\n').flatMap lineName := by
  by_cases hbreak : '\n' ∈ cs
  · obtain ⟨line, rest, hcs, hline⟩ := List.eq_append_cons_of_mem hbreak
    have hends : LineEnds ('\n' :: rest) := fun c hc => (Option.some.inj hc).symm
    have hrest := letters_markVariables rest
    rw [hcs, letters_markVariables_append hline hends, markVariables_cons_of_ne (by decide),
      List.splitOn_append_cons_self_of_not_mem hline, List.flatMap_cons, ← hrest]
    rfl
  · have hends : LineEnds [] := nofun
    have hwhole := letters_markVariables_append hbreak hends
    rw [List.append_nil] at hwhole
    rw [hwhole, List.splitOn_eq_singleton hbreak, List.flatMap_singleton, markVariables]
    exact List.append_nil _
termination_by cs.length
decreasing_by
  rw [hcs, List.length_append, List.length_cons]
  omega

/-- Every hyphen spelled out. -/
def spellHyphens (cs : List Char) : List Char :=
  cs.flatMap fun c => if c = '-' then "Dash".toList else [c]

/-- Spelling out hyphens does not bring plus signs in. -/
theorem spell_eq (cs : List Char) : spell cs = (spellHyphens cs).filter (· ≠ '+') := by
  rw [spell, spellHyphens, List.filter_flatMap]
  refine List.flatMap_congr fun c _ => ?_
  by_cases hhyphen : c = '-'
  · rw [if_pos hhyphen, if_pos hhyphen]
    rfl
  · by_cases hplus : c = '+' <;> simp [hhyphen, hplus]

/-- **The name of a part is told line by line.**  Hyphens are spelled out and plus signs dropped;
then every line gives its letters and digits, with a mark in the place of the last closing brace if
one comes after the first opening brace; and the first character of all is made a capital. -/
theorem partName_lines (part : String) : partName part = String.ofList (upperFirst
    ((((spellHyphens part.toList).filter (· ≠ '+')).splitOn '\n').flatMap lineName)) := by
  rw [partName, partNameChars, spell_eq, ← letters_markVariables]
  rfl

/-- Braces out of order, two pairs on one line, and a pair that is not on one line. -/
example : partName "\x7d-\x7ba\x7d\x7bb\x7d\x7b+\n\x7bc\n\x7d" = "DashabVarc" := by
  decide +kernel

end GatewayDocs.Naming
