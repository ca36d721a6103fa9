import GatewayDocs.Compile
import GatewayDocs.Proofs.PartName
import GatewayDocs.Proofs.Units

/-! # Names of paths

The name of a path is made of the names of its parts, one after the other, so that a slash between
two paths does not show (`pathNameChars_append`) and neither do slashes around them
(`pathNameChars_slashes`, `pathNameChars_append_slashes`).  It consists of letters and digits that
start with a capital or a digit, and is the name of itself (`pathNameChars_pathNameChars`).

An event is found in a description by its documented path and in a template by the path that it was
given; these differ by slashes at the ends alone, so the logical ids are the same
(`logicalId_of_spelling`). -/

namespace GatewayDocs

namespace Text
variable {c : Char} {cs ds : List Char}

theorem toNat_lt_of_isAsciiAlnum (h : isAsciiAlnum c = true) : c.toNat < 0x80 := by
  simp only [isAsciiAlnum, isAsciiLetter, Bool.or_eq_true, Bool.and_eq_true,
    decide_eq_true_eq] at h
  obtain (⟨-, h⟩ | ⟨-, h⟩) | ⟨-, h⟩ := h
  all_goals exact Nat.lt_of_le_of_lt h (by decide)

/-- The capital of a letter or digit of ASCII is such, and its own capital. -/
theorem upperChar_of_isAsciiAlnum (h : isAsciiAlnum c = true) :
    upperChar c = [c.toUpper] ∧ isAsciiAlnum c.toUpper = true ∧
      upperChar c.toUpper = [c.toUpper] := by
  have hlt := toNat_lt_of_isAsciiAlnum h
  have hall := forall_ascii (p := fun c => !isAsciiAlnum c ||
    (isAsciiAlnum c.toUpper && c.toUpper.toUpper = c.toUpper)) (by decide +kernel) hlt
  rw [h, Bool.not_true, Bool.false_or, Bool.and_eq_true, decide_eq_true_eq] at hall
  obtain ⟨halnum, hupper⟩ := hall
  refine ⟨if_pos hlt, halnum, ?_⟩
  rw [upperChar, if_pos (toNat_lt_of_isAsciiAlnum halnum), hupper]

theorem upperFirst_append (hne : cs ≠ []) : upperFirst (cs ++ ds) = upperFirst cs ++ ds := by
  cases cs with
  | nil => exact absurd rfl hne
  | cons c cs => exact (List.append_assoc _ _ _).symm

theorem isAsciiAlnum_of_mem_upperFirst (h : ∀ c ∈ cs, isAsciiAlnum c = true)
    (hc : c ∈ upperFirst cs) : isAsciiAlnum c = true := by
  cases cs with
  | nil => cases hc
  | cons d cs =>
    obtain ⟨hd, hcs⟩ := List.forall_mem_cons.mp h
    obtain ⟨hupper, halnum, -⟩ := upperChar_of_isAsciiAlnum hd
    rw [upperFirst, hupper, List.singleton_append] at hc
    rcases List.mem_cons.mp hc with rfl | hc
    · exact halnum
    · exact hcs c hc

theorem upperFirst_upperFirst (h : ∀ c ∈ cs, isAsciiAlnum c = true) :
    upperFirst (upperFirst cs) = upperFirst cs := by
  cases cs with
  | nil => rfl
  | cons c cs =>
    obtain ⟨hupper, -, hagain⟩ := upperChar_of_isAsciiAlnum (h c List.mem_cons_self)
    rw [upperFirst, hupper, List.singleton_append, upperFirst, hagain, List.singleton_append]

/-- What is removed at the ends of a text are characters of the class. -/
theorem exists_of_trimBoth (p : Char → Bool) (cs : List Char) :
    ∃ front back, cs = front ++ (trimBoth p cs ++ back) ∧
      (∀ c ∈ front, p c = true) ∧ ∀ c ∈ back, p c = true := by
  refine ⟨cs.takeWhile p, ((cs.dropWhile p).reverse.takeWhile p).reverse, ?_,
    fun c => List.mem_takeWhile_imp, fun c hc => List.mem_takeWhile_imp (List.mem_reverse.mp hc)⟩
  rw [trimBoth, ← List.reverse_append, List.takeWhile_append_dropWhile, List.reverse_reverse,
    List.takeWhile_append_dropWhile]

end Text

namespace Naming
open Text
variable {c : Char} {cs front back : List Char}

/-! ### The characters of a name -/

theorem isAsciiAlnum_of_mem_letters (hc : c ∈ letters cs) : isAsciiAlnum c = true :=
  (List.mem_filter.mp hc).2

theorem isAsciiAlnum_of_mem_partNameChars (hc : c ∈ partNameChars cs) : isAsciiAlnum c = true :=
  isAsciiAlnum_of_mem_upperFirst (fun _ => isAsciiAlnum_of_mem_letters) hc

theorem isAsciiAlnum_of_mem_pathNameChars (hc : c ∈ pathNameChars cs) : isAsciiAlnum c = true := by
  obtain ⟨part, -, hmem⟩ := List.mem_flatMap.mp hc
  exact isAsciiAlnum_of_mem_partNameChars hmem

theorem upperFirst_partNameChars (cs : List Char) :
    upperFirst (partNameChars cs) = partNameChars cs :=
  upperFirst_upperFirst fun _ => isAsciiAlnum_of_mem_letters

/-- Names start with a capital or a digit, also one after the other. -/
theorem upperFirst_flatMap_partNameChars (parts : List (List Char)) :
    upperFirst (parts.flatMap partNameChars) = parts.flatMap partNameChars := by
  induction parts with
  | nil => rfl
  | cons part parts ih =>
    rw [List.flatMap_cons]
    by_cases hnone : partNameChars part = []
    · rw [hnone, List.nil_append, ih]
    · rw [upperFirst_append hnone, upperFirst_partNameChars]

/-- The name of letters and digits is what they are after a capital. -/
theorem partNameChars_of_isAsciiAlnum (h : ∀ c ∈ cs, isAsciiAlnum c = true) :
    partNameChars cs = upperFirst cs := by
  have hne : ∀ {d : Char}, isAsciiAlnum d = false → d ∉ cs := fun hd hmem => by
    rw [h _ hmem] at hd
    cases hd
  have hspell : spell cs = cs := by
    rw [spell]
    refine (List.flatMap_congr fun c hc => ?_).trans (List.flatMap_singleton' cs)
    have hhyphen : c ≠ '-' := fun he => hne (by decide) (he ▸ hc)
    have hplus : c ≠ '+' := fun he => hne (by decide) (he ▸ hc)
    rw [if_neg hhyphen, if_neg hplus]
  have hmark : markVariables cs = cs := by
    have hunopened : markVariables (cs ++ []) = cs ++ markVariables [] :=
      markVariables_unopened (hne (by decide))
    rwa [List.append_nil, markVariables, List.append_nil] at hunopened
  rw [partNameChars, hspell, hmark, List.filter_eq_self.mpr h]

/-! ### The parts of a path -/

theorem pathNameChars_append (xs ys : List Char) :
    pathNameChars (xs ++ '/' :: ys) = pathNameChars xs ++ pathNameChars ys := by
  rw [pathNameChars, pathParts, List.splitOn_append_cons_self, List.filter_append,
    List.flatMap_append]
  rfl

/-- A path without a slash is a part or nothing. -/
theorem pathNameChars_of_not_mem (h : '/' ∉ cs) : pathNameChars cs = partNameChars cs := by
  rw [pathNameChars, pathParts, List.splitOn_eq_singleton h]
  cases cs with
  | nil =>
    rw [partNameChars_of_isAsciiAlnum (List.forall_mem_nil _)]
    rfl
  | cons c cs => exact List.flatMap_singleton _ _

/-- **The name of a path is the name of itself.** -/
theorem pathNameChars_pathNameChars (cs : List Char) :
    pathNameChars (pathNameChars cs) = pathNameChars cs := by
  have hslash : '/' ∉ pathNameChars cs := fun hmem =>
    absurd (isAsciiAlnum_of_mem_pathNameChars hmem) (by decide)
  rw [pathNameChars_of_not_mem hslash,
    partNameChars_of_isAsciiAlnum fun _ => isAsciiAlnum_of_mem_pathNameChars]
  exact upperFirst_flatMap_partNameChars _

theorem pathNameChars_slashes (h : ∀ c ∈ front, c = '/') :
    pathNameChars (front ++ cs) = pathNameChars cs := by
  induction front with
  | nil => rfl
  | cons c front ih =>
    obtain ⟨rfl, hfront⟩ := List.forall_mem_cons.mp h
    exact (pathNameChars_append [] (front ++ cs)).trans (ih hfront)

theorem pathNameChars_append_slashes (h : ∀ c ∈ back, c = '/') :
    pathNameChars (cs ++ back) = pathNameChars cs := by
  cases back with
  | nil => rw [List.append_nil]
  | cons c back =>
    obtain ⟨rfl, hback⟩ := List.forall_mem_cons.mp h
    have hnone : pathNameChars back = [] := by
      rw [← List.append_nil back, pathNameChars_slashes hback]
      rfl
    rw [pathNameChars_append, hnone, List.append_nil]

/-! ### Logical ids -/

theorem pathName_docPath (e : HttpEvent) : pathName e.docPath = pathName e.path := by
  obtain ⟨front, back, hpath, hfront, hback⟩ := exists_of_trimBoth (· = '/') e.path.toList
  have htrimmed : pathNameChars e.path.toList =
      pathNameChars (trimBoth (· = '/') e.path.toList) := by
    conv_lhs => rw [hpath]
    rw [pathNameChars_slashes fun c hc => of_decide_eq_true (hfront c hc),
      pathNameChars_append_slashes fun c hc => of_decide_eq_true (hback c hc)]
  have hdoc : e.docPath.toList = ['/'] ++ trimBoth (· = '/') e.path.toList := by
    rw [HttpEvent.docPath, String.toList_append, stripChar]
    exact congrArg _ String.toList_ofList
  rw [pathName, hdoc, pathNameChars_slashes (List.forall_mem_singleton.mpr rfl), ← htrimmed,
    pathName]

/-- A run of slashes. -/
def slashes (n : Nat) : String := String.ofList (List.replicate n '/')

theorem eq_slash_of_mem_slashes {n : Nat} (hc : c ∈ (slashes n).toList) : c = '/' := by
  rw [slashes, String.toList_ofList] at hc
  exact List.eq_of_mem_replicate hc

theorem pathName_slashes_append (n : Nat) (path : String) :
    pathName (slashes n ++ path) = pathName path := by
  rw [pathName, String.toList_append, pathNameChars_slashes fun _ => eq_slash_of_mem_slashes]
  rfl

theorem pathName_append_slashes (n : Nat) (path : String) :
    pathName (path ++ slashes n) = pathName path := by
  rw [pathName, String.toList_append, pathNameChars_append_slashes fun _ => eq_slash_of_mem_slashes]
  rfl

theorem pathName_append (path rest : String) :
    pathName (path ++ "/" ++ rest) = pathName path ++ pathName rest := by
  rw [pathName, String.toList_append, String.toList_append, List.append_assoc]
  exact (congrArg String.ofList (pathNameChars_append _ _)).trans String.ofList_append

theorem slashes_succ (n : Nat) : slashes (n + 1) = "/" ++ slashes n := by
  rw [slashes, List.replicate_succ, ← List.singleton_append, String.ofList_append]
  rfl

theorem pathName_append_slashes_append (n : Nat) (path rest : String) :
    pathName (path ++ slashes (n + 1) ++ rest) = pathName (path ++ "/" ++ rest) := by
  have hrun : path ++ slashes (n + 1) ++ rest = path ++ "/" ++ (slashes n ++ rest) := by
    rw [slashes_succ, String.append_assoc, String.append_assoc, String.append_assoc]
  rw [hrun, pathName_append, pathName_append, pathName_slashes_append]

/-- A logical id is told by the name of the path and the small letters of the method. -/
theorem logicalId_congr {path path' method method' : String}
    (hpath : pathName path = pathName path') (hmethod : lower method = lower method') :
    logicalId path method = logicalId path' method' := by
  have hname : methodName method = methodName method' := by
    rw [methodName, methodName, hmethod]
  exact congrArg₂ (fun path method => "ApiGatewayMethod" ++ path ++ method) hpath hname

/-- **A method has one logical id, however its path is spelled.**  The name of a path is that of its
parts, one after the other, and consists of letters and digits that are their own name.  So slashes
at the ends and repeated slashes are not seen, an event has one logical id by its path and by its
documented path, and events for which one operation is looked up in a description have one method
resource. -/
theorem logicalId_of_spelling :
    (∀ path rest : String, pathName (path ++ "/" ++ rest) = pathName path ++ pathName rest) ∧
    (∀ path : String, (pathName path).toList.all isAsciiAlnum = true ∧
      pathName (pathName path) = pathName path) ∧
    (∀ (path rest method : String) (n : Nat),
      logicalId (slashes n ++ path) method = logicalId path method ∧
      logicalId (path ++ slashes n) method = logicalId path method ∧
      logicalId (path ++ slashes (n + 1) ++ rest) method = logicalId (path ++ "/" ++ rest) method) ∧
    (∀ e : HttpEvent, logicalId e.docPath e.method = logicalId e.path e.method) ∧
    (∀ e f : HttpEvent, e.docPath = f.docPath → lower e.method = lower f.method →
      (∀ paths, Swagger.operation? paths e = Swagger.operation? paths f) ∧
        Compile.methodId e = Compile.methodId f) := by
  refine ⟨pathName_append, fun path => ⟨?_, ?_⟩, fun path rest method n => ⟨?_, ?_, ?_⟩,
    fun e => logicalId_congr (pathName_docPath e) rfl,
    fun e f hpath hmethod => ⟨fun paths => ?_, ?_⟩⟩
  · rw [pathName, String.toList_ofList]
    exact List.all_eq_true.mpr fun _ => isAsciiAlnum_of_mem_pathNameChars
  · rw [pathName, pathName, String.toList_ofList, pathNameChars_pathNameChars]
  · exact logicalId_congr (pathName_slashes_append n path) rfl
  · exact logicalId_congr (pathName_append_slashes n path) rfl
  · exact logicalId_congr (pathName_append_slashes_append n path rest) rfl
  · rw [Swagger.operation?, Swagger.operation?, hpath, hmethod]
  · have hname : pathName e.path = pathName f.path := by
      rw [← pathName_docPath e, ← pathName_docPath f, hpath]
    exact logicalId_congr hname hmethod

/-- A path without slashes at its ends and a method in small letters, and the same in another
spelling. -/
theorem logicalId_of_spelling_variable :
    let e : HttpEvent := ⟨"users/\x7bid\x7d", "get", none⟩
    let f : HttpEvent := ⟨"//users/\x7bid\x7d/", "GET", none⟩
    e.docPath = f.docPath ∧ lower e.method = lower f.method ∧
      Compile.methodId e = "ApiGatewayMethodUsersIdVarGet" ∧
      Compile.methodId e = Compile.methodId f := by
  have hpath : HttpEvent.docPath ⟨"users/\x7bid\x7d", "get", none⟩ =
      HttpEvent.docPath ⟨"//users/\x7bid\x7d/", "GET", none⟩ := by decide +kernel
  have hmethod : lower "get" = lower "GET" := by decide +kernel
  obtain ⟨-, -, -, -, hspelling⟩ := logicalId_of_spelling
  exact ⟨hpath, hmethod, by decide +kernel, (hspelling _ _ hpath hmethod).2⟩

end Naming
end GatewayDocs
