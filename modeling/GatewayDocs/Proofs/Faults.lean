import GatewayDocs.Yaml.Meaning
import Mathlib

/-! # What the reading of a YAML text fails with

A text is refused with a problem at a place of it, or because a scalar, an escape or a number
of a version has not the form of its kind.  Failures of the second sort pass through a
reader that only looks for problems of the text, so that it matters which they are:
`Failure.isOfScalar` lists them, and none of them is one that is reported.

`⦃⌜True⌝⦄ x ⦃known⦄` says of a computation `x` that it fails with nothing else, whatever
state it starts in.  Every function of the reader is shown to be so: those that read tokens,
those that read nodes, those that merge mappings and those that find values.  Small functions
without a statement of their own are opened where they are called.  `Fault.known_of_read` is
the result for a whole text. -/

namespace GatewayDocs
open Std.Do

set_option mvcgen.warning false

namespace Failure

/-- Whether a failure is one of a scalar, an escape or a number of a version that has not the
form of its kind. -/
def isOfScalar : Failure → Bool
  | noKey _ | ownDefault | badShape | notInteger .. | notFloat .. | notStamp _ | noSuchCode
  | codeTooLarge | noCharacter | longNumeral _ => true
  | _ => false

end Failure

namespace Yaml

/-- A fault of a text, or one of a scalar by a failure that scalars have. -/
def Fault.Known : Fault → Prop
  | .scalar f => f.isOfScalar
  | _ => True

/-! ### Runs, lists and results -/

section Running
variable {m : Type → Type} {ps : PostShape} [Monad m] [WPMonad m ps] {α β : Type}
  {E : ExceptConds ps}

-- The library's statement on `throw` leaves its monad open where a state is around it.
@[spec 2000]
theorem throw_except {ε : Type} {Q : PostCond α (.except ε .pure)} (e : ε) :
    ⦃Q.2.1 e⦄ (MonadExceptOf.throw e : Except ε α) ⦃Q⦄ := fun h => h

theorem forM_of_forall {f : α → m PUnit} (h : ∀ a, ⦃⌜True⌝⦄ f a ⦃(fun _ => ⌜True⌝, E)⦄)
    (l : List α) : ⦃⌜True⌝⦄ l.forM f ⦃(fun _ => ⌜True⌝, E)⦄ := by
  induction l with
  | nil =>
    unfold List.forM
    mvcgen
  | cons a l ih =>
    unfold List.forM
    mvcgen [h, ih]

theorem mapM_of_forall {f : α → m β} (h : ∀ a, ⦃⌜True⌝⦄ f a ⦃(fun _ => ⌜True⌝, E)⦄)
    (l : List α) : ⦃⌜True⌝⦄ l.mapM f ⦃(fun _ => ⌜True⌝, E)⦄ := by
  induction l with
  | nil =>
    rw [List.mapM_nil]
    mvcgen
  | cons a l ih =>
    rw [List.mapM_cons]
    mvcgen [h, ih]

theorem run'_of_triple {σ : Type} {x : StateT σ m α}
    (h : ⦃⌜True⌝⦄ x ⦃(fun _ => ⌜True⌝, E)⦄) (s : σ) :
    ⦃⌜True⌝⦄ x.run' s ⦃(fun _ => ⌜True⌝, E)⦄ := by
  have hs : ⦃⌜True⌝⦄ x.run s ⦃(fun _ => ⌜True⌝, E)⦄ := h s
  rw [StateT.run'_eq]
  mvcgen [hs]

/-- What is said of the faults of a computation holds of one that it ends with. -/
theorem fault_of_run {ε σ : Type} {x : EStateM ε σ α} {Q : PostCond α (.except ε (.arg σ .pure))}
    (h : ⦃⌜True⌝⦄ x ⦃Q⦄) {s t : σ} {e : ε} (hrun : x.run s = .error e t) : (Q.2.1 e t).down := by
  have hs := h s trivial
  simpa only [WP.wp, PredTrans.apply, hrun] using hs

@[inherit_doc fault_of_run]
theorem fault_of_stateRun {ε σ : Type} {x : StateT σ (Except ε) α}
    {Q : PostCond α (.arg σ (.except ε .pure))} (h : ⦃⌜True⌝⦄ x ⦃Q⦄) {s : σ} {e : ε}
    (hrun : x.run s = .error e) : (Q.2.1 e).down := by
  have hs : ⦃⌜True⌝⦄ x.run s ⦃(fun r => Q.1 r.1 r.2, Q.2)⦄ := h s
  rw [hrun] at hs
  exact hs trivial

end Running

/-! ### Tokens -/

namespace Lex

/-- Nothing is said of what is read; faults are known ones. -/
abbrev known {α : Type} : PostCond α (.except Fault (.arg Lexer .pure)) :=
  (fun _ => ⌜True⌝, fun f => ⌜f.Known⌝, ())

attribute [spec] fail peek next here column ahead forward take takeWhile skipWhile push pushHere
  pushIndicator inFlow allowKey missingColon skipSpaces insertToken indentTo atBlockLine

@[spec]
theorem known_lineBreak : ⦃⌜True⌝⦄ lineBreak ⦃known⦄ := by mvcgen [lineBreak]

/-! #### Keys and indentation -/

@[spec]
theorem known_dropStale : ⦃⌜True⌝⦄ dropStale ⦃known⦄ := by mvcgen [dropStale]

@[spec]
theorem known_dropKey : ⦃⌜True⌝⦄ dropKey ⦃known⦄ := by mvcgen [dropKey]

@[spec]
theorem known_saveKey : ⦃⌜True⌝⦄ saveKey ⦃known⦄ := by mvcgen [saveKey]

@[spec]
theorem known_unwindFrom (outer : List Int) (column : Int) :
    ⦃⌜True⌝⦄ unwindFrom outer column ⦃known⦄ := by
  induction outer with
  | nil => mvcgen [unwindFrom]
  | cons _ _ ih => mvcgen [unwindFrom, ih]

@[spec]
theorem known_unwind (column : Int) : ⦃⌜True⌝⦄ unwind column ⦃known⦄ := by mvcgen [unwind]

@[spec]
theorem known_startBlock (column : Int) : ⦃⌜True⌝⦄ startBlock column ⦃known⦄ := by
  mvcgen [startBlock]

/-! #### Directives, anchors and tags -/

section Properties
variable (context : String) (first : Mark)

@[spec]
theorem known_expectSpace (problem : String) :
    ⦃⌜True⌝⦄ expectSpace context first problem ⦃known⦄ := by
  mvcgen [expectSpace]

@[spec]
theorem known_skipComment : ⦃⌜True⌝⦄ skipComment context first ⦃known⦄ := by
  mvcgen [skipComment]

@[spec]
theorem known_takeName : ⦃⌜True⌝⦄ takeName context first ⦃known⦄ := by mvcgen [takeName]

@[spec]
theorem known_takeHandle : ⦃⌜True⌝⦄ takeHandle context first ⦃known⦄ := by mvcgen [takeHandle]

@[spec]
theorem known_takeEscapes (n : Nat) : ⦃⌜True⌝⦄ takeEscapes context first n ⦃known⦄ := by
  induction n with
  | zero => mvcgen [takeEscapes]
  | succ n ih => mvcgen [takeEscapes, ih] invariants · known

@[spec]
theorem known_takeEscaped : ⦃⌜True⌝⦄ takeEscaped context first ⦃known⦄ := by
  mvcgen [takeEscaped]

@[spec]
theorem known_takeTagChars (n : Nat) : ⦃⌜True⌝⦄ takeTagChars context first n ⦃known⦄ := by
  induction n with
  | zero => mvcgen [takeTagChars]
  | succ n ih => mvcgen [takeTagChars, ih]

@[spec]
theorem known_takeTagText : ⦃⌜True⌝⦄ takeTagText context first ⦃known⦄ := by
  mvcgen [takeTagText]

@[spec]
theorem known_readTag : ⦃⌜True⌝⦄ readTag ⦃known⦄ := by mvcgen [readTag]

@[spec]
theorem known_readAnchor (isAlias : Bool) : ⦃⌜True⌝⦄ readAnchor isAlias ⦃known⦄ := by
  mvcgen [readAnchor]

/-- The number of a version is read as any integer is, and may be too long for that. -/
@[spec]
theorem known_takeVersionNumber : ⦃⌜True⌝⦄ takeVersionNumber first ⦃known⦄ := by
  mvcgen [takeVersionNumber]

@[spec]
theorem known_takeVersion : ⦃⌜True⌝⦄ takeVersion first ⦃known⦄ := by mvcgen [takeVersion]

@[spec]
theorem known_takeTagRule : ⦃⌜True⌝⦄ takeTagRule first ⦃known⦄ := by mvcgen [takeTagRule]

@[spec]
theorem known_readDirective : ⦃⌜True⌝⦄ readDirective ⦃known⦄ := by mvcgen [readDirective]

end Properties

/-! #### Scalars -/

@[spec]
theorem known_plainBreaks (n : Nat) : ⦃⌜True⌝⦄ plainBreaks n ⦃known⦄ := by
  induction n with
  | zero => mvcgen [plainBreaks]
  | succ n ih => mvcgen [plainBreaks, ih]

@[spec]
theorem known_plainGap : ⦃⌜True⌝⦄ plainGap ⦃known⦄ := by mvcgen [plainGap]

@[spec]
theorem known_plainWords (indent : Int) (gap : List Char) (last : Mark) (n : Nat) :
    ⦃⌜True⌝⦄ plainWords indent gap last n ⦃known⦄ := by
  induction n generalizing gap last with
  | zero => mvcgen [plainWords]
  | succ n ih => mvcgen [plainWords, ih]

@[spec]
theorem known_readPlain : ⦃⌜True⌝⦄ readPlain ⦃known⦄ := by mvcgen [readPlain]

@[spec]
theorem known_quotedBreaks (first : Mark) (n : Nat) :
    ⦃⌜True⌝⦄ quotedBreaks first n ⦃known⦄ := by
  induction n with
  | zero => mvcgen [quotedBreaks]
  | succ n ih => mvcgen [quotedBreaks, ih]

theorem isOfScalar_of_checkCode {code : Nat} {f : Failure}
    (h : Quoted.checkCode code = .error f) : f.isOfScalar := by
  unfold Quoted.checkCode at h
  split at h
  · cases h
    rfl
  · split at h
    · cases h
      rfl
    · cases h

/-- The escape of a code may be the escape of no character. -/
@[spec]
theorem known_quotedEscape (first : Mark) : ⦃⌜True⌝⦄ quotedEscape first ⦃known⦄ := by
  mvcgen [quotedEscape] invariants · known
  exact isOfScalar_of_checkCode ‹_›

@[spec]
theorem known_quotedWord (double : Bool) (first : Mark) (n : Nat) :
    ⦃⌜True⌝⦄ quotedWord double first n ⦃known⦄ := by
  induction n with
  | zero => mvcgen [quotedWord]
  | succ n ih => mvcgen [quotedWord, ih]

@[spec]
theorem known_quotedGap (first : Mark) : ⦃⌜True⌝⦄ quotedGap first ⦃known⦄ := by
  mvcgen [quotedGap]

@[spec]
theorem known_quotedRest (quote : Char) (first : Mark) (n : Nat) :
    ⦃⌜True⌝⦄ quotedRest quote first n ⦃known⦄ := by
  induction n with
  | zero => mvcgen [quotedRest]
  | succ n ih => mvcgen [quotedRest, ih]

@[spec]
theorem known_readQuoted (quote : Char) : ⦃⌜True⌝⦄ readQuoted quote ⦃known⦄ := by
  mvcgen [readQuoted]

@[spec]
theorem known_chompSign : ⦃⌜True⌝⦄ chompSign ⦃known⦄ := by mvcgen [chompSign]

@[spec]
theorem known_indentDigit (first : Mark) : ⦃⌜True⌝⦄ indentDigit first ⦃known⦄ := by
  mvcgen [indentDigit]

@[spec]
theorem known_blockHeader (first : Mark) : ⦃⌜True⌝⦄ blockHeader first ⦃known⦄ := by
  mvcgen [blockHeader]

@[spec]
theorem known_blockStart (widest : Nat) (last : Mark) (n : Nat) :
    ⦃⌜True⌝⦄ blockStart widest last n ⦃known⦄ := by
  induction n generalizing widest last with
  | zero => mvcgen [blockStart]
  | succ n ih => mvcgen [blockStart, ih]

@[spec]
theorem known_blockBreaks (indent : Int) (last : Mark) (n : Nat) :
    ⦃⌜True⌝⦄ blockBreaks indent last n ⦃known⦄ := by
  induction n generalizing last with
  | zero => mvcgen [blockBreaks]
  | succ n ih => mvcgen [blockBreaks, ih]

@[spec]
theorem known_blockLines (folded : Bool) (indent : Int) (breaks : List Char) (last : Mark)
    (n : Nat) : ⦃⌜True⌝⦄ blockLines folded indent breaks last n ⦃known⦄ := by
  induction n generalizing breaks last with
  | zero => mvcgen [blockLines]
  | succ n ih => mvcgen [blockLines, ih]

@[spec]
theorem known_readBlock (folded : Bool) : ⦃⌜True⌝⦄ readBlock folded ⦃known⦄ := by
  mvcgen [readBlock]

/-! #### The stream -/

attribute [spec] skipBlanks closeBlocks enterBlock readKeyStart readEnd readOpening readClosing
  readFlowEntry readBlockEntry readKey readBlockScalar readSeparator readMore

@[spec]
theorem known_skipToToken (n : Nat) : ⦃⌜True⌝⦄ skipToToken n ⦃known⦄ := by
  induction n with
  | zero => mvcgen [skipToToken]
  | succ n ih => mvcgen [skipToToken, ih]

@[spec]
theorem known_completeKey (key : SimpleKey) : ⦃⌜True⌝⦄ completeKey key ⦃known⦄ := by
  mvcgen [completeKey]

@[spec]
theorem known_readValue : ⦃⌜True⌝⦄ readValue ⦃known⦄ := by mvcgen [readValue]

@[spec]
theorem known_readToken : ⦃⌜True⌝⦄ readToken ⦃known⦄ := by mvcgen [readToken]

@[spec]
theorem known_needsMore : ⦃⌜True⌝⦄ needsMore ⦃known⦄ := by mvcgen [needsMore]

@[spec]
theorem known_readAsNeeded (n : Nat) : ⦃⌜True⌝⦄ readAsNeeded n ⦃known⦄ := by
  induction n with
  | zero => mvcgen [readAsNeeded]
  | succ n ih => mvcgen [readAsNeeded, ih]

@[spec]
theorem known_peekToken : ⦃⌜True⌝⦄ peekToken ⦃known⦄ := by mvcgen [peekToken]

@[spec]
theorem known_takeToken : ⦃⌜True⌝⦄ takeToken ⦃known⦄ := by mvcgen [takeToken]

end Lex

/-! ### Nodes -/

namespace Reading

@[inherit_doc Lex.known]
abbrev known {α : Type} : PostCond α (.arg Progress (.except Fault (.arg Lexer .pure))) :=
  (fun _ => ⌜True⌝, fun f => ⌜f.Known⌝, ())

attribute [spec] fail add addNamed fill addAbsent unexpected enough

@[spec]
theorem known_peek : ⦃⌜True⌝⦄ peek ⦃known⦄ := by mvcgen [peek]

@[spec]
theorem known_take : ⦃⌜True⌝⦄ take ⦃known⦄ := by mvcgen [take]

@[spec]
theorem known_nextIs (kinds : List TokenKind) : ⦃⌜True⌝⦄ nextIs kinds ⦃known⦄ := by
  mvcgen [nextIs]

@[spec]
theorem known_properties : ⦃⌜True⌝⦄ properties ⦃known⦄ := by mvcgen [properties]

@[spec]
theorem known_tagName (handles : Handles) (p : Properties) :
    ⦃⌜True⌝⦄ tagName handles p ⦃known⦄ := by
  mvcgen [tagName]

@[spec]
theorem known_resolveAlias (name : String) (place : Mark) :
    ⦃⌜True⌝⦄ resolveAlias name place ⦃known⦄ := by
  mvcgen [resolveAlias]

@[spec]
theorem known_checkAnchor (anchor : Option String) (place : Mark) :
    ⦃⌜True⌝⦄ checkAnchor anchor place ⦃known⦄ := by
  mvcgen [checkAnchor]

/-- The functions that read nodes call each other with fewer steps, so that they are taken
together. -/
structure KnownNodes (n : Nat) : Prop where
  node (handles : Handles) (block indentless : Bool) :
    ⦃⌜True⌝⦄ node handles block indentless n ⦃known⦄
  content (handles : Handles) (block : Bool) (p : Properties) (name : Option String)
    (first : Mark) : ⦃⌜True⌝⦄ content handles block p name first n ⦃known⦄
  nodeUnless (handles : Handles) (block indentless : Bool) (kinds : List TokenKind)
    (place : Mark) : ⦃⌜True⌝⦄ nodeUnless handles block indentless kinds place n ⦃known⦄
  blockItems (handles : Handles) (first : Mark) :
    ⦃⌜True⌝⦄ blockItems handles first n ⦃known⦄
  looseItems (handles : Handles) : ⦃⌜True⌝⦄ looseItems handles n ⦃known⦄
  blockPairs (handles : Handles) (first : Mark) :
    ⦃⌜True⌝⦄ blockPairs handles first n ⦃known⦄
  pairValue (handles : Handles) (block : Bool) (kinds : List TokenKind) :
    ⦃⌜True⌝⦄ pairValue handles block kinds n ⦃known⦄
  flowItems (handles : Handles) (first : Mark) (atStart : Bool) :
    ⦃⌜True⌝⦄ flowItems handles first atStart n ⦃known⦄
  flowPairs (handles : Handles) (first : Mark) (atStart : Bool) :
    ⦃⌜True⌝⦄ flowPairs handles first atStart n ⦃known⦄

theorem knownNodes : ∀ n, KnownNodes n
  | 0 => by
    constructor
    all_goals
      intros
      mvcgen [node, content, nodeUnless, blockItems, looseItems, blockPairs, pairValue, flowItems,
        flowPairs]
  | n + 1 => by
    obtain ⟨hnode, hcontent, hnodeUnless, hblockItems, hlooseItems, hblockPairs, hpairValue,
      hflowItems, hflowPairs⟩ := knownNodes n
    constructor
    case node => intros; mvcgen [node, hcontent, hlooseItems]
    case content =>
      intros
      mvcgen [content, hflowItems, hflowPairs, hblockItems, hblockPairs]
    case nodeUnless => intros; mvcgen [nodeUnless, hnode]
    case blockItems => intros; mvcgen [blockItems, hnodeUnless, hblockItems]
    case looseItems => intros; mvcgen [looseItems, hnodeUnless, hlooseItems]
    case blockPairs => intros; mvcgen [blockPairs, hnodeUnless, hpairValue, hblockPairs]
    case pairValue => intros; mvcgen [pairValue, hnodeUnless]
    case flowItems => intros; mvcgen [flowItems, hnode, hnodeUnless, hpairValue, hflowItems]
    case flowPairs => intros; mvcgen [flowPairs, hnode, hnodeUnless, hpairValue, hflowPairs]

@[spec]
theorem known_directives (versioned : Bool) (handles : Handles) (n : Nat) :
    ⦃⌜True⌝⦄ directives versioned handles n ⦃known⦄ := by
  induction n generalizing versioned handles with
  | zero => mvcgen [directives]
  | succ n ih => mvcgen [directives, ih]

@[spec]
theorem known_skipEnds (n : Nat) : ⦃⌜True⌝⦄ skipEnds n ⦃known⦄ := by
  induction n with
  | zero => mvcgen [skipEnds]
  | succ n ih => mvcgen [skipEnds, ih]

@[spec]
theorem known_documentStart : ⦃⌜True⌝⦄ documentStart ⦃known⦄ := by mvcgen [documentStart]

@[spec]
theorem known_documentNode (n : Nat) : ⦃⌜True⌝⦄ documentNode n ⦃known⦄ := by
  have hnode := (knownNodes n).node
  have hnodeUnless := (knownNodes n).nodeUnless
  mvcgen [documentNode, hnode, hnodeUnless]

theorem known_document : ⦃⌜True⌝⦄ document ⦃known⦄ := by mvcgen [document]

end Reading

theorem Fault.known_of_ofText {source : List Char} {f : Fault}
    (h : Document.ofText source = .error f) : f.Known := by
  unfold Document.ofText at h
  split at h
  · cases h
    trivial
  · split at h
    · cases h
    · cases h
      exact fault_of_run (run'_of_triple Reading.known_document ⟨#[], []⟩) ‹_›

/-! ### Merged mappings -/

namespace Merging

@[inherit_doc Lex.known]
abbrev known {α : Type} : PostCond α (.arg (Array Node) (.except Fault .pure)) :=
  (fun _ => ⌜True⌝, fun f => ⌜f.Known⌝, ())

attribute [spec] node setPairs makeText

@[spec]
theorem known_refuse {α : Type} (first : Mark) (expected : String) (value : Node) :
    ⦃⌜True⌝⦄ (refuse first expected value : Merging α) ⦃known⦄ := fun _ _ => trivial

theorem known_settleFrom_and_inherited (n : Nat) :
    (∀ number taken, ⦃⌜True⌝⦄ settleFrom n number taken ⦃known⦄) ∧
      ∀ first source, ⦃⌜True⌝⦄ inherited first n source ⦃known⦄ := by
  induction n with
  | zero => exact ⟨fun _ _ _ _ => trivial, fun _ _ _ _ => trivial⟩
  | succ n ih =>
    obtain ⟨hsettle, hinherited⟩ := ih
    constructor
    · intro number taken
      mvcgen [settleFrom, hsettle, hinherited, forM_of_forall]
    · intro first source
      mvcgen [inherited, hsettle, mapM_of_forall]

theorem known_settle (number : Nat) : ⦃⌜True⌝⦄ settle number ⦃known⦄ := by
  have hsettle := fun n => (known_settleFrom_and_inherited n).1
  mvcgen [settle, hsettle]

end Merging

/-! ### Values -/

/-- Nothing is said of what is read; failures are those of scalars. -/
abbrev ofScalar {α : Type} : PostCond α (.except Failure .pure) :=
  (fun _ => ⌜True⌝, fun f => ⌜f.isOfScalar = true⌝, ())

namespace Number

@[spec]
theorem ofScalar_ofBase (base : Nat) (cs : List Char) : ⦃⌜True⌝⦄ ofBase base cs ⦃ofScalar⦄ := by
  mvcgen [ofBase]

@[spec]
theorem ofScalar_unsignedOf (cs : List Char) : ⦃⌜True⌝⦄ unsignedOf cs ⦃ofScalar⦄ := by
  mvcgen [unsignedOf, mapM_of_forall]

theorem ofScalar_integerOf (s : String) : ⦃⌜True⌝⦄ integerOf s ⦃ofScalar⦄ := by
  mvcgen [integerOf]

@[spec]
theorem ofScalar_ofDecimal (cs : List Char) : ⦃⌜True⌝⦄ ofDecimal cs ⦃ofScalar⦄ := by
  unfold ofDecimal
  dsimp only
  -- the comparisons of words are not to be evaluated: either outcome will do
  split <;> rename_i hmagnitude <;> clear hmagnitude <;> mvcgen

theorem ofScalar_floatOf (s : String) : ⦃⌜True⌝⦄ floatOf s ⦃ofScalar⦄ := by
  mvcgen [floatOf, mapM_of_forall]

end Number

namespace Timestamp

@[spec]
theorem ofScalar_require (condition : Bool) (fault : StampFault) :
    ⦃⌜True⌝⦄ require condition fault ⦃ofScalar⦄ := by
  mvcgen [require]

theorem ofScalar_checkOffset (offset : Option Int) :
    ⦃⌜True⌝⦄ (offset.map checkOffset).getD (.ok ()) ⦃ofScalar⦄ := by
  cases offset with
  | none => exact fun _ => trivial
  | some minutes => exact ofScalar_require _ _

theorem ofScalar_stampOf (s : String) : ⦃⌜True⌝⦄ stampOf s ⦃ofScalar⦄ := by
  mvcgen [stampOf, checkDate, checkTime, ofScalar_checkOffset]

end Timestamp

namespace Meaning

@[inherit_doc Lex.known]
abbrev known {α : Type} : PostCond α (.arg Findings (.except Fault .pure)) :=
  (fun _ => ⌜True⌝, fun f => ⌜f.Known⌝, ())

attribute [spec] node

@[spec]
theorem known_problemAt {α : Type} (text : String) (place : Mark) :
    ⦃⌜True⌝⦄ (problemAt text place : Meaning α) ⦃known⦄ := fun _ _ => trivial

theorem known_ofResult {α : Type} {r : Result α} (h : ⦃⌜True⌝⦄ r ⦃ofScalar⦄) :
    ⦃⌜True⌝⦄ ofResult r ⦃known⦄ := by
  cases r with
  | ok a => mvcgen [ofResult]
  | error f => exact fun _ _ => h trivial

@[spec]
theorem known_settle (number : Nat) : ⦃⌜True⌝⦄ settle number ⦃known⦄ := by
  mvcgen [settle]
  exact fault_of_stateRun (Merging.known_settle number) ‹_›

theorem ofScalar_truthOf (s : String) : ⦃⌜True⌝⦄ truthOf s ⦃ofScalar⦄ := by
  mvcgen [truthOf]

@[spec]
theorem known_bytesOf (s : String) (m : Mark) : ⦃⌜True⌝⦄ bytesOf s m ⦃known⦄ := by
  mvcgen [bytesOf]

/-- A default value of itself is the default value of a mapping again and again. -/
@[spec]
theorem known_textFrom (steps number : Nat) : ⦃⌜True⌝⦄ textFrom steps number ⦃known⦄ := by
  induction steps generalizing number with
  | zero => exact fun _ _ => rfl
  | succ steps ih => mvcgen [textFrom, ih]

@[spec]
theorem known_textOf (number : Nat) : ⦃⌜True⌝⦄ textOf number ⦃known⦄ := by mvcgen [textOf]

@[spec]
theorem known_stampOf (number : Nat) : ⦃⌜True⌝⦄ stampOf number ⦃known⦄ := by
  have hstamp := fun s => known_ofResult (Timestamp.ofScalar_stampOf s)
  mvcgen [stampOf, hstamp]

@[spec]
theorem known_collection (number : Nat) : ⦃⌜True⌝⦄ collection number ⦃known⦄ := by
  mvcgen [collection]

-- Looking for the form of a statement would evaluate the number.
attribute [local irreducible] Number.floatOf

@[spec]
theorem known_item (number : Nat) : ⦃⌜True⌝⦄ item number ⦃known⦄ := by
  have htruth := fun s => known_ofResult (ofScalar_truthOf s)
  have hinteger := fun s => known_ofResult (Number.ofScalar_integerOf s)
  have hfloat := fun s => known_ofResult (Number.ofScalar_floatOf s)
  mvcgen [item, htruth, hinteger, hfloat]

@[spec]
theorem known_fields (number : Nat) : ⦃⌜True⌝⦄ fields number ⦃known⦄ := by
  mvcgen [fields, mapM_of_forall]

@[spec]
theorem known_items (number : Nat) : ⦃⌜True⌝⦄ items number ⦃known⦄ := by
  mvcgen [items, mapM_of_forall]

@[spec]
theorem known_tuples (context : String) (number : Nat) :
    ⦃⌜True⌝⦄ tuples context number ⦃known⦄ := by
  mvcgen [tuples, mapM_of_forall]

@[spec]
theorem known_fill (number : Nat) : ⦃⌜True⌝⦄ fill number ⦃known⦄ := by mvcgen [fill]

@[spec]
theorem known_fillAll (steps : Nat) (cells : Cells) :
    ⦃⌜True⌝⦄ fillAll steps cells ⦃known⦄ := by
  induction steps generalizing cells with
  | zero => mvcgen [fillAll]
  | succ steps ih => mvcgen [fillAll, ih]

theorem known_value (root : Nat) : ⦃⌜True⌝⦄ value root ⦃known⦄ := by mvcgen [value]

end Meaning

theorem Fault.known_of_value {d : Document} {f : Fault} (h : d.value = .error f) : f.Known := by
  have hvalue : ⦃⌜True⌝⦄ d.value ⦃((fun _ => ⌜True⌝, fun f => ⌜f.Known⌝, ()) :
      PostCond Value (.except Fault .pure))⦄ :=
    run'_of_triple (Meaning.known_value _) _
  rw [h] at hvalue
  exact hvalue trivial

/-- A text is refused for a problem of its own, or for a scalar by a failure that scalars
have. -/
theorem Fault.known_of_read {source : String} {f : Fault} (h : read source = .error f) :
    f.Known := by
  unfold read at h
  split at h
  · cases h
    exact known_of_ofText ‹_›
  · cases h
  · exact known_of_value h

theorem isOfScalar_of_read {source : String} {f : Failure}
    (h : read source = .error (.scalar f)) : f.isOfScalar :=
  Fault.known_of_read h

end Yaml
end GatewayDocs
