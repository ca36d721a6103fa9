import GatewayDocs.CommandLine.Run
import GatewayDocs.Proofs.Edit
import GatewayDocs.Proofs.Faults

/-! # What the loading of a configuration file ends with

A file goes through three readers: its bytes have to be UTF-8, its text is read as JSON, and
as YAML if it is no JSON.  Where one of them fails in the way that is looked for, the failure
tells of the path (`Failure.TellsOf`) and is one that the program reports.  The others pass
through: characters that no path may have, bytes that are no text, an integer of too many
digits in JSON, and scalars of YAML that have not the form of their kind.

The readers go as deep as a file nests; no limit on the depth of a recursion is part of them.

`FileTree.Loadable` says that none of these is met.  A file that is loadable gives the object that
it holds, or a failure that tells of it if it holds none; one that is not gives a failure that
passes through (`FileTree.ending_load`).  `CommandLine.loading_outcome` says the same of the two
loaders, and of the command that compiles: it has changed nothing when a file cannot be loaded. -/

namespace GatewayDocs

namespace Failure

/-- A failure that tells that the configuration file of a path cannot be loaded. -/
inductive TellsOf (p : Path) : Failure → Prop
  | unreadable (reason : String) : TellsOf p (.unreadable p.text reason)
  | malformed (report : String) : TellsOf p (.malformed p.text report)

theorem TellsOf.isReported {p : Path} {f : Failure} (h : f.TellsOf p) : f.isReported := by
  cases h <;> rfl

/-- Whether a failure is one of the readers of a configuration file that passes through. -/
def isOfReaders : Failure → Bool
  | notText | nullInPath => true
  | f => f.isOfScalar

theorem not_isReported_of_isOfReaders {f : Failure} (hf : f.isOfReaders) :
    f.isReported = false := by
  cases f <;> first | rfl | exact nomatch hf

theorem isOfReaders_of_isOfScalar {f : Failure} (hf : f.isOfScalar) : f.isOfReaders := by
  cases f <;> first | rfl | exact hf

end Failure

/-- What loading ends with.  If a condition holds, it is what has to be loaded, or a failure that
tells of the path if there is no such thing; if the condition does not hold, it is a failure of
the readers that passes through. -/
inductive Ending (p : Path) (good : Prop) {α : Type} (P : α → Prop) : Result α → Prop
  | loaded {a : α} (h : good) (ha : P a) : Ending p good P (.ok a)
  | told {f : Failure} (h : good) (hnone : ∀ a, ¬ P a) (hf : f.TellsOf p) :
    Ending p good P (.error f)
  | escaped {f : Failure} (h : ¬ good) (hf : f.isOfReaders) : Ending p good P (.error f)

namespace Ending
variable {p : Path} {good : Prop} {α β : Type} {P : α → Prop} {Q : β → Prop} {r : Result α}

/-- What is loaded may be refused once more, with a failure that tells of the path. -/
theorem bind {f : α → Result β} (h : Ending p good P r) (hsome : ∀ b, Q b → ∃ a, P a)
    (hf : ∀ a, P a → (∃ b, f a = .ok b ∧ Q b) ∨
      ∃ e, f a = .error e ∧ e.TellsOf p ∧ ∀ b, ¬ Q b) :
    Ending p good Q (r >>= f) := by
  cases h with
  | @loaded a h ha =>
    change Ending p good Q (f a)
    obtain ⟨b, hb, hQ⟩ | ⟨e, he, htells, hnone⟩ := hf a ha
    · rw [hb]
      exact .loaded h hQ
    · rw [he]
      exact .told h hnone htells
  | told h hnone hf => exact .told h (fun b hb => (hsome b hb).elim hnone) hf
  | escaped h hf => exact .escaped h hf

/-- A failure is told of or passes through. -/
theorem error {f : Failure} (h : Ending p good P (.error f)) :
    f.TellsOf p ∨ ¬ good ∧ f.isOfReaders := by
  cases h with
  | told h hnone hf => exact .inl hf
  | escaped h hf => exact .inr ⟨h, hf⟩

end Ending

/-! ### Texts -/

/-- Whether a text is that of a value in JSON, or else in YAML. -/
def IsTextOf (text : String) (v : Value) : Prop :=
  Json.parse text = .ok v ∨ Json.parse text = .error .malformed ∧ Yaml.read text = .ok v

/-- Whether a text is JSON, or no JSON at all and, read as YAML, without a scalar that has not
the form of its kind. -/
def Legible (text : String) : Prop :=
  (∃ v, Json.parse text = .ok v) ∨
    Json.parse text = .error .malformed ∧ ∀ f, Yaml.read text ≠ .error (.scalar f)

section Texts
variable {text : String} {v w : Value}

theorem isTextOf_iff_of_malformed (h : Json.parse text = .error .malformed) :
    IsTextOf text v ↔ Yaml.read text = .ok v := by
  constructor
  · rintro (hv | ⟨-, hyaml⟩)
    · exact nomatch h.symm.trans hv
    · exact hyaml
  · exact fun hyaml => .inr ⟨h, hyaml⟩

theorem legible_iff_of_malformed (h : Json.parse text = .error .malformed) :
    Legible text ↔ ∀ f, Yaml.read text ≠ .error (.scalar f) := by
  constructor
  · rintro (⟨v, hv⟩ | ⟨-, hyaml⟩)
    · exact nomatch h.symm.trans hv
    · exact hyaml
  · exact fun hyaml => .inr ⟨h, hyaml⟩

theorem not_legible_of_longNumeral {digits : Nat}
    (h : Json.parse text = .error (.longNumeral digits)) : ¬ Legible text := by
  rintro (⟨v, hv⟩ | ⟨hm, -⟩)
  · exact nomatch h.symm.trans hv
  · exact nomatch h.symm.trans hm

/-- A text is that of one value at most. -/
theorem IsTextOf.unique (hv : IsTextOf text v) (hw : IsTextOf text w) : v = w := by
  cases hjson : Json.parse text with
  | ok u =>
    have hu : ∀ {x}, IsTextOf text x → u = x := by
      rintro x (hx | ⟨hm, -⟩)
      · exact Except.ok.inj (hjson.symm.trans hx)
      · exact nomatch hjson.symm.trans hm
    exact (hu hv).symm.trans (hu hw)
  | error fault =>
    cases fault with
    | malformed =>
      rw [isTextOf_iff_of_malformed hjson] at hv hw
      exact Except.ok.inj (hv.symm.trans hw)
    | longNumeral digits =>
      obtain hv | ⟨hm, -⟩ := hv
      · exact nomatch hjson.symm.trans hv
      · exact nomatch hjson.symm.trans hm

end Texts

/-- What the reading of a value ends with: of the faults of YAML, those of scalars alone pass
through. -/
theorem ending_readValue (p : Path) (text : String) :
    Ending p (Legible text) (IsTextOf text) (readValue p.text text) := by
  unfold readValue
  cases hjson : Json.parse text with
  | ok v => exact .loaded (.inl ⟨v, hjson⟩) (.inl hjson)
  | error fault =>
    cases fault with
    | longNumeral digits => exact .escaped (not_legible_of_longNumeral hjson) rfl
    | malformed =>
      have hvalue := fun v => isTextOf_iff_of_malformed (v := v) hjson
      rw [legible_iff_of_malformed hjson, funext fun v => propext (hvalue v)]
      cases hyaml : Yaml.read text with
      | ok v => exact .loaded (fun f hf => nomatch hf) rfl
      | error fault =>
        have hnone : ∀ v, ¬ (.error fault : Except Yaml.Fault Value) = .ok v :=
          fun v hv => nomatch hv
        cases fault with
        | scalar f =>
          have hf := Failure.isOfReaders_of_isOfScalar (Yaml.isOfScalar_of_read hyaml)
          exact .escaped (fun h => h f rfl) hf
        | marked => exact .told (fun f hf => nomatch hf) hnone (.malformed _)
        | hidden => exact .told (fun f hf => nomatch hf) hnone (.malformed _)
        | exhausted => exact .told (fun f hf => nomatch hf) hnone (.malformed _)

/-! ### Files -/

/-- Whether every code of a path has bytes and none is that of the null character. -/
def Path.Usable (p : Path) : Prop := ∀ n ∈ Units.codes p.text.toList, ¬ Path.isForeign n ∧ n ≠ 0

namespace FileTree
variable {t : FileTree} {p : Path} {text : String} {fields : Fields}

/-- Whether the path of a file may be used and its bytes are those of a text. -/
structure HasText (t : FileTree) (p : Path) (text : String) : Prop where
  path : p.Usable
  bytes : ∃ bytes, t.read p = .ok bytes ∧ ∃ given, Text.decode? bytes = some given ∧
    text = String.ofList (newlines given.toList)

/-- Whether a file holds the text of an object. -/
def Holds (t : FileTree) (p : Path) (fields : Fields) : Prop :=
  ∃ text, t.HasText p text ∧ ∃ v, IsTextOf text v ∧ v.fields? = some fields

/-- Whether nothing about a file passes through the loaders: its path is one that a file may
have and, if there is such a file, it has a legible text. -/
structure Loadable (t : FileTree) (p : Path) : Prop where
  path : p.Usable
  file : ∀ bytes, t.read p = .ok bytes → ∃ text, t.HasText p text ∧ Legible text

theorem HasText.unique {text' : String} (h : t.HasText p text) (h' : t.HasText p text') :
    text = text' := by
  obtain ⟨bytes, hread, given, hgiven, rfl⟩ := h.bytes
  obtain ⟨bytes', hread', given', hgiven', rfl⟩ := h'.bytes
  cases hread.symm.trans hread'
  cases hgiven.symm.trans hgiven'
  rfl

theorem HasText.loadable_iff (h : t.HasText p text) : t.Loadable p ↔ Legible text := by
  constructor
  · intro hloadable
    obtain ⟨bytes, hread, -⟩ := h.bytes
    obtain ⟨text', h', hlegible⟩ := hloadable.file bytes hread
    exact h.unique h' ▸ hlegible
  · exact fun hlegible => ⟨h.path, fun _ _ => ⟨text, h, hlegible⟩⟩

/-- A path is refused for its characters, by a failure that passes through. -/
theorem checkPath_cases (p : Path) :
    checkPath p = .ok () ∧ p.Usable ∨
      ∃ f, checkPath p = .error f ∧ f.isOfReaders ∧ ¬ p.Usable := by
  simp only [checkPath]
  split
  case isTrue hforeign =>
    obtain ⟨n, hn, hforeign⟩ := List.any_eq_true.mp hforeign
    exact .inr ⟨_, rfl, rfl, fun h => (h n hn).1 hforeign⟩
  case isFalse hforeign =>
    split
    case isTrue hnull =>
      exact .inr ⟨_, rfl, rfl, fun h => (h _ (List.contains_iff_mem.mp hnull)).2 rfl⟩
    case isFalse hnull =>
      refine .inl ⟨rfl, fun n hn => ⟨fun hn' => ?_, fun hn' => ?_⟩⟩
      · exact hforeign (List.any_eq_true.mpr ⟨n, hn, hn'⟩)
      · exact hnull (List.contains_iff_mem.mpr (hn' ▸ hn))

/-- The object that a value has to be. -/
def mapping (p : Path) (v : Value) : Result Fields :=
  match v.fields? with
  | some fields => .ok fields
  | none => .error (.unreadable p.text ("expected a mapping, got " ++ v.kindName))

section Reading
variable (hpath : checkPath p = .ok ())
include hpath

theorem load_of_unread {e : PathFault} (hread : t.read p = .error e) :
    t.load p = .error (.unreadable p.text (Failure.unusable e p.text).message) := by
  unfold load
  rw [hpath, hread]
  rfl

theorem load_of_read {bytes : ByteArray} {limit : Decimal.DigitLimit}
    (hread : t.read p = .ok bytes) :
    t.load p limit = match Text.decode? bytes with
      | none => .error .notText
      | some text =>
        readValue p.text (String.ofList (newlines text.toList)) limit >>= mapping p := by
  unfold load
  rw [hpath, hread]
  change (match Text.decode? bytes with
    | none => throw .notText
    | some text => _ : Result Fields) = _
  cases Text.decode? bytes with
  | none => rfl
  | some text => rfl

end Reading

/-- The text of a file is read as a value, which has to be an object. -/
theorem HasText.ending (h : t.HasText p text) :
    Ending p (t.Loadable p) (t.Holds p) (readValue p.text text >>= mapping p) := by
  rw [h.loadable_iff]
  refine (ending_readValue p text).bind ?_ fun v hv => ?_
  · rintro fields ⟨text', h', v, hv, -⟩
    exact ⟨v, h.unique h' ▸ hv⟩
  · unfold mapping
    cases hfields : v.fields? with
    | some fields => exact .inl ⟨fields, rfl, text, h, v, hv, hfields⟩
    | none =>
      refine .inr ⟨_, rfl, .unreadable _, ?_⟩
      rintro fields ⟨text', h', w, hw, hsome⟩
      obtain rfl : v = w := hv.unique (h.unique h' ▸ hw)
      exact nomatch hfields.symm.trans hsome

/-- What the loading of a file ends with. -/
theorem ending_load (t : FileTree) (p : Path) :
    Ending p (t.Loadable p) (t.Holds p) (t.load p) := by
  obtain ⟨hpath, husable⟩ | ⟨f, hpath, hf, hunusable⟩ := checkPath_cases p
  · cases hread : t.read p with
    | error e =>
      rw [load_of_unread hpath hread]
      refine .told ⟨husable, fun bytes hbytes => ?_⟩ ?_ (.unreadable _)
      · exact nomatch hread.symm.trans hbytes
      · rintro fields ⟨text, h, -⟩
        obtain ⟨bytes, hbytes, -⟩ := h.bytes
        exact nomatch hread.symm.trans hbytes
    | ok bytes =>
      rw [load_of_read hpath hread]
      cases hbytes : Text.decode? bytes with
      | none =>
        refine .escaped (fun h => ?_) rfl
        obtain ⟨text, htext, -⟩ := h.file bytes hread
        obtain ⟨bytes', hread', given, hgiven, -⟩ := htext.bytes
        cases hread.symm.trans hread'
        exact nomatch hbytes.symm.trans hgiven
      | some given =>
        exact HasText.ending ⟨husable, bytes, hread, given, hbytes, rfl⟩
  · have hload : t.load p = .error f := by
      unfold load
      rw [hpath]
      rfl
    rw [hload]
    exact .escaped (fun h => hunusable h.path) hf

/-- Whether a value is the object that a file holds. -/
def HoldsService (t : FileTree) (p : Path) (v : Value) : Prop :=
  ∃ fields, t.Holds p fields ∧ v = .object fields

/-- Whether a value is the object that a file holds, with resources. -/
def HoldsTemplate (t : FileTree) (p : Path) (v : Value) : Prop :=
  ∃ fields, t.Holds p fields ∧ v = .object (fields.putNew "Resources" (.object []))

theorem ending_loadService (t : FileTree) (p : Path) :
    Ending p (t.Loadable p) (t.HoldsService p) (t.loadService p) := by
  refine (ending_load t p).bind ?_ fun fields h => .inl ⟨_, rfl, fields, h, rfl⟩
  exact fun _ ⟨fields, h, _⟩ => ⟨fields, h⟩

theorem ending_loadTemplate (t : FileTree) (p : Path) :
    Ending p (t.Loadable p) (t.HoldsTemplate p) (t.loadTemplate p) := by
  refine (ending_load t p).bind ?_ fun fields h => .inl ⟨_, rfl, fields, h, rfl⟩
  exact fun _ ⟨fields, h, _⟩ => ⟨fields, h⟩

end FileTree

/-! ### The command that compiles -/

namespace CommandLine
variable {σ : Type} {client : Option (Client σ)} {env : Environment} {words : List String}
  {level : Value} {a : CompileArguments} {service template : Path} {d : Desk σ} {f : Failure}

/-- A command that fails tells why or lets the failure pass. -/
theorem run_of_error {d' : Desk σ} (hwords : Arguments.ofWords env words = .ok ⟨level, .compile a⟩)
    (h : a.run env d = .error f d') :
    run client env words d = (if f.isReported then .reported f.message else .failed f, d') := by
  simp only [run, hwords, Command.run, h]

/-- Why the files of a command that compiles are not loaded: the service is loaded first. -/
inductive LoadFails (t : FileTree) (service template : Path) (f : Failure) : Prop
  | service (h : t.loadService service = .error f)
  | template {v : Value} (hservice : t.loadService service = .ok v)
      (h : t.loadTemplate template = .error f)

/-- A command whose files are not loaded has changed nothing. -/
theorem run_of_loadFails (client : Option (Client σ))
    (hwords : Arguments.ofWords env words = .ok ⟨level, .compile a⟩)
    (hservice : pathOf a.service = .ok service) (htemplate : pathOf a.template = .ok template)
    (h : LoadFails d.files service template f) :
    run client env words d = (if f.isReported then .reported f.message else .failed f, d) := by
  have hloadService : (pathOf a.service >>= d.files.loadService) = d.files.loadService service := by
    rw [hservice]
    rfl
  have hloadTemplate :
      (pathOf a.template >>= d.files.loadTemplate) = d.files.loadTemplate template := by
    rw [htemplate]
    rfl
  have hrun : a.run env d = .error f d := by
    refine (Edit.bind_of_ok (Edit.get_apply d)).trans ?_
    cases h with
    | service h => exact Edit.ofResult_bind_of_error (hloadService.trans h)
    | template hv h =>
      refine (Edit.ofResult_bind_of_ok (hloadService.trans hv)).trans ?_
      exact Edit.ofResult_bind_of_error (hloadTemplate.trans h)
  exact run_of_error hwords hrun

/-- Files that are not loaded are told of, or one of them is not loadable. -/
theorem LoadFails.told_or_escapes {t : FileTree} (h : LoadFails t service template f) :
    (f.TellsOf service ∨ f.TellsOf template) ∨
      ¬ (t.Loadable service ∧ t.Loadable template) ∧ f.isOfReaders := by
  cases h with
  | service h =>
    have hends := FileTree.ending_loadService t service
    rw [h] at hends
    obtain hf | ⟨hbad, hf⟩ := hends.error
    · exact .inl (.inl hf)
    · exact .inr ⟨fun h => hbad h.1, hf⟩
  | template _ h =>
    have hends := FileTree.ending_loadTemplate t template
    rw [h] at hends
    obtain hf | ⟨hbad, hf⟩ := hends.error
    · exact .inl (.inr hf)
    · exact .inr ⟨fun h => hbad h.2, hf⟩

/-- How a command that compiles the files of two paths ends: they are loaded, and the rest of the
command follows, or the command tells why one of them is not, or it ends with a failure that
passes through; the last only if one of them is not loadable. -/
inductive CompileEnding (d : Desk σ) (service template : Path) : Outcome × Desk σ → Prop
  | loaded {v w : Value} {rest : Outcome × Desk σ}
      (hservice : d.files.loadService service = .ok v)
      (htemplate : d.files.loadTemplate template = .ok w) : CompileEnding d service template rest
  | told {f : Failure} (hf : f.TellsOf service ∨ f.TellsOf template) :
      CompileEnding d service template (.reported f.message, d)
  | escaped {f : Failure} (h : ¬ (d.files.Loadable service ∧ d.files.Loadable template))
      (hf : f.isOfReaders) : CompileEnding d service template (.failed f, d)

/-- Loading gives the object that a file holds, or a failure that tells of the path if there is
none, for every file that is loadable, and a failure that passes through for every other one; and
a command that compiles two files reports exactly the failures of the first sort.  Files are read
here however deep they nest: that a reader gives up below some depth is not among the failures. -/
theorem loading_outcome (t : FileTree) (service template : Path) :
    Ending service (t.Loadable service) (t.HoldsService service) (t.loadService service) ∧
    Ending template (t.Loadable template) (t.HoldsTemplate template) (t.loadTemplate template) ∧
    ∀ (σ : Type) (client : Option (Client σ)) (env : Environment) (words : List String)
      (level : Value) (a : CompileArguments) (d : Desk σ), d.files = t →
      Arguments.ofWords env words = .ok ⟨level, .compile a⟩ →
      pathOf a.service = .ok service → pathOf a.template = .ok template →
      CompileEnding d service template (run client env words d) := by
  refine ⟨FileTree.ending_loadService t service, FileTree.ending_loadTemplate t template, ?_⟩
  rintro σ client env words level a d rfl hwords hservice htemplate
  have hfails : ∀ {f}, LoadFails d.files service template f →
      CompileEnding d service template (run client env words d) := by
    intro f hfails
    rw [run_of_loadFails client hwords hservice htemplate hfails]
    obtain hf | ⟨hbad, hf⟩ := hfails.told_or_escapes
    · rw [hf.elim Failure.TellsOf.isReported Failure.TellsOf.isReported]
      exact .told hf
    · rw [Failure.not_isReported_of_isOfReaders hf]
      exact .escaped hbad hf
  cases hv : d.files.loadService service with
  | error f => exact hfails (.service hv)
  | ok v =>
    cases hw : d.files.loadTemplate template with
    | error f => exact hfails (.template hv hw)
    | ok w => exact .loaded hv hw

/-- No variables of the environment. -/
def bareEnvironment : Environment := ⟨none, none, none, none⟩

/-- A service without anything, and a template of some bytes. -/
def bareDesk (template : ByteArray) : Desk Unit :=
  { client := (), metrics := ⟨[]⟩,
    files := ⟨[(["service.json"], .file (Text.encode "\x7b\x7d")),
      (["template.json"], .file template)]⟩ }

/-- The words of a command that compiles the two. -/
def bareWords : List String :=
  ["compile", "--service", "service.json", "--template", "template.json"]

/-- What the words ask for. -/
def bareArguments : CompileArguments :=
  ⟨.str "service.json", .str "template.json", .null, .null, false⟩

/-- A list is no template, as the command says. -/
theorem loading_outcome_list :
    Arguments.ofWords bareEnvironment bareWords = .ok ⟨.str "INFO", .compile bareArguments⟩ ∧
      CompileEnding (bareDesk (Text.encode "[]")) (.ofText "service.json") (.ofText "template.json")
        (run none bareEnvironment bareWords (bareDesk (Text.encode "[]"))) ∧
      (run none bareEnvironment bareWords (bareDesk (Text.encode "[]"))).1 =
        .reported
          "Cannot load configuration from template.json: expected a mapping, got list" := by
  refine ⟨rfl, ?_, rfl⟩
  exact (loading_outcome (bareDesk (Text.encode "[]")).files _ _).2.2 Unit none bareEnvironment
    bareWords _ bareArguments _ rfl rfl rfl rfl

/-- A template of one byte that starts no character is not told of, neither by the loader nor
by the command. -/
theorem undecodable_template_escapes :
    (bareDesk ⟨#[0xff]⟩).files.loadTemplate (.ofText "template.json") = .error .notText ∧
      Failure.notText.isReported = false ∧
      run none bareEnvironment bareWords (bareDesk ⟨#[0xff]⟩) =
        (.failed .notText, bareDesk ⟨#[0xff]⟩) :=
  ⟨rfl, rfl, rfl⟩

end CommandLine
end GatewayDocs
