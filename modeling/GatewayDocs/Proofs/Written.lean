import GatewayDocs.Proofs.Loading
import GatewayDocs.Proofs.Output
import GatewayDocs.Proofs.Tree

/-! # Values that are written are loaded again

A value without loss is written in characters of ASCII that are shown, and in newlines
(`Json.shown_render`), so what stands in the file is the text that was written, whatever marks
the ends of its lines.  It is JSON, and what it says is the value (`Json.parse_written`): the
loaders do not get to YAML.

`CommandLine.exists_of_writeJson` tells what a successful writing has done to the files, and
`CommandLine.exists_writeJson_iff` that it is the path alone that decides whether it succeeds,
unless integers are limited.  `CommandLine.written_is_loaded` puts the two together, for any value
without loss and for a template that was compiled. -/

namespace GatewayDocs

/-! ### The characters of written JSON -/

namespace Json
open Decimal
variable {a b c opening closing : Char} {cs : List Char} {v : Value} {n : Nat}

/-- Whether a character is shown in ASCII, or a newline. -/
def IsShown (c : Char) : Prop := c = '\n' ∨ 0x20 ≤ c.toNat ∧ c.toNat ≤ 0x7e

instance : DecidablePred IsShown := fun _ => inferInstanceAs (Decidable (_ ∨ _))

/-- Characters that are shown or newlines. -/
def Shown (cs : List Char) : Prop := ∀ c ∈ cs, IsShown c

instance (cs : List Char) : Decidable (Shown cs) := List.decidableBAll IsShown cs

theorem Shown.append {ds : List Char} (hc : Shown cs) (hd : Shown ds) : Shown (cs ++ ds) :=
  List.forall_mem_append.mpr ⟨hc, hd⟩

theorem isShown_of_le (h : a ≤ c ∧ c ≤ b) (ha : 0x20 ≤ a.toNat) (hb : b.toNat ≤ 0x7e) :
    IsShown c :=
  .inr ⟨Nat.le_trans ha (UInt32.le_iff_toNat_le.mp (Char.le_def.mp h.1)),
    Nat.le_trans (UInt32.le_iff_toNat_le.mp (Char.le_def.mp h.2)) hb⟩

theorem isShown_of_digitValue_lt (h : digitValue c < 36) : IsShown c := by
  unfold digitValue at h
  split at h
  · exact isShown_of_le ‹_› (by decide) (by decide)
  · split at h
    · exact isShown_of_le ‹_› (by decide) (by decide)
    · split at h
      · exact isShown_of_le ‹_› (by decide) (by decide)
      · exact absurd h (by decide)

theorem shown_natDigits (n : Nat) : Shown (natDigits n) := fun c hc =>
  isShown_of_digitValue_lt
    (Nat.lt_trans (digitValue_lt_of_mem_digits (by decide) (by decide) n c hc) (by decide))

theorem shown_intDigits (n : Int) : Shown (intDigits n) := by
  cases n with
  | ofNat n => exact shown_natDigits n
  | negSucc n => exact List.forall_mem_cons.mpr ⟨by decide, shown_natDigits (n + 1)⟩

theorem shown_escapeUnit (n : Nat) : Shown (escapeUnit n) := by
  refine List.forall_mem_cons.mpr ⟨by decide, List.forall_mem_cons.mpr ⟨by decide, fun c hc => ?_⟩⟩
  have hdigit := of_decide_eq_true (List.all_eq_true.mp (all_hexDigits n) c hc)
  exact isShown_of_digitValue_lt (Nat.lt_trans hdigit (by decide))

theorem shown_escapeCode (n : Nat) : Shown (escapeCode n) := by
  unfold escapeCode
  -- the codes with an escape of one letter do not stand in it, but for two that are shown
  iterate 7
    split
    · decide
  split
  · rename_i hplain
    rw [Bool.and_eq_true, decide_eq_true_eq, decide_eq_true_eq] at hplain
    have hunit : Units.isUnit n = false := Bool.eq_false_iff.mpr fun h => by
      have := (Units.isUnit_iff.mp h).1
      omega
    have htoNat := Units.toNat_ofNat hunit (Nat.lt_of_le_of_lt hplain.2 (by decide))
    exact List.forall_mem_singleton.mpr (.inr (htoNat.symm ▸ hplain))
  · split
    · exact shown_escapeUnit _
    · exact (shown_escapeUnit _).append (shown_escapeUnit _)

theorem shown_escape (s : String) : Shown (escape s) := by
  have hquote : Shown [Text.doubleQuote] := by decide
  have hbody : Shown ((Units.codes s.toList).flatMap escapeCode) := fun c hc => by
    obtain ⟨n, -, hmem⟩ := List.mem_flatMap.mp hc
    exact shown_escapeCode n c hmem
  exact (hquote.append hbody).append hquote

theorem shown_lineBreak (depth : Nat) : Shown (lineBreak indented depth) :=
  List.forall_mem_cons.mpr ⟨by decide, fun c hc => (List.mem_replicate.mp hc).2 ▸ by decide⟩

theorem shown_bracket {parts : List (List Char)} (depth : Nat) (hopening : IsShown opening)
    (hclosing : IsShown closing) (h : ∀ part ∈ parts, Shown part) :
    Shown (bracket indented depth opening closing parts) := by
  unfold bracket
  split
  · exact List.forall_mem_cons.mpr ⟨hopening, List.forall_mem_singleton.mpr hclosing⟩
  · have hinner := shown_lineBreak (depth + 1)
    have hitem : Shown (indented.item.toList ++ lineBreak indented (depth + 1)) :=
      Shown.append (by decide) hinner
    have hstart : Shown (opening :: lineBreak indented (depth + 1)) :=
      List.forall_mem_cons.mpr ⟨hopening, hinner⟩
    exact ((hstart.append (Units.forall_mem_intercalate hitem h)).append
      (shown_lineBreak depth)).append (List.forall_mem_singleton.mpr hclosing)

theorem renderItems_eq (layout : Layout) (depth : Nat) (items : List Value) :
    renderItems layout depth items = items.map (renderAt layout depth) := by
  induction items with
  | nil => rfl
  | cons v items ih => rw [renderItems, ih, List.map_cons]

theorem renderFields_eq (layout : Layout) (depth : Nat) (fields : Fields) :
    renderFields layout depth fields = fields.map fun kv =>
      renderKey kv.1 ++ layout.key.toList ++ renderAt layout depth kv.2 := by
  induction fields with
  | nil => rfl
  | cons kv fields ih => rw [renderFields, ih, List.map_cons]

/-- A value without loss is written in ASCII. -/
theorem shown_renderAt (h : v.Lossless) (depth : Nat) : Shown (renderAt indented depth v) := by
  induction h generalizing depth with
  | null =>
    rw [renderAt]
    decide
  | bool b =>
    rw [renderAt]
    cases b
    all_goals decide
  | int n =>
    rw [renderAt, renderAtom_int]
    exact shown_intDigits n
  | str _ =>
    rw [renderAt]
    exact shown_escape _
  | list _ ih =>
    rw [renderAt, renderItems_eq]
    exact shown_bracket depth (by decide) (by decide)
      (List.forall_mem_map.mpr fun v hv => ih v hv (depth + 1))
  | object _ _ _ ih =>
    rw [renderAt, renderFields_eq]
    refine shown_bracket depth (by decide) (by decide) (List.forall_mem_map.mpr fun kv hkv => ?_)
    exact ((shown_escape _).append (by decide)).append (ih kv hkv (depth + 1))

theorem shown_render (h : v.Lossless) : Shown (render indented v).toList := by
  rw [render, String.toList_ofList]
  exact shown_renderAt h 0

theorem write_of_lossless (h : v.Lossless) :
    write indented v none = .ok (render indented v) := by
  rw [write, obstacle?, obstacleIn?_of_lossless h]

end Json

/-! ### The text of a file -/

theorem newlines_of_shown {cs : List Char} (h : Json.Shown cs) : newlines cs = cs := by
  induction cs with
  | nil => rfl
  | cons c cs ih =>
    obtain ⟨hc, hcs⟩ := List.forall_mem_cons.mp h
    have hreturn : c ≠ '\r' := by
      rintro rfl
      exact absurd hc (by decide)
    rw [newlines, ih hcs]
    · rintro _ rfl
      exact absurd rfl hreturn
    · rintro rfl
      exact absurd rfl hreturn

theorem Text.decode?_encode (s : String) : Text.decode? (Text.encode s) = some s := by
  rw [decode?, encode, String.fromUTF8?, String.toUTF8, dif_pos s.isValidUTF8]
  rfl

namespace FileTree
variable {t u : FileTree} {p : Path} {place : Place} {bytes : ByteArray} {text : String}
  {fields : Fields} {limit : Decimal.DigitLimit}

theorem usable_of_checkPath (h : checkPath p = .ok ()) : p.Usable := by
  obtain ⟨-, husable⟩ | ⟨f, hf, -, -⟩ := checkPath_cases p
  · exact husable
  · cases h.symm.trans hf

theorem checkPath_of_usable (h : p.Usable) : checkPath p = .ok () := by
  obtain ⟨hcheck, -⟩ | ⟨f, -, -, hunusable⟩ := checkPath_cases p
  · exact hcheck
  · exact absurd h hunusable

theorem read_of_place (hplace : t.place p = .ok place) (hfile : t.get? place = some (.file bytes)) :
    t.read p = .ok bytes := by
  rw [FileTree.read, hplace, Result.ok_bind, hfile]
  rfl

/-- A file that is written has the text that was written, if all of it is shown. -/
theorem hasText_of_file (hcheck : checkPath p = .ok ()) (hplace : t.place p = .ok place)
    (hfile : t.get? place = some (.file (Text.encode text))) (h : Json.Shown text.toList) :
    t.HasText p text := by
  refine ⟨usable_of_checkPath hcheck, _, read_of_place hplace hfile, text,
    Text.decode?_encode text, ?_⟩
  rw [newlines_of_shown h, String.ofList_toList]

/-- A text that is an object in JSON is not read as YAML. -/
theorem HasText.load_of_parse (h : t.HasText p text)
    (hparse : Json.parse text limit = .ok (.object fields)) : t.load p limit = .ok fields := by
  obtain ⟨bytes, hread, given, hgiven, rfl⟩ := h.bytes
  rw [load_of_read (checkPath_of_usable h.path) hread, hgiven]
  dsimp only
  rw [readValue, hparse]
  rfl

/-- Whether the text of a file is a value in JSON. -/
def HoldsJson (t : FileTree) (p : Path) (v : Value) (limit : Decimal.DigitLimit) : Prop :=
  ∃ text, t.HasText p text ∧ Json.parse text limit = .ok v

/-- Whether a file holds an object in JSON, and is loaded as this object: as a service, or with
resources as a template. -/
structure Carries (t : FileTree) (p : Path) (fields : Fields) (limit : Decimal.DigitLimit) :
    Prop where
  json : t.HoldsJson p (.object fields) limit
  service : t.loadService p limit = .ok (.object fields)
  template : t.loadTemplate p limit = .ok (.object (fields.putNew "Resources" (.object [])))

theorem HoldsJson.carries (h : t.HoldsJson p (.object fields) limit) :
    t.Carries p fields limit := by
  obtain ⟨text, htext, hparse⟩ := h
  have hload := htext.load_of_parse hparse
  refine ⟨⟨text, htext, hparse⟩, ?_, ?_⟩
  · rw [loadService, hload]
    rfl
  · rw [loadTemplate, hload]
    rfl

/-- Whether a file can be written: the directory that it is in can be made, and then its path
leads to a place without a directory. -/
def Writable (t : FileTree) (p : Path) : Prop :=
  ∃ u place, makeParent p t = .ok () u ∧ checkPath p = .ok () ∧ u.place p = .ok place ∧
    u.get? place ≠ some .directory

end FileTree

/-! ### Values in files -/

namespace CommandLine
open FileTree Compile
variable {t t' : FileTree} {p : Path} {v : Value} {fields : Fields} {limit : Decimal.DigitLimit}
  {text : String}

theorem writeJson_eq_ok (h : writeJson p v limit t = .ok () t') :
    ∃ text u, Json.write Json.indented v limit = .ok text ∧ makeParent p t = .ok () u ∧
      save p (Text.encode (text ++ "\n")) u = .ok () t' := by
  obtain ⟨_, u, hparent, hrest⟩ := Edit.bind_eq_ok.mp h
  obtain ⟨text, hwrite, hsave⟩ := Edit.ofResult_bind_eq_ok.mp hrest
  exact ⟨text, _, hwrite, hparent, hsave⟩

/-- **What a successful writing has done**: it has changed the place that the path leads to, and
made directories. -/
theorem exists_of_writeJson (h : writeJson p v limit t = .ok () t') :
    ∃ text place, Json.write Json.indented v limit = .ok text ∧ checkPath p = .ok () ∧
      t'.place p = .ok place ∧ ChangesAt place (Text.encode (text ++ "\n")) t t' := by
  obtain ⟨text, u, hwrite, hparent, hsave⟩ := writeJson_eq_ok h
  obtain ⟨place, hcheck, hplace, hchanges⟩ := exists_changesAt_of_save hsave
  exact ⟨text, place, hwrite, hcheck, place_of_keeps hchanges.keepsDirectories hplace,
    hchanges.of_extends (extends_makeParent hparent)⟩

theorem writeJson_of_makeParent {u : FileTree} {place : Place}
    (hwrite : Json.write Json.indented v limit = .ok text) (hparent : makeParent p t = .ok () u)
    (hcheck : checkPath p = .ok ()) (hplace : u.place p = .ok place)
    (hfree : u.get? place ≠ some .directory) : writeJson p v limit t =
      .ok () (u.put place (.file (Text.encode (text ++ "\n")))) := by
  rw [writeJson, Edit.bind_of_ok hparent, Edit.ofResult_bind_of_ok hwrite]
  exact save_of_place hcheck hplace hfree

/-- A value that has a text is written if the path allows it. -/
theorem exists_writeJson_iff (hwrite : Json.write Json.indented v limit = .ok text) :
    (∃ t', writeJson p v limit t = .ok () t') ↔ t.Writable p := by
  constructor
  · rintro ⟨t', h⟩
    obtain ⟨_, u, -, hparent, hsave⟩ := writeJson_eq_ok h
    obtain ⟨place, hcheck, hplace, hchanges⟩ := exists_changesAt_of_save hsave
    exact ⟨u, place, hparent, hcheck, hplace, hchanges.before⟩
  · rintro ⟨u, place, hparent, hcheck, hplace, hfree⟩
    exact ⟨_, writeJson_of_makeParent hwrite hparent hcheck hplace hfree⟩

/-- A file with the text of a value without loss, and a newline, holds the value. -/
theorem holdsJson_of_file {place : Place} (hv : v.Lossless)
    (hwrite : Json.write Json.indented v limit = .ok text) (hcheck : checkPath p = .ok ())
    (hplace : t.place p = .ok place)
    (hfile : t.get? place = some (.file (Text.encode (text ++ "\n")))) : t.HoldsJson p v limit := by
  unfold Json.write at hwrite
  split at hwrite
  · rename_i hno
    cases hwrite
    refine ⟨_, hasText_of_file hcheck hplace hfile ?_,
      Json.parse_written Json.loose_indented hv hno Json.blank_newline⟩
    rw [String.toList_append]
    exact (Json.shown_render hv).append (by decide)
  · cases hwrite

/-- **A file that is written holds the value.** -/
theorem holdsJson_of_writeJson (hv : v.Lossless) (h : writeJson p v limit t = .ok () t') :
    t'.HoldsJson p v limit := by
  obtain ⟨text, place, hwrite, hcheck, hplace, hchanges⟩ := exists_of_writeJson h
  exact holdsJson_of_file hv hwrite hcheck hplace hchanges.file

/-! ### Templates that are compiled -/

/-- A compilation leaves a template with resources, if one was given. -/
theorem exists_compiled {service : Value} {settings : CompileSettings} {w w' : Workspace}
    {c : Compiled} (hn : Pairs.Keyed (Compile.resourcesOf w.template))
    (hgiven : w.template = .object fields)
    (hhas : Pairs.has (.str resourcesKey) fields = true)
    (h : compile service settings w = .ok c w') :
    ∃ compiled, w'.template = .object compiled ∧
      Pairs.has (.str resourcesKey) compiled = true := by
  obtain ⟨g, -, -, ⟨-, -, rfl⟩ | ⟨_, ga, -, -, -, -, hcommit⟩⟩ := Compile.compile_course hn h
  · exact ⟨fields, hgiven, hhas⟩
  · obtain ⟨given, pairs, -, -, htemplate⟩ := Compile.commit_iff.mp hcommit
    exact ⟨_, htemplate, congrArg Option.isSome (Compile.resources_committed _ _ pairs given)⟩

/-- Whether a template is written wherever a file can be, if integers are not limited, and then
loaded as it was. -/
structure Reloads (template : Value) : Prop where
  written : ∀ t p, (∃ u, writeJson p template none t = .ok () u) ↔ t.Writable p
  loaded : ∀ {t u p limit}, writeJson p template limit t = .ok () u →
    u.loadTemplate p limit = .ok template

/-- An object without loss that has resources is loaded as it was written. -/
theorem reloads_of_lossless (h : (Value.object fields).Lossless)
    (hhas : Pairs.has (.str resourcesKey) fields = true) : Reloads (.object fields) where
  written := fun _ _ => exists_writeJson_iff (Json.write_of_lossless h)
  loaded := fun hwrite => by
    have hnew : fields.putNew "Resources" (.object []) = fields := Pairs.putNew_of_has hhas
    rw [(holdsJson_of_writeJson h hwrite).carries.template, hnew]

/-- **What is written is loaded.**  An object without loss is any JSON object without floating-point
numbers (`Value.lossless_iff_isJsonData`), whatever the characters of its texts are
(`Value.lossless_ofChars`).  It is written, if integers are not limited, wherever a file can be; and
whenever it is written, under any limit, the file is JSON and is loaded as this object, with its
keys in the same order, as a service, and with resources as a template.  A loaded template that is
compiled with a service and its settings, all without loss, is written and loaded as it was
compiled. -/
theorem written_is_loaded :
    (∀ {fields : Fields}, (Value.object fields).Lossless → ∀ (t : FileTree) (p : Path),
      ((∃ u, writeJson p (.object fields) none t = .ok () u) ↔ t.Writable p) ∧
      ∀ limit u, writeJson p (.object fields) limit t = .ok () u → u.Carries p fields limit) ∧
    ∀ {t : FileTree} {p : Path} {limit : Decimal.DigitLimit} {service template options : Value}
      {env : SplitEnvironment} {settings : CompileSettings} {m : Metrics} {c : Compiled}
      {w : Workspace}, service.Lossless → template.Lossless →
      t.loadTemplate p limit = .ok template →
      CompileSettings.ofService service options env = .ok settings →
      compile service settings ⟨template, m⟩ = .ok c w → Reloads w.template := by
  refine ⟨fun h t p => ⟨?_, ?_⟩, ?_⟩
  · exact exists_writeJson_iff (Json.write_of_lossless h)
  · exact fun limit u hwrite => (holdsJson_of_writeJson h hwrite).carries
  · intro t p limit service template options env settings m c w hservice htemplate hload hsettings
      hcompile
    obtain ⟨fields, -, hfields⟩ := Result.bind_eq_ok.mp hload
    have hn := (Compile.textKeys_of_isPlain (Value.isPlain_of_lossless htemplate)).names
    obtain ⟨compiled, hobject, hhas⟩ :=
      exists_compiled hn (Except.ok.inj hfields).symm Pairs.has_putNew hcompile
    have hlossless := (compile_lossless hservice htemplate
      (CompileSettings.lossless_restApi hservice hsettings) hcompile).1
    rw [hobject] at hlossless ⊢
    exact reloads_of_lossless hlossless hhas

/-- The template of the small service, with a description of characters that are escaped, and with
empty parts. -/
def describedTemplate : Fields :=
  [(.str "Description", .str "Größe\t\x7f 🌷\n"),
    (.str "Outputs", .object []), (.str "Limits", .list [.list [], .int (-7)]),
    (.str "Resources", petTemplate.fieldOrNull "Resources")]

/-- That template is written into a directory that is not there, loaded, compiled with the small
service, and loaded again wherever the result is written. -/
theorem written_is_loaded_described :
    (Value.object describedTemplate).Lossless ∧ petService.Lossless ∧
      ∃ settings u c w,
        CompileSettings.ofService petService (.object []) ⟨none, none⟩ = .ok settings ∧
        writeJson (.ofText "out/template.json") (.object describedTemplate) none .empty = .ok () u ∧
        u.Carries (.ofText "out/template.json") describedTemplate none ∧
        u.loadTemplate (.ofText "out/template.json") none = .ok (.object describedTemplate) ∧
        compile petService settings ⟨.object describedTemplate, .empty⟩ = .ok c w ∧
        Reloads w.template := by
  have htemplate : (Value.object describedTemplate).Lossless := by decide
  have hservice : petService.Lossless := by decide
  obtain ⟨hwritten, hcarried⟩ := written_is_loaded.1 htemplate .empty (.ofText "out/template.json")
  obtain ⟨u, hu⟩ := hwritten.mpr ⟨_, ["out", "template.json"],
    makeParent_of_makeOne rfl rfl, rfl, rfl, fun h => nomatch h⟩
  have hcarries := hcarried none u hu
  have hload : u.loadTemplate (.ofText "out/template.json") none =
      .ok (.object describedTemplate) := hcarries.template
  obtain ⟨settings, c, w, hsettings, hcompile⟩ : ∃ settings c w,
      CompileSettings.ofService petService (.object []) ⟨none, none⟩ = .ok settings ∧
        compile petService settings ⟨.object describedTemplate, .empty⟩ = .ok c w :=
    ⟨_, _, _, rfl, rfl⟩
  exact ⟨htemplate, hservice, settings, u, c, w, hsettings, hu, hcarries, hload, hcompile,
    written_is_loaded.2 hservice htemplate hload hsettings hcompile⟩

end CommandLine
end GatewayDocs
