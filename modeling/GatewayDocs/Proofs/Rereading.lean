import GatewayDocs.Proofs.Endpoint
import GatewayDocs.Proofs.Numeral
import GatewayDocs.Proofs.Plain

/-! # Documentation that is read again

A documentation that was read is written with the names of its fields, and is read from that as the
same documentation (`EndpointDocumentation.read_again`).  For every kind of part there are two
halves.  What is read is settled: the keys that are kept are distinct and name no field, and the
content types of models are distinct (`EndpointDocumentation.settled_of_ofValue`).  What is settled
is read as it is written (`EndpointDocumentation.ofValue_toValue`).

A key that is a run of bytes is kept as the text that it encodes, but no field is found under it, so
that a field's name may be kept as the key of another pair, which is not read again
(`EndpointDocumentation.encoded_not_read_again`).  There are no such keys in JSON, nor in any other
plain value (`Value.keysNoBytes_of_isPlain`). -/

namespace GatewayDocs
open Shape

/-! ### Keys that are no runs of bytes -/

namespace Value

/-- The parts of a value: itself, and the items and the values of the pairs of its parts. -/
inductive PartOf (v : Value) : Value → Prop where
  | self : PartOf v v
  | item {w x : Value} {items : List Value} :
      PartOf v w → items? w = some items → x ∈ items → PartOf v x
  | field {w : Value} {fs : Fields} {kv : Atom × Value} :
      PartOf v w → w.fields? = some fs → kv ∈ fs → PartOf v kv.2

/-- No key of an object in a value is a run of bytes. -/
def KeysNoBytes (v : Value) : Prop :=
  ∀ w fs, PartOf v w → w.fields? = some fs → ∀ kv ∈ fs, ∀ bs, kv.1 ≠ .bytes bs

variable {v w x : Value} {P : Value → Prop}

theorem PartOf.trans (hw : PartOf v w) (hx : PartOf w x) : PartOf v x := by
  induction hx with
  | self => exact hw
  | item _ hitems hmem ih => exact .item ih hitems hmem
  | field _ hfields hmem ih => exact .field ih hfields hmem

theorem PartOf.hands (hP : Hereditary P) (hv : P v) (hw : PartOf v w) : P w := by
  induction hw with
  | self => exact hv
  | item _ hitems hmem ih => exact hP.items hitems ih _ hmem
  | field _ hfields hmem ih => exact hP.fields hfields ih _ hmem

theorem hereditary_keysNoBytes : Hereditary KeysNoBytes where
  items hitems hv _ hx w fs hw := hv w fs ((PartOf.self.item hitems hx).trans hw)
  fields hfields hv _ hkv w fs hw := hv w fs ((PartOf.self.field hfields hkv).trans hw)

/-- The parts of a plain value are plain. -/
theorem hereditary_isPlain : Hereditary fun v => v.isPlain = true := by
  constructor
  · intro v items hitems h
    cases v with
    | list xs =>
      cases hitems
      exact isPlain_list.mp h
    | atom | object => cases hitems
    | _ => cases h
  · intro v fs hfs h
    cases v with
    | object gs =>
      cases hfs
      exact isPlain_of_mem_fields h
    | atom | list => cases hfs
    | _ => cases h

theorem keysNoBytes_of_isPlain (h : v.isPlain = true) : v.KeysNoBytes := by
  intro w fs hw hfs kv hkv bs
  have hplain := hw.hands hereditary_isPlain h
  cases w with
  | object gs =>
    cases hfs
    obtain ⟨s, hs⟩ := (keyed_of_isPlain hplain).text _ (List.mem_map_of_mem hkv)
    simp [hs]
  | atom | list => cases hfs
  | _ => cases hplain

end Value

namespace Shape
variable {α : Type} {read : Value → Checked α} {readFields : Fields → Checked α}
  {write : α → Value} {fs known extra kept : Fields} {name : String} {names : List String}
  {table : List (List String)} {v : Value} {a default : α}

/-! ### Pairs beside fields -/

/-- No field is given under two of its names. -/
def GivesOnce (table : List (List String)) (fs : Fields) : Prop :=
  ∀ names ∈ table, ∀ s ∈ names, ∀ t ∈ names,
    .str s ∈ Pairs.keys fs → .str t ∈ Pairs.keys fs → s = t

/-- The keys of some pairs are distinct texts of characters, none of which names a field. -/
structure Beside (table : List (List String)) (extra : Fields) : Prop where
  keyed : Pairs.Keyed extra
  whole : ∀ kv ∈ extra, isBroken kv.1 = false
  other : ∀ names ∈ table, ∀ s ∈ names, .str s ∉ Pairs.keys extra

/-- A field that is given once is found under the name under which it is given. -/
theorem isNamed_usedNames (h : GivesOnce table fs) (hnames : names ∈ table) (hname : name ∈ names)
    (hkey : .str name ∈ Pairs.keys fs) : isNamed (usedNames table fs) (.str name) = true := by
  have hsome : (find? names fs).isSome := by
    refine List.findSome?_isSome_iff.mpr ⟨name, hname, ?_⟩
    rw [Option.isSome_map]
    exact Pairs.lookup_isSome_iff.mpr hkey
  obtain ⟨⟨t, v⟩, hfound⟩ := Option.isSome_iff_exists.mp hsome
  obtain ⟨ht, hat⟩ := find?_eq_some hfound
  obtain rfl := h names hnames t ht name hname (Pairs.mem_keys_of_lookup hat) hkey
  refine List.contains_iff_mem.mpr (List.mem_filterMap.mpr ⟨names, hnames, ?_⟩)
  rw [hfound]
  rfl

theorem eq_of_extraKey {k : Atom} (h : extraKey k = .ok (.str name))
    (hbytes : ∀ bs, k ≠ .bytes bs) : k = .str name := by
  cases k with
  | str s => exact Checked.ok.inj h
  | bytes bs => exact absurd rfl (hbytes bs)
  | _ => cases h

/-- What is kept of pairs that give every field once stands beside the fields. -/
theorem beside_of_extras (hbytes : ∀ kv ∈ fs, ∀ bs, kv.1 ≠ .bytes bs)
    (hwhole : ∀ kv ∈ fs, isBroken kv.1 = false) (honce : GivesOnce table fs)
    (h : extras table fs = .ok kept) : Beside table kept := by
  obtain ⟨pairs, rfl, hpairs⟩ := exists_of_extras h
  have hkeys : ∀ kv ∈ Pairs.putAll [] pairs,
      (isBroken kv.1 = false ∧ ∀ names ∈ table, ∀ s ∈ names, kv.1 ≠ .str s) ∧ True := by
    refine Pairs.forall_putAll (Q := fun _ => True)
      (K := fun k => isBroken k = false ∧ ∀ names ∈ table, ∀ s ∈ names, k ≠ .str s)
      (by simp) fun kv hkv => ?_
    obtain ⟨k, s, hmem, hkey, hread, hother⟩ := hpairs kv hkv
    obtain rfl := eq_of_extraKey hread (hbytes _ hmem)
    refine ⟨⟨hkey ▸ hwhole _ hmem, fun names hnames t ht he => ?_⟩, trivial⟩
    rw [hkey] at he
    cases he
    rw [isNamed_usedNames honce hnames ht (List.mem_map_of_mem hmem)] at hother
    cases hother
  refine ⟨Pairs.Keyed.nil.putAll fun kv hkv => ?_, fun kv hkv => (hkeys kv hkv).1.1, ?_⟩
  · obtain ⟨k, s, -, hs, -, -⟩ := hpairs kv hkv
    exact ⟨s, hs⟩
  · intro names hnames s hs hmem
    obtain ⟨kv, hkv, hkey⟩ := List.mem_map.mp hmem
    exact (hkeys kv hkv).1.2 names hnames s hs hkey

/-! ### Reading what is written -/

/-- Pairs whose keys are names of fields, each found under its key. -/
structure Known (table : List (List String)) (known : Fields) : Prop where
  keyed : Pairs.Keyed known
  whole : (Pairs.keys known).any isBroken = false
  named : (Pairs.keys known).all (isNamed (usedNames table known)) = true

theorem Known.isBroken_eq (h : Known table known) {kv : Atom × Value} (hkv : kv ∈ known) :
    isBroken kv.1 = false :=
  Bool.eq_false_iff.mpr (List.any_eq_false.mp h.whole _ (List.mem_map_of_mem hkv))

theorem Known.isNamed_eq (h : Known table known) {kv : Atom × Value} (hkv : kv ∈ known) :
    isNamed (usedNames table known) kv.1 = true :=
  List.all_eq_true.mp h.named _ (List.mem_map_of_mem hkv)

theorem exists_of_mem_usedNames {s : String} (h : s ∈ usedNames table fs) :
    ∃ names ∈ table, s ∈ names := by
  obtain ⟨names, hnames, hfound⟩ := List.mem_filterMap.mp h
  obtain ⟨⟨t, v⟩, hfind, rfl⟩ := Option.map_eq_some_iff.mp hfound
  exact ⟨names, hnames, (find?_eq_some hfind).1⟩

theorem Known.putAll_eq (hknown : Known table known) (h : Beside table extra) :
    Pairs.putAll known extra = known ++ extra := by
  refine Pairs.putAll_eq_append h.keyed fun s hextra hown => ?_
  obtain ⟨kv, hkv, hkey⟩ := List.mem_map.mp hown
  have hnamed := hknown.isNamed_eq hkv
  rw [hkey] at hnamed
  obtain ⟨names, hnames, hs⟩ := exists_of_mem_usedNames (List.contains_iff_mem.mp hnamed)
  exact h.other names hnames s hs hextra

/-- Fields are not found among pairs that have none of their names. -/
theorem find?_append (h : ∀ s ∈ names, .str s ∉ Pairs.keys extra) :
    find? names (known ++ extra) = find? names known := by
  induction names with
  | nil => rfl
  | cons s names ih =>
    obtain ⟨hs, hnames⟩ := List.forall_mem_cons.mp h
    have hget : Fields.get? s (known ++ extra) = Fields.get? s known := by
      rw [Fields.get?, Pairs.lookup_append, Pairs.lookup_eq_none_iff.mpr hs, Option.or_none]
      rfl
    unfold find? at ih ⊢
    rw [List.findSome?_cons, List.findSome?_cons, hget, ih hnames]

theorem find?_beside (h : Beside table extra) (hnames : names ∈ table) :
    find? names (known ++ extra) = find? names known :=
  find?_append (h.other names hnames)

theorem usedNames_beside (h : Beside table extra) :
    usedNames table (known ++ extra) = usedNames table known :=
  List.filterMap_congr fun names hnames => by rw [find?_beside h hnames]

/-- The pairs beside the known ones are kept. -/
theorem Known.extras_eq (hknown : Known table known) (h : Beside table extra) :
    extras table (known ++ extra) = .ok extra := by
  have hkeyed : Pairs.Keyed (known ++ extra) := by
    rw [← hknown.putAll_eq h]
    refine hknown.keyed.putAll fun kv hkv => h.keyed.text _ (List.mem_map_of_mem hkv)
  have hown : known.filter (fun kv => !isNamed (usedNames table known) kv.1) = [] := by
    refine List.filter_eq_nil_iff.mpr fun kv hkv => ?_
    rw [hknown.isNamed_eq hkv]
    exact Bool.false_ne_true
  have hothers : extra.filter (fun kv => !isNamed (usedNames table known) kv.1) = extra := by
    refine List.filter_eq_self.mpr fun kv hkv => ?_
    obtain ⟨s, hs⟩ := h.keyed.text _ (List.mem_map_of_mem hkv)
    rw [hs, Bool.not_eq_true', Bool.eq_false_iff]
    intro hnamed
    obtain ⟨names, hnames, hmem⟩ := exists_of_mem_usedNames (List.contains_iff_mem.mp hnamed)
    exact h.other names hnames s hmem (hs ▸ List.mem_map_of_mem hkv)
  rw [extras_of_keyed hkeyed, usedNames_beside h, List.filter_append, hown, hothers,
    List.nil_append]

/-- A record is read from the known pairs and those beside them. -/
theorem Known.openRecord_eq (hknown : Known table known) (h : Beside table extra) :
    openRecord readFields (.object (Pairs.putAll known extra)) = readFields (known ++ extra) := by
  have hwhole : (known ++ extra).any (fun kv => isBroken kv.1) = false := by
    rw [List.any_eq_false]
    intro kv hkv
    rw [(List.mem_append.mp hkv).elim hknown.isBroken_eq (h.whole kv)]
    exact Bool.false_ne_true
  rw [openRecord, hknown.putAll_eq h, Value.fields?_object]
  simp only [hwhole, Bool.false_eq_true, if_false]

theorem optional_of_find? (hfound : find? names fs = some (name, v)) (hread : read v = .ok a) :
    optional names default read fs = .ok a := by
  unfold optional
  rw [hfound]
  exact Checked.within_eq_ok.mpr hread

theorem optional_beside (h : Beside table extra) (hnames : names ∈ table)
    (hfound : find? names known = some (name, v)) (hread : read v = .ok a) :
    optional names default read (known ++ extra) = .ok a :=
  optional_of_find? ((find?_beside h hnames).trans hfound) hread

theorem listOf_map {xs : List α} (h : ∀ x ∈ xs, read (write x) = .ok x) :
    listOf read (.list (xs.map write)) = .ok xs := by
  have hitems : ∀ i, itemsFrom read i (xs.map write) = xs.map .ok := by
    induction xs with
    | nil => exact fun _ => rfl
    | cons x xs ih =>
      obtain ⟨hx, hxs⟩ := List.forall_mem_cons.mp h
      intro i
      rw [List.map_cons, itemsFrom, ih hxs, hx]
      rfl
  exact Checked.all_eq_ok.mpr (hitems 0)

theorem orNull_textOrNull (s? : Option String) : orNull text (textOrNull s?) = .ok s? := by
  cases s? <;> rfl

theorem orNull_flagOrNull (b? : Option Bool) : orNull flag (flagOrNull b?) = .ok b? := by
  cases b? <;> rfl

end Shape

/-! ### Parameters and models -/

theorem Parameter.ofValue_toValue (p : Parameter) : ofValue p.toValue = .ok p :=
  ofFields_eq_ok.mpr ⟨rfl, optional_of_find? rfl (orNull_textOrNull _),
    optional_of_find? rfl (orNull_flagOrNull _)⟩

theorem Parameter.listOf_toValue (ps : List Parameter) :
    listOf ofValue (.list (ps.map toValue)) = .ok ps :=
  listOf_map fun p _ => p.ofValue_toValue

theorem ModelRef.ofValue_toValue (r : ModelRef) : ofValue r.toValue = .ok r := by
  cases r <;> rfl

namespace ModelRefs
variable {P : Value → Prop} {refs : ModelRefs}

theorem ofFields_toValue (refs : ModelRefs) :
    ofFields (refs.map fun kr => (kr.1, kr.2.toValue)) = .ok refs := by
  induction refs with
  | nil => rfl
  | cons kr refs ih =>
    rw [List.map_cons, ofFields, ModelRef.ofValue_toValue, Result.ok_bind, ih]
    rfl

theorem ofValue_toValue (h : Pairs.Keyed refs) : ofValue refs.toValue = .ok refs := by
  have hread := ofFields_toValue refs
  unfold toValue ofValue
  simp only [Value.fields?_object, hread]
  exact mapFrom_of_keyed h

theorem keyed_hands : Hands P Pairs.Keyed ofValue := by
  intro v refs _ h
  unfold ofValue at h
  split at h
  · cases h
    exact .nil
  · split at h
    · split at h
      · exact keyed_of_mapFrom h
      · cases h
    · cases h

end ModelRefs

/-! ### Bodies -/

namespace Body
variable {b : Body}

/-- What is kept of a body stands beside its fields. -/
def Settled (b : Body) : Prop := Beside names b.extra

theorem givesOnce (fs : Fields) : GivesOnce names fs := by
  simp [GivesOnce, names]

theorem settled_hands : Hands Value.KeysNoBytes Settled ofValue := by
  intro v b hv h
  obtain ⟨fs, hfs, hwhole, hread⟩ := openRecord_eq_ok.mp h
  exact beside_of_extras (hv v fs .self hfs) hwhole (givesOnce fs) (ofFields_eq_ok.mp hread).extra

theorem known (description : Value) : Known names [(.str "description", description)] where
  keyed := by simp [Pairs.keyed_cons, Pairs.Keyed.nil]
  whole := rfl
  named := rfl

theorem ofValue_toValue (h : b.Settled) : ofValue b.toValue = .ok b := by
  have hknown := known (textOrNull b.description)
  rw [ofValue, toValue, toFields, hknown.openRecord_eq h]
  exact ofFields_eq_ok.mpr ⟨optional_beside h (by simp [names]) rfl (orNull_textOrNull _),
    hknown.extras_eq h⟩

theorem orNull_bodyOrNull {b? : Option Body} (h : ∀ b ∈ b?, b.Settled) :
    orNull ofValue (bodyOrNull b?) = .ok b? := by
  cases b? with
  | none => rfl
  | some b => exact Checked.map_eq_ok.mpr ⟨b, ofValue_toValue (h b rfl), rfl⟩

end Body

/-! ### Responses -/

namespace MethodResponse
variable {r : MethodResponse}

/-- The body of a response is settled, and its content types are distinct texts. -/
structure Settled (r : MethodResponse) : Prop where
  body : ∀ b ∈ r.body, b.Settled
  models : Pairs.Keyed r.models

theorem settled_hands : Hands Value.KeysNoBytes Settled ofValue := by
  refine record_hands Value.hereditary_keysNoBytes fun {fs r} hfs h => ?_
  have hread := ofFields_eq_ok.mp h
  exact ⟨optional_hands (Q := fun b? : Option Body => ∀ b ∈ b?, b.Settled)
      (orNull_hands Body.settled_hands) (by simp) hfs hread.body,
    optional_hands ModelRefs.keyed_hands .nil hfs hread.models⟩

theorem ofValue_toValue (h : r.Settled) : ofValue r.toValue = .ok r :=
  ofFields_eq_ok.mpr ⟨rfl, optional_of_find? rfl (orNull_textOrNull _),
    optional_of_find? rfl (Body.orNull_bodyOrNull h.body),
    optional_of_find? rfl (Parameter.listOf_toValue _),
    optional_of_find? rfl (ModelRefs.ofValue_toValue h.models)⟩

end MethodResponse

/-! ### Documentation of an endpoint -/

namespace EndpointDocumentation
variable {v : Value} {d : EndpointDocumentation}

/-- The parts of a documentation are settled, and what is kept stands beside its fields. -/
structure Settled (d : EndpointDocumentation) : Prop where
  body : ∀ b ∈ d.body, b.Settled
  models : Pairs.Keyed d.models
  responses : ∀ r ∈ d.responses, r.Settled
  extra : Beside names d.extra

theorem settled_of_ofValue (h : ofValue v = .ok d) (hkeys : v.KeysNoBytes)
    (honce : ∀ fs, v.fields? = some fs → GivesOnce names fs) : d.Settled := by
  obtain ⟨fs, hfs, hwhole, hfields⟩ := openRecord_eq_ok.mp h
  have hread := ofFields_eq_ok.mp hfields
  have hparts : fs.Hold Value.KeysNoBytes := Value.hereditary_keysNoBytes.fields hfs hkeys
  exact {
    body := optional_hands (Q := fun b? : Option Body => ∀ b ∈ b?, b.Settled)
      (orNull_hands Body.settled_hands) (by simp) hparts hread.body
    models := optional_hands ModelRefs.keyed_hands .nil hparts hread.models
    responses := optional_hands
      (listOf_hands Value.hereditary_keysNoBytes MethodResponse.settled_hands)
      (List.forall_mem_nil _) hparts hread.responses
    extra := beside_of_extras (hkeys v fs .self hfs) hwhole (honce fs hfs) hread.extra }

/-- The pairs of the fields of a documentation. -/
def ownFields (d : EndpointDocumentation) : Fields :=
  [(.str "summary", textOrNull d.summary), (.str "description", textOrNull d.description),
    (.str "tags", .list (d.tags.map .str)), (.str "request_body", bodyOrNull d.body),
    (.str "request_headers", .list (d.headers.map Parameter.toValue)),
    (.str "path_params", .list (d.pathParameters.map Parameter.toValue)),
    (.str "query_params", .list (d.queryParameters.map Parameter.toValue)),
    (.str "request_models", d.models.toValue),
    (.str "method_responses", .list (d.responses.map MethodResponse.toValue))]

theorem known_ownFields (d : EndpointDocumentation) : Known names d.ownFields where
  keyed := by simp [ownFields, Pairs.keyed_cons, Pairs.Keyed.nil]
  whole := rfl
  named := rfl

theorem ofValue_toValue (h : d.Settled) : ofValue d.toValue = .ok d := by
  have hknown := d.known_ownFields
  have hwritten : d.toValue = .object (Pairs.putAll d.ownFields d.extra) := rfl
  rw [ofValue, hwritten, hknown.openRecord_eq h.extra]
  exact ofFields_eq_ok.mpr {
    summary := optional_beside h.extra (by simp [names]) rfl (orNull_textOrNull _)
    description := optional_beside h.extra (by simp [names]) rfl (orNull_textOrNull _)
    tags := optional_beside h.extra (by simp [names]) rfl (listOf_map fun _ _ => rfl)
    body := optional_beside h.extra (by simp [names]) rfl (Body.orNull_bodyOrNull h.body)
    headers := optional_beside h.extra (by simp [names]) rfl (Parameter.listOf_toValue _)
    pathParameters :=
      optional_beside h.extra (by simp [names]) rfl (Parameter.listOf_toValue _)
    queryParameters :=
      optional_beside h.extra (by simp [names]) rfl (Parameter.listOf_toValue _)
    models := optional_beside h.extra (by simp [names]) rfl (ModelRefs.ofValue_toValue h.models)
    responses := optional_beside h.extra (by simp [names]) rfl
      (listOf_map fun r hr => r.ofValue_toValue (h.responses r hr))
    extra := hknown.extras_eq h.extra }

/-- **Documentation is read again as it is written.**  What was read from a value is written with
the pairs of its fields first and those that are kept at the end, and is read from that as the same,
if no key of the value is bytes.  It is enough that the value itself gives no field under two names:
parts with two names for a field keep no other pairs. -/
theorem read_again (h : ofValue v = .ok d) (hkeys : v.KeysNoBytes)
    (honce : ∀ fs, v.fields? = some fs → GivesOnce names fs) :
    d.toValue = .object (d.ownFields ++ d.extra) ∧ ofValue d.toValue = .ok d := by
  have hsettled := settled_of_ofValue h hkeys honce
  exact ⟨congrArg Value.object (d.known_ownFields.putAll_eq hsettled.extra),
    ofValue_toValue hsettled⟩

/-- A response with a number as its code, an absent map of models, and a further pair in its
body. -/
def givenResponse : Value :=
  .ofPairs [("statusCode", .int 404), ("response_models", .null),
    ("responseBody", .ofPairs [("x-note", .bool true), ("description", .str "None")])]

/-- A documentation with names of both kinds, a word for a truth value, an imported model, and
further pairs at all levels. -/
def givenDocumentation : Value :=
  .ofPairs [
    ("x-owner", .ofPairs [("team", .list [.int 1, .null])]),
    ("requestBody", .ofPairs [("example", .ofPairs [("id", .int 7)]), ("description", .str "New")]),
    ("query_params", .list [.ofPairs [("name", .str "q"), ("required", .str "Yes"),
      ("style", .str "form")]]),
    ("requestModels", .ofPairs [("application/json", .str "User"),
      ("text/plain", .ofPairs [("import", .ofPairs [("Ref", .list [.str "Plain"])])])]),
    ("methodResponses", .list [givenResponse])]

/-- What is read from `givenDocumentation`. -/
def readDocumentation : EndpointDocumentation where
  summary := none
  description := none
  tags := []
  body := some ⟨some "New", [(.str "example", .ofPairs [("id", .int 7)])]⟩
  headers := []
  pathParameters := []
  queryParameters := [⟨"q", none, some true⟩]
  models := [(.str "application/json", .direct "User"),
    (.str "text/plain", .imported (.ofPairs [("Ref", .list [.str "Plain"])]))]
  responses := [⟨"404", none, some ⟨some "None", [(.str "x-note", .bool true)]⟩, [], []⟩]
  extra := [(.str "x-owner", .ofPairs [("team", .list [.int 1, .null])])]

theorem ofValue_givenDocumentation : ofValue givenDocumentation = .ok readDocumentation := by
  have hdigits : Decimal.natDigits 404 = ['4', '0', '4'] := by
    rw [Decimal.natDigits_of_le (by decide), Decimal.natDigits_of_le (by decide),
      Decimal.natDigits_of_lt (by decide)]
    rfl
  have hwritable : (Value.int 404).isWritable = true := by
    show Decimal.usualLimit.allows (Decimal.natDigits 404).length = true
    rw [hdigits]
    rfl
  have htext : (Value.int 404).spelled = "404" := by
    show String.ofList (Decimal.natDigits 404) = "404"
    rw [hdigits]
  have hcode : spelled (.int 404) = .ok "404" := by
    rw [spelled, Value.text, hwritable, htext]
    rfl
  have hresponse : MethodResponse.ofValue givenResponse =
      .ok ⟨"404", none, some ⟨some "None", [(.str "x-note", .bool true)]⟩, [], []⟩ :=
    MethodResponse.ofFields_eq_ok.mpr ⟨Checked.within_eq_ok.mpr hcode, rfl, rfl, rfl, rfl⟩
  have hresponses : listOf MethodResponse.ofValue (.list [givenResponse]) =
      .ok readDocumentation.responses :=
    Checked.all_eq_ok.mpr (congrArg (fun r => [Checked.within (.index 0) r]) hresponse)
  exact openRecord_eq_ok.mpr ⟨_, rfl, by decide, ofFields_eq_ok.mpr
    ⟨rfl, rfl, rfl, rfl, rfl, rfl, rfl, rfl, optional_of_find? rfl hresponses, rfl⟩⟩

theorem read_again_givenDocumentation : ofValue givenDocumentation = .ok readDocumentation ∧
    ofValue readDocumentation.toValue = .ok readDocumentation := by
  have hread := ofValue_givenDocumentation
  refine ⟨hread, (read_again hread (Value.keysNoBytes_of_isPlain rfl) ?_).2⟩
  intro fs hfs
  cases hfs
  simp [GivesOnce, names]

/-- A documentation in which the name of a field is written in bytes. -/
def encodedDocumentation : Value := .object [(.bytes "summary".toUTF8.data.toList, .int 1)]

/-- What is read from it: a further pair. -/
def looseDocumentation : EndpointDocumentation := { empty with extra := [(.str "summary", .int 1)] }

/-- The bytes are kept as the text that they encode, which is then taken for the field. -/
theorem encoded_not_read_again : ofValue encodedDocumentation = .ok looseDocumentation ∧
    (∀ fs, encodedDocumentation.fields? = some fs → GivesOnce names fs) ∧
    ∀ d, ofValue looseDocumentation.toValue ≠ .ok d := by
  refine ⟨rfl, fun fs hfs => ?_, fun d hd => ?_⟩
  · cases hfs
    simp [GivesOnce]
  · cases hd

end EndpointDocumentation
end GatewayDocs
