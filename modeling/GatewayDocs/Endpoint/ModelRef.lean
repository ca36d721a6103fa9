import GatewayDocs.Shape.Objects

/-! # Model references

Documentation refers to a model by name if it is declared beside it (`ModelRef.direct`), or
by the identifier under which it was provisioned elsewhere (`ModelRef.imported`).

A reference is written as an object with an entry `import`, as an object that says its
kind, or as anything else, whose text is then the name of the model. -/

namespace GatewayDocs

/-- A reference to a model. -/
inductive ModelRef where
  | direct (name : String)
  | imported (identifier : Value)

namespace ModelRef

/-- Whether a value is a given text. -/
def isText (s : String) : Value → Bool
  | .str t => t = s
  | _ => false

/-- Reads a reference. -/
def ofValue (v : Value) : Result ModelRef :=
  match v.fields? with
  | some fields =>
    match Fields.get? "import" fields with
    | some identifier => .ok (imported identifier)
    | none =>
      let kind := Fields.get "kind" fields
      if isText "imported" kind then .ok (imported (Fields.get "identifier" fields))
      else if isText "direct" kind then direct <$> (Fields.get "name" fields).text
      else .error (if v.isWritable then .notReference v else .longInteger)
  | none => direct <$> v.text

/-- Writes a reference as an object that says its kind. -/
def toValue : ModelRef → Value
  | direct name => .ofPairs [("kind", .str "direct"), ("name", .str name)]
  | imported identifier =>
    .ofPairs [("kind", .str "imported"), ("identifier", identifier)]

/-- The identifier of an imported model. -/
def identifier? : ModelRef → Option Value
  | direct _ => none
  | imported identifier => some identifier

/-- The name of a directly referenced model. -/
def name? : ModelRef → Option String
  | direct name => some name
  | imported _ => none

end ModelRef

/-- References by content type. -/
abbrev ModelRefs := List (Atom × ModelRef)

namespace ModelRefs

/-- Reads the references of an object; the first value that is none fails. -/
def ofFields : Fields → Result ModelRefs
  | [] => .ok []
  | (k, v) :: rest => do
    let r ← ModelRef.ofValue v
    return (k, r) :: (← ofFields rest)

/-- Reads the references of a field; an absent value has none. -/
def ofValue : Value → Checked ModelRefs
  | .null => .ok []
  | v =>
    match v.fields? with
    | some fields =>
      match ofFields fields with
      | .ok refs => Shape.mapFrom refs
      | .error e => .fault (.refused e.message)
    | none => .fault .dictType

/-- Writes references as an object. -/
def toValue (refs : ModelRefs) : Value := .object (refs.map fun (k, r) => (k, r.toValue))

/-- The identifiers of the imported models, in order. -/
def identifiers (refs : ModelRefs) : List Value := refs.filterMap fun kr => kr.2.identifier?

end ModelRefs
end GatewayDocs
