import GatewayDocs.Shape.Leaves

/-! # Lists, maps and records

How the parts of a shape that have parts are read.  A field of a record is found under the
first of its names that is present; what is wrong with it is placed under that name, and a
missing field under its first name. -/

namespace GatewayDocs.Shape
variable {α : Type}

/-- Reads every item of a list, its problems placed by index. -/
def itemsFrom (read : Value → Checked α) : Nat → List Value → List (Checked α)
  | _, [] => []
  | i, v :: rest => (read v).within (.index i) :: itemsFrom read (i + 1) rest

/-- The items of a value that is read as a list. -/
def items? (v : Value) : Option (List Value) :=
  match v.bare with
  | .list items => some items
  | .tuple items => some items
  | .set members => some (members.map .atom)
  | _ => none

/-- Reads a list. -/
def listOf (read : Value → Checked α) (v : Value) : Checked (List α) :=
  match items? v with
  | some items => .all (itemsFrom read 0 items)
  | none => .fault .listType

/-- How a key is named in the place of a problem: a text or a number of sixty-four bits by
itself, anything else by its quoted text. -/
def placed (key : Atom) : Step :=
  match key with
  | .str s => .key (.str s)
  | .bool b => .key (.int (if b then 1 else 0))
  | .int n =>
    if fitsWord n then .key (.int n)
    else .key (.str (if Decimal.isWritable n then key.quoted else "<unprintable int object>"))
  | _ => .key (.str key.quoted)

/-- Reads the key of a map, which has to be a text. -/
def mapKey (key : Atom) : Checked Atom :=
  (((text (.atom key)).map Atom.str).within (.key (.str "[key]"))).within (placed key)

/-- Reads a map from texts; of equal keys the last value stays. -/
def mapFrom (fields : List (Atom × α)) : Checked (List (Atom × α)) :=
  (Checked.all (fields.map fun (k, w) => (mapKey k).map fun k => (k, w))).map (Pairs.putAll [])

/-- Reads a map from texts to anything. -/
def mapOf (v : Value) : Checked Fields :=
  match v.fields? with
  | some fields => mapFrom fields
  | none => .fault .dictType

/-- Reads a record from the pairs of an object. -/
def record (read : Fields → Checked α) (v : Value) : Checked α :=
  match v.fields? with
  | some fields => read fields
  | none => .fault .modelType

/-- The first of the names that is a key, with its value. -/
def find? (names : List String) (fields : Fields) : Option (String × Value) :=
  names.findSome? fun name => (Fields.get? name fields).map fun v => (name, v)

/-- Reads a field that has to be present. -/
def required (names : List String) (read : Value → Checked α) (fields : Fields) : Checked α :=
  match find? names fields with
  | some (name, v) => (read v).within (.key (.str name))
  | none => (Checked.fault .missing).within (.key (.str (names.headD "")))

/-- Reads a field that has a default. -/
def optional (names : List String) (default : α) (read : Value → Checked α)
    (fields : Fields) : Checked α :=
  match find? names fields with
  | some (name, v) => (read v).within (.key (.str name))
  | none => .ok default

/-- The keys under which the fields of a record were found. -/
def usedNames (table : List (List String)) (fields : Fields) : List String :=
  table.filterMap fun names => (find? names fields).map (·.1)

/-- Whether a key is one of some texts. -/
def isNamed (names : List String) : Atom → Bool
  | .str s => names.contains s
  | _ => false

/-- Reads the key of a further pair of a record, which has to be a text. -/
def extraKey (key : Atom) : Checked Atom :=
  match text (.atom key) with
  | .ok s => .ok (.str s)
  | .faulty _ => (Checked.fault .invalidKey).within (placed key)

/-- The further pairs of a record, with their keys as texts. -/
def extraPairs (used : List String) (fields : Fields) : List (Checked (Atom × Value)) :=
  fields.filterMap fun (k, v) =>
    match extraKey k with
    | .ok k => if isNamed used k then none else some (.ok (k, v))
    | .faulty ps => some (.faulty ps)

/-- Reads the pairs of a record that are none of its fields. -/
def extras (table : List (List String)) (fields : Fields) : Checked Fields :=
  (Checked.all (extraPairs (usedNames table fields) fields)).map (Pairs.putAll [])

/-- Whether the key of a pair is a text with a unit that stands alone. -/
def isBroken (key : Atom) : Bool :=
  match key with
  | .str s => Units.hasAlone s
  | _ => false

/-- Reads a record that keeps the pairs that are none of its fields.  A key that is no text of
characters spoils the whole record. -/
def openRecord (read : Fields → Checked α) (v : Value) : Checked α :=
  match v.fields? with
  | some fields =>
    if fields.any fun kv => isBroken kv.1 then .fault .stringUnicode else read fields
  | none => .fault .modelType

end GatewayDocs.Shape
