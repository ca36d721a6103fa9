import GatewayDocs.Value.Text

/-! # Failures

Everything that can go wrong is a cause (`Failure`), with one wording
(`Failure.message`).  Failures that the command line reports and survives are those of the
program's own rules (`Failure.isReported`); all others pass through it. -/

namespace GatewayDocs

/-- A step on the way to a part of a value. -/
inductive Step where
  | key (k : Atom)
  | index (i : Nat)

/-- What can be wrong with a part of a checked value. -/
inductive Fault where
  | missing
  | stringType
  | stringUnicode
  | boolType
  | boolParsing
  | intType
  | intParsing
  | intParsingSize
  | intFromFloat
  | finiteNumber
  | greaterThanEqual
  | listType
  | dictType
  | modelType
  | invalidKey
  | refused (reason : String)

namespace Fault

/-- The code of a fault. -/
def code : Fault → String
  | missing => "missing"
  | stringType => "string_type"
  | stringUnicode => "string_unicode"
  | boolType => "bool_type"
  | boolParsing => "bool_parsing"
  | intType => "int_type"
  | intParsing => "int_parsing"
  | intParsingSize => "int_parsing_size"
  | intFromFloat => "int_from_float"
  | finiteNumber => "finite_number"
  | greaterThanEqual => "greater_than_equal"
  | listType => "list_type"
  | dictType => "dict_type"
  | modelType => "model_type"
  | invalidKey => "invalid_key"
  | refused _ => "value_error"

/-- The text that goes with a fault whose reason is not in its code. -/
def detail? : Fault → Option String
  | refused reason => some ("Value error, " ++ reason)
  | _ => none

end Fault

/-- A fault and its place in the checked value. -/
structure Problem where
  place : List Step
  fault : Fault

/-- What the operating system says of a path. -/
inductive PathFault where
  | missing
  | present
  | notDirectory
  | isDirectory
  | tooLong

namespace PathFault

/-- The number and wording of a path fault. -/
def text : PathFault → String
  | missing => "[Errno 2] No such file or directory"
  | present => "[Errno 17] File exists"
  | notDirectory => "[Errno 20] Not a directory"
  | isDirectory => "[Errno 21] Is a directory"
  | tooLong => "[Errno 36] File name too long"

end PathFault

/-- A cause of failure. -/
inductive Failure where
  /-- A value does not have a documented shape. -/
  | invalid (shape : String) (problems : List Problem)
  /-- A configuration file cannot be read. -/
  | unreadable (path : String) (reason : String)
  /-- A text is neither JSON nor YAML; `report` says where the YAML fails. -/
  | malformed (path : String) (report : String)
  /-- A model is declared and also imported. -/
  | conflict (model : String) (event : String)
  /-- A documented event has no method resource. -/
  | noMethod (logicalId : String) (event : String)
  /-- A documentation version is there already. -/
  | versionExists (version : String)
  /-- A stack does not tell its API. -/
  | noRestApi (stack : Value)
  /-- The client library of the cloud is not installed. -/
  | noClient
  /-- A value has the wrong shape for what is done with it. -/
  | badShape
  /-- A key that has to be there is absent. -/
  | noKey (key : Atom)
  /-- A value that is no model reference. -/
  | notReference (value : Value)
  /-- A chain width below one. -/
  | badWidth (width : Atom)
  /-- A new order that does not keep the names. -/
  | namesDiffer
  /-- A value where a model reference was expected. -/
  | unsupportedReference (contentType : Atom) (value : Value)
  /-- Bytes that are no text, or a text that has no bytes. -/
  | notText
  /-- A numeral with too many digits to be read. -/
  | longNumeral (digits : Nat)
  /-- An integer with too many digits to be written. -/
  | longInteger
  /-- A value that contains itself where it is written out. -/
  | circular
  /-- A body that contains itself. -/
  | circularBody
  /-- A value that contains itself where all of its parts are visited. -/
  | unending
  /-- A scalar that stands for its own value. -/
  | ownDefault
  /-- An integer that no floating-point number is near to. -/
  | tooLargeForFloat
  /-- A part of a list of pairs, by its place, that has not two parts. -/
  | noPair (place length : Nat)
  /-- A text that is no integer of a base. -/
  | notInteger (base : Nat) (text : String)
  /-- A text that is no floating-point number. -/
  | notFloat (text : String)
  /-- Numbers that are no date and time of day. -/
  | notStamp (fault : StampFault)
  /-- A code of which there is no character. -/
  | noSuchCode
  /-- A code that does not fit into a word. -/
  | codeTooLarge
  /-- A text that is empty where a number is read. -/
  | noCharacter
  /-- A call of the client fails. -/
  | callFailed (name : String)
  /-- A listing whose cursors never end. -/
  | endless
  /-- A path cannot be used. -/
  | unusable (fault : PathFault) (name : String)
  /-- A path with a character that no path may have. -/
  | nullInPath

namespace Failure

/-- How much of a text that is no integer is shown. -/
def shownLimit : Nat := 200

/-- How it is said that an integer has too many digits. -/
def overLimit : String :=
  "Exceeds the limit (" ++ Decimal.intText Decimal.digitLimit ++
    " digits) for integer string conversion"

/-- What is advised on an integer with too many digits. -/
def limitAdvice : String := "; use sys.set_int_max_str_digits() to increase the limit"

/-- The wording of a failure. -/
def message : Failure → String
  | invalid shape _ => shape
  | unreadable path reason => "Cannot load configuration from " ++ path ++ ": " ++ reason
  | malformed path report =>
    "Cannot load configuration from " ++ path ++ ": not valid JSON or YAML: " ++ report
  | conflict model event =>
    "Model " ++ Text.quoted model ++
      " is declared in documentation.models and also referenced as an imported model in " ++ event
  | noMethod logicalId event =>
    "Method resource " ++ Text.quoted logicalId ++ " for http event " ++ Text.quoted event ++
      " not found in template"
  | versionExists version =>
    "documentation version " ++ version ++ " already exists, skipping upload"
  | noRestApi stack =>
    "Stack " ++ stack.quoted ++ " has no AwsDocApiId output; deploy with documentation first"
  | noClient => "boto3 is required for AWS commands: pip install apidocs-compiler[aws]"
  | badShape => ""
  | noKey key => key.quoted
  | notReference value =>
    "unrecognized model reference " ++ value.quoted ++
      "; expected a model name or \x7b'import': <id>\x7d"
  | badWidth width => "chunk width must be >= 1, got " ++ width.spelled
  | namesDiffer => "reorder must keep exactly the same resource names"
  | unsupportedReference contentType value =>
    "Unsupported model reference for " ++ contentType.quoted ++ ": " ++ value.quoted
  | notText => ""
  | longNumeral digits =>
    overLimit ++ ": value has " ++ Decimal.intText digits ++ " digits" ++ limitAdvice
  | longInteger => overLimit ++ limitAdvice
  | circular => "Circular reference detected"
  | circularBody => "Circular reference detected (id repeated)"
  | unending => "maximum recursion depth exceeded while calling a Python object"
  | ownDefault => "maximum recursion depth exceeded"
  | tooLargeForFloat => "int too large to convert to float"
  | noPair place length =>
    "dictionary update sequence element #" ++ Decimal.intText place ++ " has length " ++
      Decimal.intText length ++ "; 2 is required"
  | notInteger base text =>
    "invalid literal for int() with base " ++ Decimal.intText base ++ ": " ++
      String.ofList ((Text.quoted text).toList.take shownLimit)
  | notFloat text => "could not convert string to float: " ++ Text.quoted text
  | notStamp fault => fault.text
  | noSuchCode => "chr() arg not in range(0x110000)"
  | codeTooLarge => "Python int too large to convert to C int"
  | noCharacter => "string index out of range"
  | callFailed name => name ++ " failed"
  | endless => ""
  | unusable fault name => fault.text ++ ": " ++ Text.quoted name
  | nullInPath => "embedded null byte"

/-- Whether the command line reports a failure and ends with a status of one. -/
def isReported : Failure → Bool
  | unreadable .. | malformed .. | conflict .. | noMethod .. | versionExists .. | noRestApi ..
  | noClient => true
  | _ => false

end Failure

/-- What may fail. -/
abbrev Result (α : Type) := Except Failure α

namespace Atom

/-- An atom as text, which an integer of too many digits has not. -/
def text (a : Atom) : Result String :=
  if a.isWritable then .ok a.spelled else .error .longInteger

end Atom

namespace Value

/-- A value as text, which a value with an integer of too many digits has not. -/
def text (v : Value) : Result String :=
  if v.isWritable then .ok v.spelled else .error .longInteger

/-- The pairs of a value that has to be an object. -/
def asObject (v : Value) : Result Fields :=
  match v.bare with
  | .object fields => .ok fields
  | _ => .error .badShape

theorem asObject_eq_ok_iff {v : Value} {fields : Fields} :
    v.asObject = .ok fields ↔ v.fields? = some fields := by
  unfold asObject fields?
  cases v.bare with
  | object fs => rw [Except.ok.injEq, Option.some.injEq]
  | _ => exact ⟨fun h => (nomatch h), fun h => (nomatch h)⟩

/-- The members of a value that is gone through one by one: the items of a list, the keys of
an object, the codes of a text, the numbers of a run of bytes. -/
def members (v : Value) : Result (List Value) :=
  match v.bare with
  | .list items => .ok items
  | .tuple items => .ok items
  | .set members => .ok (members.map .atom)
  | .object fields => .ok (fields.map fun kv => .atom kv.1)
  | .str s => .ok ((Units.codes s.toList).map fun n => .str (Units.ofCodes [n]))
  | .atom (.bytes bs) => .ok (bs.map fun b => .int b.toNat)
  | _ => .error .badShape

/-- Reads the members of a value as pairs of a key and a value, after some that are read;
`place` counts the members. -/
def pairsFrom (place : Nat) (done : Fields) : List Value → Result Fields
  | [] => .ok done
  | v :: rest => do
    match ← v.members with
    | [.atom key, value] => pairsFrom (place + 1) (Pairs.put key value done) rest
    | [_, _] => throw .badShape
    | parts => throw (.noPair place parts.length)

/-- The pairs of an object, or of a value whose members all are pairs. -/
def asPairs (v : Value) : Result Fields :=
  match v.fields? with
  | some fields => .ok fields
  | none => do pairsFrom 0 [] (← v.members)

/-- The value under a text key of a value that has to be an object. -/
def field (key : String) (v : Value) : Result Value := do
  return (← v.asObject).get key

end Value
end GatewayDocs
