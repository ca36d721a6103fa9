import GatewayDocs.Decimal.FloatText
import GatewayDocs.Value.Stamp

/-! # Values of configuration files

A value is an atom, a list of values, or an object: pairs of a key and a value, in the
order in which they were written.  Keys are atoms; in values that come from JSON they are
all texts (`Atom.str`).  Text files also give tuples, which are lists of their own kind, and
sets of atoms.

A value that stands in several places has a label there (`Value.shared`), and a change of one
of them is a change of all.  A value that contains itself is a knot: where it comes again
inside, only its label stands (`Value.again`).  `Value.bare` is what a value is without the
label around it; values that come from JSON have no labels.

Two values are the `same` if they are equal as data: numbers by magnitude whatever their
kind, truth values being one and zero, objects whatever the order of their keys. -/

namespace GatewayDocs

/-- A value without parts. -/
inductive Atom where
  | null
  | bool (b : Bool)
  | int (n : Int)
  | float (x : Float)
  | str (s : String)
  | stamp (t : Stamp)
  | bytes (bs : List UInt8)

/-- A value of a configuration file. -/
inductive Value where
  | atom (a : Atom)
  | list (items : List Value)
  | tuple (items : List Value)
  | set (members : List Atom)
  | object (fields : List (Atom × Value))
  | shared (label : Nat) (content : Value)
  | knot (label : Nat) (content : Value)
  | again (label : Nat)

instance : Inhabited Atom := ⟨.null⟩
instance : Inhabited Value := ⟨.atom .null⟩

/-- The pairs of an object. -/
abbrev Fields := List (Atom × Value)

namespace Value

/-- The absent value. -/
@[match_pattern] abbrev null : Value := .atom .null

/-- A truth value. -/
@[match_pattern] abbrev bool (b : Bool) : Value := .atom (.bool b)

/-- An integer. -/
@[match_pattern] abbrev int (n : Int) : Value := .atom (.int n)

/-- A floating-point number. -/
@[match_pattern] abbrev float (x : Float) : Value := .atom (.float x)

/-- A text. -/
@[match_pattern] abbrev str (s : String) : Value := .atom (.str s)

end Value

namespace Atom

/-- The integer that a number or truth value equals. -/
def whole? : Atom → Option Int
  | .bool b => some (if b then 1 else 0)
  | .int n => some n
  | .float x => Decimal.wholeOf? x
  | _ => none

/-- Equality as data; what is not a number is the same as itself. -/
def same (a b : Atom) : Bool :=
  match a.whole?, b.whole? with
  | some m, some n => m = n
  | some _, none => false
  | none, some _ => false
  | none, none =>
    match a, b with
    | .null, .null => true
    | .float x, .float y => x == y || (x.isNaN && y.isNaN)
    | .str s, .str t => s = t
    | .stamp s, .stamp t => s.same t
    | .bytes s, .bytes t => s = t
    | _, _ => false

instance : BEq Atom := ⟨same⟩

@[simp] theorem same_str (s t : String) : same (.str s) (.str t) = decide (s = t) := rfl

/-- Whether an atom is a floating-point number that is not a number. -/
def isNaN : Atom → Bool
  | .float x => x.isNaN
  | _ => false

/-- Whether an atom counts as true: it is neither absent, nor false, zero or empty. -/
def truthy : Atom → Bool
  | .null => false
  | .bool b => b
  | .int n => n ≠ 0
  | .float x => !(x == 0.0)
  | .str s => s ≠ ""
  | .stamp _ => true
  | .bytes bs => !bs.isEmpty

end Atom

/-! ### Pairs with keys -/

namespace Pairs
variable {α : Type}

/-- The value under a key. -/
def lookup (key : Atom) : List (Atom × α) → Option α
  | [] => none
  | (k, v) :: rest => if k.same key then some v else lookup key rest

/-- Whether a key is present. -/
def has (key : Atom) (xs : List (Atom × α)) : Bool := (lookup key xs).isSome

/-- Writes a value under a key, in the key's place or, if it is new, at the end. -/
def put (key : Atom) (value : α) : List (Atom × α) → List (Atom × α)
  | [] => [(key, value)]
  | (k, v) :: rest => if k.same key then (k, value) :: rest else (k, v) :: put key value rest

/-- Writes a value under a key unless the key is present. -/
def putNew (key : Atom) (value : α) (xs : List (Atom × α)) : List (Atom × α) :=
  if has key xs then xs else xs ++ [(key, value)]

/-- Writes pairs one after the other; of equal keys the last value stays, at the first
place. -/
def putAll (xs : List (Atom × α)) (new : List (Atom × α)) : List (Atom × α) :=
  new.foldl (fun acc kv => put kv.1 kv.2 acc) xs

end Pairs

namespace Fields

/-- The value under a text key. -/
def get? (key : String) (fields : Fields) : Option Value := Pairs.lookup (.str key) fields

/-- The value under a text key, absent if the key is. -/
def get (key : String) (fields : Fields) : Value := (get? key fields).getD .null

/-- Writes a value under a text key. -/
def put (key : String) (value : Value) (fields : Fields) : Fields :=
  Pairs.put (.str key) value fields

/-- Writes a value under a text key unless it is present. -/
def putNew (key : String) (value : Value) (fields : Fields) : Fields :=
  Pairs.putNew (.str key) value fields

end Fields

namespace Value

/-- An object with text keys. -/
def ofPairs (pairs : List (String × Value)) : Value :=
  .object (pairs.map fun (k, v) => (.str k, v))

/-! ### Labels -/

mutual

/-- Puts a whole in the places where its label stands. -/
def unfold (label : Nat) (whole : Value) : Value → Value
  | .again l => if l = label then whole else .again l
  | .shared l v => .shared l (unfold label whole v)
  | .knot l v => if l = label then .knot l v else .knot l (unfold label whole v)
  | .list items => .list (unfoldItems label whole items)
  | .tuple items => .tuple (unfoldItems label whole items)
  | .object fields => .object (unfoldFields label whole fields)
  | .atom a => .atom a
  | .set members => .set members

/-- Puts a whole in the places in some items where its label stands. -/
def unfoldItems (label : Nat) (whole : Value) : List Value → List Value
  | [] => []
  | v :: rest => unfold label whole v :: unfoldItems label whole rest

/-- Puts a whole in the places in some pairs where its label stands. -/
def unfoldFields (label : Nat) (whole : Value) : List (Atom × Value) → List (Atom × Value)
  | [] => []
  | (k, v) :: rest => (k, unfold label whole v) :: unfoldFields label whole rest

end

/-- What a value is without the label around it. -/
def bare : Value → Value
  | .shared _ v => v
  | .knot l v => unfold l (.knot l v) v
  | v => v

@[simp] theorem bare_atom (a : Atom) : bare (.atom a) = .atom a := rfl

@[simp] theorem bare_list (items : List Value) : bare (.list items) = .list items := rfl

@[simp] theorem bare_object (fields : Fields) : bare (.object fields) = .object fields := rfl

mutual

/-- Whether a value contains a value that contains itself. -/
def isEndless : Value → Bool
  | .atom _ => false
  | .set _ => false
  | .list items => isEndlessInItems items
  | .tuple items => isEndlessInItems items
  | .object fields => isEndlessInFields fields
  | .shared _ v => isEndless v
  | .knot _ _ => true
  | .again _ => true

/-- Whether one of some items contains a value that contains itself. -/
def isEndlessInItems : List Value → Bool
  | [] => false
  | v :: rest => isEndless v || isEndlessInItems rest

/-- Whether one of some pairs contains a value that contains itself. -/
def isEndlessInFields : List (Atom × Value) → Bool
  | [] => false
  | (_, v) :: rest => isEndless v || isEndlessInFields rest

end

/-! ### Kinds -/

/-- The pairs of a value, if it is an object. -/
def fields? (v : Value) : Option Fields :=
  match v.bare with
  | .object fields => some fields
  | _ => none

@[simp] theorem fields?_object (fields : Fields) : fields? (.object fields) = some fields := rfl

/-- The value under a text key, if the value is an object that has the key. -/
def field? (key : String) (v : Value) : Option Value := v.fields?.bind (Fields.get? key)

/-- Whether a value counts as true: it is neither absent, nor false, zero or empty. -/
def truthy : Value → Bool
  | .atom a => a.truthy
  | .list items => !items.isEmpty
  | .tuple items => !items.isEmpty
  | .set members => !members.isEmpty
  | .object fields => !fields.isEmpty
  | .shared _ v => truthy v
  | .knot _ _ => true
  | .again _ => true

/-- Whether a value is blank: absent, or an empty text, list or object. -/
def isBlank : Value → Bool
  | .null => true
  | .str s => s = ""
  | .list items => items.isEmpty
  | .object fields => fields.isEmpty
  | .shared _ v => isBlank v
  | _ => false

/-- The name of a value's kind in messages. -/
def kindName (v : Value) : String :=
  match v.bare with
  | .null => "NoneType"
  | .bool _ => "bool"
  | .int _ => "int"
  | .float _ => "float"
  | .str _ => "str"
  | .atom (.stamp t) => if t.time.isSome then "datetime" else "date"
  | .atom (.bytes _) => "bytes"
  | .tuple _ => "tuple"
  | .set _ => "set"
  | .object _ => "dict"
  | _ => "list"

/-! ### Equality as data -/

/-- A value without the labels of values that stand in several places. -/
def unshared : Value → Value
  | .shared _ v => unshared v
  | v => v

mutual

/-- Equality as data. -/
def same : Value → Value → Bool
  | .atom a, w =>
    match w.unshared with
    | .atom b => a.same b
    | _ => false
  | .list xs, w =>
    match w.unshared with
    | .list ys => sameItems xs ys
    | _ => false
  | .tuple xs, w =>
    match w.unshared with
    | .tuple ys => sameItems xs ys
    | _ => false
  | .set xs, w =>
    match w.unshared with
    | .set ys => xs.length = ys.length && xs.all fun x => ys.any x.same
    | _ => false
  | .object xs, w =>
    match w.unshared with
    | .object ys => xs.length = ys.length && sameFields xs ys
    | _ => false
  | .shared _ v, w => same v w
  | .knot l _, w =>
    match w.unshared with
    | .knot m _ => l = m
    | _ => false
  | .again l, w =>
    match w.unshared with
    | .again m => l = m
    | _ => false

/-- Equality of lists as data, item by item. -/
def sameItems : List Value → List Value → Bool
  | [], [] => true
  | x :: xs, y :: ys => same x y && sameItems xs ys
  | _, _ => false

/-- Whether every pair has a pair of the same key and value in the other object. -/
def sameFields : List (Atom × Value) → List (Atom × Value) → Bool
  | [], _ => true
  | (k, v) :: rest, ys =>
    (match Pairs.lookup k ys with
      | some w => same v w
      | none => false) && sameFields rest ys

end

/-- Equality as numbers where both are numbers: what is not a number equals nothing.  Other
values are equal if they are the same. -/
def equals (v w : Value) : Bool :=
  match v, w with
  | .atom a, .atom b => a.same b && !a.isNaN
  | _, _ => same v w

end Value
end GatewayDocs
