import GatewayDocs.Text.Encoding
import GatewayDocs.Value.Order
import GatewayDocs.Yaml.Merge
import GatewayDocs.Yaml.Unfolding

/-! # The values of nodes

The tag of a node tells its value.  A scalar is an atom.  Collections are cells, which are
filled in the order in which they are found: the problem of the first one that cannot be
filled is that of the text.

`Yaml.read` reads a text: the value of its one document, or the absent value. -/

namespace GatewayDocs.Yaml

/-- The nodes of a document and the collections that are found among them. -/
structure Findings where
  nodes : Array Node
  /-- The node of each collection. -/
  found : Array Nat
  /-- The collection of each node that is one. -/
  numbers : Array (Option Nat)

/-- The reading of values. -/
abbrev Meaning := StateT Findings (Except Fault)

namespace Meaning

/-- Fails with a problem at a place. -/
def problemAt {α : Type} (text : String) (place : Mark) : Meaning α :=
  throw (.marked none none text place)

/-- What is read as a value of a scalar. -/
def ofResult {α : Type} : Result α → Meaning α
  | .ok a => return a
  | .error f => throw (.scalar f)

/-- The node of a number. -/
def node (number : Nat) : Meaning Node := return (← get).nodes.getD number default

/-- Does the merges of a mapping. -/
def settle (number : Nat) : Meaning Unit := do
  let findings ← get
  match (Merging.settle number).run findings.nodes with
  | .ok (_, nodes) => set { findings with nodes }
  | .error f => throw f

/-! ### Scalars -/

/-- The truth value that a word denotes. -/
def truthOf (s : String) : Result Bool :=
  let word := Text.lower s
  if ["yes", "true", "on"].contains word then .ok true
  else if ["no", "false", "off"].contains word then .ok false
  else .error (.noKey (.str word))

/-- Whether a code is one of ASCII. -/
def isAscii (n : Nat) : Bool := n < 128

/-- The first codes of a text that are not of ASCII, by their place. -/
def strangers (s : String) : String :=
  let codes := Units.codes s.toList
  let start := (codes.takeWhile isAscii).length
  let place (n : Nat) : String := Decimal.intText n
  match (codes.drop start).takeWhile fun n => !isAscii n with
  | [n] => "character '" ++ String.ofList (Text.escapeCode n) ++ "' in position " ++ place start
  | run => "characters in position " ++ place start ++ "-" ++ place (start + run.length - 1)

/-- The bytes that a text denotes. -/
def bytesOf (s : String) (m : Mark) : Meaning (List UInt8) :=
  if (Units.codes s.toList).all isAscii then
    match Text.bytesOfBase64 s with
    | .ok bs => return bs
    | .error f => problemAt ("failed to decode base64 data: " ++ f.text) m
  else
    problemAt ("failed to convert base64 data into ascii: 'ascii' codec can't encode " ++
      strangers s ++ ": ordinal not in range(128)") m

/-- The text of a node; a mapping has that of its default value, which has the key `=`.  More
steps than there are nodes lead round and round. -/
def textFrom : Nat → Nat → Meaning String
  | 0, _ => throw (.scalar .ownDefault)
  | steps + 1, number => do
    let n ← node number
    let nodes := (← get).nodes
    match n.content with
    | .scalar text => return text
    | .mapping pairs =>
      match pairs.find? fun pair => (nodes.getD pair.1 default).tag = .value with
      | some pair => textFrom steps pair.2
      | none => problemAt ("expected a scalar node, but found " ++ n.content.kindName) n.mark
    | .sequence _ =>
      problemAt ("expected a scalar node, but found " ++ n.content.kindName) n.mark

@[inherit_doc textFrom]
def textOf (number : Nat) : Meaning String := do
  textFrom ((← get).nodes.size + 1) number

/-- The time that a node denotes; a default value does not count. -/
def stampOf (number : Nat) : Meaning Stamp := do
  let _ ← textOf number
  match (← node number).content with
  | .scalar text => ofResult (Timestamp.stampOf text)
  | _ => throw (.scalar .badShape)

/-! ### Parts -/

/-- The number of the collection of a node; a new one is yet to be filled. -/
def collection (number : Nat) : Meaning Item := do
  let findings ← get
  match findings.numbers.getD number none with
  | some n => return .cell n
  | none =>
    let n := findings.found.size
    set { findings with
      found := findings.found.push number
      numbers := findings.numbers.setIfInBounds number (some n) }
    return .cell n

/-- The value of a node, which may be yet to be filled. -/
def item (number : Nat) : Meaning Item := do
  let n ← node number
  match n.tag with
  | .null =>
    let _ ← textOf number
    return .atom .null
  | .bool => return .atom (.bool (← ofResult (truthOf (← textOf number))))
  | .int => return .atom (.int (← ofResult (Number.integerOf (← textOf number))))
  | .float => return .atom (.float (← ofResult (Number.floatOf (← textOf number))))
  | .str => return .atom (.str (← textOf number))
  | .binary => return .atom (.bytes (← bytesOf (← textOf number) n.mark))
  | .timestamp => return .atom (.stamp (← stampOf number))
  | .seq | .map | .omap | .pairs | .set => collection number
  | .merge | .value | .other _ =>
    problemAt ("could not determine a constructor for the tag " ++ Text.quoted n.tag.name) n.mark

/-- The keys and values of a mapping; of equal keys the last value stays, at the first
place. -/
def fields (number : Nat) : Meaning (List (Atom × Item)) := do
  let n ← node number
  match n.content with
  | .mapping _ =>
    settle number
    let pairs ← (← node number).pairs.mapM fun pair => do
      match ← item pair.1 with
      | .atom key => return (key, ← item pair.2)
      | .cell _ =>
        throw (.marked (some "while constructing a mapping") (some n.mark)
          "found unhashable key" (← node pair.1).mark)
    return Pairs.putAll [] pairs
  | _ => problemAt ("expected a mapping node, but found " ++ n.content.kindName) n.mark

/-- The items of a sequence. -/
def items (number : Nat) : Meaning (List Item) := do
  let n ← node number
  match n.content with
  | .sequence numbers => numbers.mapM item
  | _ => problemAt ("expected a sequence node, but found " ++ n.content.kindName) n.mark

/-- The items of a sequence of mappings of one pair each. -/
def tuples (context : String) (number : Nat) : Meaning (List (Item × Item)) := do
  let n ← node number
  let refuse {α : Type} (problem : String) (place : Mark) : Meaning α :=
    throw (.marked (some context) (some n.mark) problem place)
  match n.content with
  | .sequence numbers =>
    numbers.mapM fun k => do
      let part ← node k
      match part.content with
      | .mapping [(key, value)] => return (← item key, ← item value)
      | .mapping pairs =>
        refuse ("expected a single mapping item, but found " ++ Decimal.intText pairs.length ++
          " items") part.mark
      | c => refuse ("expected a mapping of length 1, but found " ++ c.kindName) part.mark
  | c => refuse ("expected a sequence, but found " ++ c.kindName) n.mark

/-- Fills the collection of a node. -/
def fill (number : Nat) : Meaning Cell := do
  match (← node number).tag with
  | .map => return .object (← fields number)
  | .set => return .set (Atom.asMembers ((← fields number).map (·.1)))
  | .omap => return .tuples (← tuples "while constructing an ordered map" number)
  | .pairs => return .tuples (← tuples "while constructing pairs" number)
  | _ => return .list (← items number)

/-- Fills the collections that are found, in the order in which they are. -/
def fillAll : Nat → Cells → Meaning Cells
  | 0, cells => return cells
  | steps + 1, cells => do
    match (← get).found[cells.size]? with
    | some number => fillAll steps (cells.push (← fill number))
    | none => return cells

/-- The value of a node with all that is in it. -/
def value (root : Nat) : Meaning Value := do
  let outermost ← item root
  let cells ← fillAll ((← get).nodes.size + 1) #[]
  match outermost with
  | .atom a => return .atom a
  | .cell number => return cells.toValue number

end Meaning

/-- The value of a document. -/
def Document.value (d : Document) : Except Fault Value :=
  (Meaning.value d.root).run' ⟨d.nodes, #[], Array.replicate d.nodes.size none⟩

/-- Reads the one document of a text. -/
def read (source : String) : Except Fault Value :=
  match Document.ofText source.toList with
  | .error f => .error f
  | .ok none => .ok .null
  | .ok (some document) => document.value

end GatewayDocs.Yaml
