import GatewayDocs.Yaml.Stream
import GatewayDocs.Yaml.Tag

/-! # Nodes

A document is a table of nodes: scalars, sequences and mappings, each with a tag.  The parts of
a node are numbers of nodes in the table.  `Document.ofText` reads the one document that a text
may hold, token by token.  An alias gives the number of the node that its anchor names, so that
a node may be part of several others, and of itself. -/

namespace GatewayDocs.Yaml

/-- What a node consists of; the parts are numbers of nodes. -/
inductive Content where
  | scalar (text : String)
  | sequence (items : List Nat)
  | mapping (pairs : List (Nat × Nat))

/-- The name of a kind of nodes in messages. -/
def Content.kindName : Content → String
  | scalar _ => "scalar"
  | sequence _ => "sequence"
  | mapping _ => "mapping"

/-- A node of a document, with the place where it starts. -/
structure Node where
  tag : Tag
  mark : Mark
  content : Content

/-- A scalar without text. -/
def Node.absent (m : Mark) : Node := ⟨.null, m, .scalar ""⟩

instance : Inhabited Node := ⟨.absent ⟨0, 0, 0⟩⟩

/-- A document: its nodes by number, and the number of the outermost one. -/
structure Document where
  nodes : Array Node
  root : Nat

/-- A name that an anchor gives to a node. -/
structure Anchored where
  name : String
  mark : Mark
  node : Nat

/-- The nodes and names that are read. -/
structure Progress where
  nodes : Array Node
  anchors : List Anchored

/-- The reading of nodes. -/
abbrev Reading := StateT Progress Lex

/-- What handles of tags stand for. -/
abbrev Handles := List (String × String)

namespace Reading

/-- Fails with a problem at a place. -/
def fail {α : Type} (context : Option String) (contextMark : Option Mark) (problem : String)
    (place : Mark) : Reading α :=
  throw (.marked context contextMark problem place)

/-- The next token. -/
def peek : Reading Token := Lex.peekToken

/-- Takes the next token. -/
def take : Reading Token := Lex.takeToken

/-- Whether the next token is of one of some kinds. -/
def nextIs (kinds : List TokenKind) : Reading Bool := do
  let t ← peek
  return kinds.any t.kind.like

/-- The anchor and the tag before a node. -/
structure Properties where
  anchor : Option String
  tag : Option (Option String × String)
  first : Option Mark
  tagMark : Option Mark

/-- Takes the anchor and the tag before a node, in any order. -/
def properties : Reading Properties := do
  let t ← peek
  match t.kind with
  | .anchor name => do
    let _ ← take
    let u ← peek
    match u.kind with
    | .tag handle suffix => do
      let _ ← take
      return ⟨some name, some (handle, suffix), some t.first, some u.first⟩
    | _ => return ⟨some name, none, some t.first, none⟩
  | .tag handle suffix => do
    let _ ← take
    let u ← peek
    match u.kind with
    | .anchor name => do
      let _ ← take
      return ⟨some name, some (handle, suffix), some t.first, some t.first⟩
    | _ => return ⟨none, some (handle, suffix), some t.first, some t.first⟩
  | _ => return ⟨none, none, none, none⟩

/-- The full name of a tag; a lone exclamation mark is no tag. -/
def tagName (handles : Handles) (p : Properties) : Reading (Option String) := do
  match p.tag with
  | none => return none
  | some (none, suffix) => return some suffix
  | some (some handle, suffix) =>
    match handles.lookup handle with
    | some start => return some (start ++ suffix)
    | none =>
      fail (some "while parsing a node") p.first
        ("found undefined tag handle " ++ Text.quoted handle)
        (p.tagMark.getD ⟨0, 0, 0⟩)

/-- The number of the node of an alias. -/
def resolveAlias (name : String) (place : Mark) : Reading Nat := do
  match (← get).anchors.find? fun a => a.name = name with
  | some a => return a.node
  | none => fail none none ("found undefined alias " ++ Text.quoted name) place

/-- Fails if a name is given already. -/
def checkAnchor (anchor : Option String) (place : Mark) : Reading Unit := do
  match anchor with
  | none => return ()
  | some name =>
    match (← get).anchors.find? fun a => a.name = name with
    | some a =>
      fail (some ("found duplicate anchor " ++ Text.quoted name ++ "; first occurrence"))
        (some a.mark) "second occurrence" place
    | none => return ()

/-- Adds a node to the table. -/
def add (node : Node) : Reading Nat :=
  modifyGet fun p => (p.nodes.size, { p with nodes := p.nodes.push node })

/-- Adds a node to the table and gives it a name. -/
def addNamed (anchor : Option String) (node : Node) : Reading Nat := do
  let number ← add node
  match anchor with
  | none => return number
  | some name =>
    modify fun p => { p with anchors := ⟨name, node.mark, number⟩ :: p.anchors }
    return number

/-- Tells the parts of a node. -/
def fill (number : Nat) (content : Content) : Reading Unit :=
  modify fun p => { p with nodes := p.nodes.modify number fun node => { node with content } }

/-- Adds a scalar without text. -/
def addAbsent (place : Mark) : Reading Nat := add (.absent place)

/-- The tag of a scalar. -/
def scalarTag (name : Option String) (text : String) (plain : Bool) : Tag :=
  match name with
  | none => if plain then .ofPlain text else .str
  | some "!" => .ofPlain text
  | some s => .ofName s

/-- The tag of a collection. -/
def collectionTag (name : Option String) (standard : Tag) : Tag :=
  match name with
  | none => standard
  | some "!" => standard
  | some s => .ofName s

/-- Fails because a collection has an item or end where it may not. -/
def unexpected {α : Type} (context : String) (first : Mark) (expected : String) :
    Reading α := do
  let t ← peek
  fail (some context) (some first) (expected ++ Text.quoted t.kind.name) t.first

mutual

/-- Reads a node.  The kinds of blocks that may start here are told by `block`, and by
`indentless` whether items without a block of their own may. -/
def node (handles : Handles) (block indentless : Bool) : Nat → Reading Nat
  | 0 => throw .exhausted
  | n + 1 => do
    let t ← peek
    match t.kind with
    | .aliasOf name => do
      let _ ← take
      resolveAlias name t.first
    | _ => do
      let p ← properties
      let name ← tagName handles p
      let t ← peek
      let first := p.first.getD t.first
      match t.kind with
      | .blockEntry =>
        if indentless then
          checkAnchor p.anchor first
          let number ← addNamed p.anchor ⟨collectionTag name .seq, first, .sequence []⟩
          fill number (.sequence (← looseItems handles n))
          return number
        else content handles block p name first n
      | _ => content handles block p name first n

/-- Reads a node after its anchor and tag. -/
def content (handles : Handles) (block : Bool) (p : Properties) (name : Option String)
    (first : Mark) : Nat → Reading Nat
  | 0 => throw .exhausted
  | n + 1 => do
    let t ← peek
    let sequence (items : Reading (List Nat)) : Reading Nat := do
      checkAnchor p.anchor first
      let _ ← take
      let number ← addNamed p.anchor ⟨collectionTag name .seq, first, .sequence []⟩
      fill number (.sequence (← items))
      return number
    let mapping (pairs : Reading (List (Nat × Nat))) : Reading Nat := do
      checkAnchor p.anchor first
      let _ ← take
      let number ← addNamed p.anchor ⟨collectionTag name .map, first, .mapping []⟩
      fill number (.mapping (← pairs))
      return number
    let scalar (text : String) (plain : Bool) : Reading Nat := do
      checkAnchor p.anchor first
      addNamed p.anchor ⟨scalarTag name text plain, first, .scalar text⟩
    match t.kind, block with
    | .scalar text plain, _ => do
      let _ ← take
      scalar text plain
    | .flowSequenceStart, _ => sequence (flowItems handles t.first true n)
    | .flowMappingStart, _ => mapping (flowPairs handles t.first true n)
    | .blockSequenceStart, true => sequence (blockItems handles t.first n)
    | .blockMappingStart, true => mapping (blockPairs handles t.first n)
    | _, _ =>
      if p.anchor.isSome || name.isSome then scalar "" true
      else
        unexpected ("while parsing a " ++ (if block then "block" else "flow") ++ " node") first
          "expected the node content, but found "

/-- Reads a node unless one of some kinds of tokens comes next; then there is an empty
scalar at a place. -/
def nodeUnless (handles : Handles) (block indentless : Bool) (kinds : List TokenKind)
    (place : Mark) : Nat → Reading Nat
  | 0 => throw .exhausted
  | n + 1 => do
    if ← nextIs kinds then addAbsent place
    else node handles block indentless n

/-- Reads the items of a block. -/
def blockItems (handles : Handles) (first : Mark) : Nat → Reading (List Nat)
  | 0 => throw .exhausted
  | n + 1 => do
    if ← nextIs [.blockEntry] then
      let t ← take
      let item ← nodeUnless handles true false [.blockEntry, .blockEnd] t.last n
      return item :: (← blockItems handles first n)
    else if ← nextIs [.blockEnd] then
      let _ ← take
      return []
    else
      unexpected "while parsing a block collection" first "expected <block end>, but found "

/-- Reads items that are not indented more than the mapping they are in. -/
def looseItems (handles : Handles) : Nat → Reading (List Nat)
  | 0 => throw .exhausted
  | n + 1 => do
    if ← nextIs [.blockEntry] then
      let t ← take
      let item ← nodeUnless handles true false [.blockEntry, .key, .value, .blockEnd] t.last n
      return item :: (← looseItems handles n)
    else return []

/-- Reads the pairs of a block. -/
def blockPairs (handles : Handles) (first : Mark) : Nat → Reading (List (Nat × Nat))
  | 0 => throw .exhausted
  | n + 1 => do
    if ← nextIs [.key] then
      let t ← take
      let key ← nodeUnless handles true true [.key, .value, .blockEnd] t.last n
      let value ← pairValue handles true [.key, .value, .blockEnd] n
      return (key, value) :: (← blockPairs handles first n)
    else if ← nextIs [.blockEnd] then
      let _ ← take
      return []
    else
      unexpected "while parsing a block mapping" first "expected <block end>, but found "

/-- Reads the value of a pair; without a colon it is an empty scalar. -/
def pairValue (handles : Handles) (block : Bool) (kinds : List TokenKind) :
    Nat → Reading Nat
  | 0 => throw .exhausted
  | n + 1 => do
    if ← nextIs [.value] then
      let t ← take
      nodeUnless handles block block kinds t.last n
    else addAbsent (← peek).first

/-- Reads the items between brackets, each after the first one with a comma before it. -/
def flowItems (handles : Handles) (first : Mark) (atStart : Bool) : Nat → Reading (List Nat)
  | 0 => throw .exhausted
  | n + 1 => do
    if ← nextIs [.flowSequenceEnd] then
      let _ ← take
      return []
    else
      if !atStart then
        if ← nextIs [.flowEntry] then
          let _ ← take
        else
          unexpected "while parsing a flow sequence" first "expected ',' or ']', but got "
      if ← nextIs [.key] then
        let t ← take
        let key ← nodeUnless handles false false [.value, .flowEntry, .flowSequenceEnd] t.last n
        let value ← pairValue handles false [.flowEntry, .flowSequenceEnd] n
        let pair ← add ⟨.map, t.first, .mapping [(key, value)]⟩
        return pair :: (← flowItems handles first false n)
      else if ← nextIs [.flowSequenceEnd] then
        let _ ← take
        return []
      else
        let item ← node handles false false n
        return item :: (← flowItems handles first false n)

/-- Reads the pairs between braces, each after the first one with a comma before it. -/
def flowPairs (handles : Handles) (first : Mark) (atStart : Bool) :
    Nat → Reading (List (Nat × Nat))
  | 0 => throw .exhausted
  | n + 1 => do
    if ← nextIs [.flowMappingEnd] then
      let _ ← take
      return []
    else
      if !atStart then
        if ← nextIs [.flowEntry] then
          let _ ← take
        else
          unexpected "while parsing a flow mapping" first "expected ',' or '\x7d', but got "
      if ← nextIs [.key] then
        let t ← take
        let key ← nodeUnless handles false false [.value, .flowEntry, .flowMappingEnd] t.last n
        let value ← pairValue handles false [.flowEntry, .flowMappingEnd] n
        return (key, value) :: (← flowPairs handles first false n)
      else if ← nextIs [.flowMappingEnd] then
        let _ ← take
        return []
      else
        let key ← node handles false false n
        let value ← addAbsent (← peek).first
        return (key, value) :: (← flowPairs handles first false n)

end

/-! ### Documents -/

/-- What handles stand for if no directive says otherwise. -/
def standardHandles : Handles := [("!", "!"), ("!!", Tag.standard)]

/-- Reads the directives before a document. -/
def directives (versioned : Bool) (handles : Handles) : Nat → Reading Handles
  | 0 => throw .exhausted
  | n + 1 => do
    let t ← peek
    match t.kind with
    | .yamlDirective major _ => do
      let _ ← take
      if versioned then fail none none "found duplicate YAML directive" t.first
      if major ≠ 1 then
        fail none none "found incompatible YAML document (version 1.* is required)" t.first
      directives true handles n
    | .tagDirective handle start => do
      let _ ← take
      if (handles.lookup handle).isSome then
        fail none none ("duplicate tag handle " ++ Text.quoted handle) t.first
      directives versioned (handles ++ [(handle, start)]) n
    | .otherDirective => do
      let _ ← take
      directives versioned handles n
    | _ => return handles ++ standardHandles

/-- Passes over the marks of the ends of documents. -/
def skipEnds : Nat → Reading Unit
  | 0 => throw .exhausted
  | n + 1 => do
    if ← nextIs [.documentEnd] then
      let _ ← take
      skipEnds n

/-- A number of steps that no reading of a text exceeds. -/
def enough : Reading Nat := return 8 * (← getThe Lexer).rest.length + 64

/-- Reads the start of a document that has a mark of its own; the place where it starts comes
with what handles stand for. -/
def documentStart : Reading (Handles × Mark) := do
  let place := (← peek).first
  let handles ← directives false [] (← enough)
  let t ← peek
  if !(← nextIs [.documentStart]) then
    fail none none ("expected '<document start>', but found " ++ Text.quoted t.kind.name) t.first
  let _ ← take
  return (handles, place)

/-- Reads a document, with or without a mark of its start. -/
def documentNode (n : Nat) : Reading Nat := do
  if ← nextIs [.otherDirective, .documentStart] then
    let (handles, _) ← documentStart
    let place := (← peek).first
    nodeUnless handles true false
      [.otherDirective, .documentStart, .documentEnd, .streamEnd] place n
  else node standardHandles true false n

/-- Reads the one document of a text; an empty text has none. -/
def document : Reading (Option Document) := do
  let n ← enough
  let _ ← take
  if ← nextIs [.streamEnd] then return none
  let root ← documentNode n
  if ← nextIs [.documentEnd] then
    let _ ← take
  skipEnds n
  let nodes := (← get).nodes
  if !(← nextIs [.streamEnd]) then
    let (_, place) ← documentStart
    fail (some "expected a single document in the stream") (some (nodes.getD root default).mark)
      "but found another document" place
  return some ⟨nodes, root⟩

end Reading

/-- A character that a text may hold. -/
def isAllowed (c : Char) : Bool :=
  let n := c.toNat
  c = '\t' || c = '\n' || c = '\r' || (0x20 ≤ n && n ≤ 0x7e) || n = 0x85 ||
    (0xa0 ≤ n && n ≤ 0xfffd) || 0x10000 ≤ n

/-- Finds the first character that a text may not hold, with its position. -/
def findHidden (position : Nat) : List Char → Option (Char × Nat)
  | [] => none
  | c :: rest => if isAllowed c then findHidden (position + 1) rest else some (c, position)

/-- Reads the one document of a text. -/
def Document.ofText (source : List Char) : Except Fault (Option Document) :=
  match findHidden 0 source with
  | some (c, position) => .error (.hidden c position)
  | none =>
    match (Reading.document.run' ⟨#[], []⟩).run (Lexer.start source) with
    | .ok document _ => .ok document
    | .error f _ => .error f

end GatewayDocs.Yaml
