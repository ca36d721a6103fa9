import GatewayDocs.Yaml.Node

/-! # Merged mappings

The key `<<` of a mapping stands for the pairs of another mapping, or of several.  They come
before the mapping's own pairs, which then replace them key by key; of several mappings the
last one comes first.  `Merging.settle` does the merges of a mapping in the table of nodes:
those of the mappings that it takes pairs over from are done first. -/

namespace GatewayDocs.Yaml

/-- A key and a value, as numbers of nodes. -/
abbrev Pair := Nat × Nat

/-- The pairs of a node, if it is a mapping. -/
def Node.pairs (node : Node) : List Pair :=
  match node.content with
  | .mapping pairs => pairs
  | _ => []

/-- A change of a table of nodes. -/
abbrev Merging := StateT (Array Node) (Except Fault)

namespace Merging

/-- The node of a number. -/
def node (number : Nat) : Merging Node := return (← get).getD number default

/-- Writes the pairs of a mapping. -/
def setPairs (number : Nat) (pairs : List Pair) : Merging Unit :=
  modify fun nodes => nodes.modify number fun n => { n with content := .mapping pairs }

/-- Makes a text of a key that is the sign of a default value. -/
def makeText (number : Nat) : Merging Unit :=
  modify fun nodes => nodes.modify number fun n =>
    if n.tag = .value then { n with tag := .str } else n

/-- Whether a key stands for the pairs of other mappings. -/
def isMerge (nodes : Array Node) (pair : Pair) : Bool :=
  (nodes.getD pair.1 default).tag = .merge

/-- The value of the first merge among some pairs, and the other pairs. -/
def takeMerge? (nodes : Array Node) : List Pair → Option (Nat × List Pair)
  | [] => none
  | pair :: rest =>
    if isMerge nodes pair then some (pair.2, rest)
    else (takeMerge? nodes rest).map fun (source, others) => (source, pair :: others)

/-- Fails because a mapping cannot take pairs over from a value. -/
def refuse {α : Type} (first : Mark) (expected : String) (value : Node) : Merging α :=
  throw (.marked (some "while constructing a mapping") (some first)
    (expected ++ ", but found " ++ value.content.kindName) value.mark)

mutual

/-- Does the merges of a mapping that has taken some pairs over already. -/
def settleFrom : Nat → Nat → List Pair → Merging Unit
  | 0, _, _ => throw .exhausted
  | n + 1, number, taken => do
    let owner ← node number
    match takeMerge? (← get) owner.pairs with
    | none =>
      owner.pairs.forM fun pair => makeText pair.1
      setPairs number (taken ++ owner.pairs)
    | some (source, others) =>
      setPairs number others
      let more ← inherited owner.mark n source
      settleFrom n number (taken ++ more)

/-- The pairs that a mapping takes over from the value of a merge. -/
def inherited (first : Mark) : Nat → Nat → Merging (List Pair)
  | 0, _ => throw .exhausted
  | n + 1, source => do
    let value ← node source
    match value.content with
    | .mapping _ =>
      settleFrom n source []
      return (← node source).pairs
    | .sequence items =>
      let groups ← items.mapM fun item => do
        let part ← node item
        match part.content with
        | .mapping _ =>
          settleFrom n item []
          return (← node item).pairs
        | _ => refuse first "expected a mapping for merging" part
      return groups.reverse.flatten
    | .scalar _ => refuse first "expected a mapping or list of mappings for merging" value

end

/-- The number of merges in a table of nodes. -/
def count (nodes : Array Node) : Nat :=
  nodes.foldl (fun n node => n + (node.pairs.filter (isMerge nodes)).length) 0

/-- Does the merges of a mapping.  Every merge is done once, so that their number bounds the
steps. -/
def settle (number : Nat) : Merging Unit := do
  settleFrom (2 * count (← get) + 2) number []

end Merging
end GatewayDocs.Yaml
