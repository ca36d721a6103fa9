import GatewayDocs.Files.Path
import GatewayDocs.Edit

/-! # File trees

The files and directories that are known, each with the names on the way to it from the
working directory.  Paths are walked as they are written: two points lead out of a directory
that has to be there.

The root and the directories around the working directory are there too (`around`), but
nothing is known to be in them. -/

namespace GatewayDocs

/-- What is at a place of a file tree. -/
inductive FileNode where
  | file (bytes : ByteArray)
  | directory

/-- A place in a file tree: the names on the way to it. -/
abbrev Place := List String

/-- The files and directories that are known. -/
structure FileTree where
  nodes : List (Place × FileNode)

namespace FileTree

/-- A working directory with nothing in it. -/
def empty : FileTree := ⟨[]⟩

/-- The place of the root. -/
def root : Place := ["/"]

/-- Whether a place is the working directory, one around it or the root. -/
def around (place : Place) : Bool := place = root || place.all (· = "..")

/-- What is at a place. -/
def get? (t : FileTree) (place : Place) : Option FileNode :=
  if around place then some .directory else t.nodes.lookup place

/-- Writes a node among others. -/
def putNode (place : Place) (node : FileNode) :
    List (Place × FileNode) → List (Place × FileNode)
  | [] => [(place, node)]
  | (p, n) :: rest =>
    if p = place then (p, node) :: rest else (p, n) :: putNode place node rest

/-- Writes a node at a place. -/
def put (t : FileTree) (place : Place) (node : FileNode) : FileTree :=
  ⟨putNode place node t.nodes⟩

/-- The place of a name in a directory, which has to be one. -/
def step (t : FileTree) (here : Place) (name : String) : Except PathFault Place :=
  match t.get? here with
  | none => .error .missing
  | some (.file _) => .error .notDirectory
  | some .directory =>
    if Path.nameLimit < Path.byteLength name then .error .tooLong
    else if name ≠ ".." then .ok (here ++ [name])
    else if here = root then .ok root
    else if around here then .ok (here ++ [name])
    else .ok here.dropLast

/-- The place of a path; only what its last name tells may be missing. -/
def place (t : FileTree) (p : Path) : Except PathFault Place :=
  if Path.pathLimit ≤ Path.byteLength p.text then .error .tooLong
  else p.parts.foldlM (fun here name => t.step here name) (if p.root = "" then [] else root)

/-- The bytes of a file. -/
def read (t : FileTree) (p : Path) : Except PathFault ByteArray := do
  match t.get? (← t.place p) with
  | some (.file bytes) => return bytes
  | some .directory => throw .isDirectory
  | none => throw .missing

/-- Whether there is a directory. -/
def isDirectory (t : FileTree) (p : Path) : Bool :=
  match t.place p with
  | .ok place =>
    match t.get? place with
    | some .directory => true
    | _ => false
  | .error _ => false

/-- Makes a directory in one that is there. -/
def makeOne (t : FileTree) (p : Path) : Except PathFault FileTree := do
  let place ← t.place p
  if (t.get? place).isSome then throw .present
  return t.put place .directory

/-- Makes a directory in one that is there, unless it is there itself. -/
def ensureOne (t : FileTree) (p : Path) : Except PathFault FileTree :=
  match t.makeOne p with
  | .ok u => .ok u
  | .error e => if t.isDirectory p then .ok t else .error e

/-- Makes a directory and those on the way to it; the path that cannot be used comes with a
fault. -/
def makeAll (root : String) : List String → FileTree → FileTree × Except (PathFault × Path) Unit
  | reversed, t =>
    let p : Path := ⟨root, reversed.reverse⟩
    match t.makeOne p with
    | .ok u => (u, .ok ())
    | .error .missing =>
      match reversed with
      | [] => (t, .error (.missing, p))
      | _ :: outer =>
        match makeAll root outer t with
        | (u, .ok ()) =>
          match u.ensureOne p with
          | .ok v => (v, .ok ())
          | .error e => (u, .error (e, p))
        | failed => failed
    | .error e => (t, if t.isDirectory p then .ok () else .error (e, p))

/-- Writes a file into a directory that is there. -/
def write (t : FileTree) (p : Path) (bytes : ByteArray) : Except PathFault FileTree := do
  let place ← t.place p
  match t.get? place with
  | some .directory => throw .isDirectory
  | _ => return t.put place (.file bytes)

/-- Fails if a path has codes that no path may have. -/
def checkPath (p : Path) : Result Unit :=
  let ns := Units.codes p.text.toList
  if ns.any Path.isForeign then .error .notText
  else if ns.contains 0 then .error .nullInPath
  else .ok ()

/-- Makes the directory of a path. -/
def makeParent (p : Path) : Edit FileTree Unit := do
  Edit.ofResult (checkPath p.parent)
  match makeAll p.root p.parent.parts.reverse (← get) with
  | (t, .ok ()) => set t
  | (t, .error (e, q)) =>
    set t
    throw (.unusable e q.text)

/-- Writes a file. -/
def save (p : Path) (bytes : ByteArray) : Edit FileTree Unit := do
  Edit.ofResult (checkPath p)
  match (← get).write p bytes with
  | .ok t => set t
  | .error e => throw (.unusable e p.text)

/-- A tree with a node at a path and directories on the way to it. -/
def insert (t : FileTree) (p : Path) (node : FileNode) : FileTree :=
  let ways := (List.range (p.parts.length - 1)).map fun n => p.parts.take (n + 1)
  let addWay (t : FileTree) (place : Place) : FileTree :=
    if (t.get? place).isSome then t else t.put place .directory
  (ways.foldl addWay t).put p.parts node

/-- Whether a place is in the working directory. -/
def isInside (place : Place) : Bool := place.head? ≠ some ".." && place.head? ≠ some "/"

/-- The files in the working directory. -/
def files (t : FileTree) : List (Place × ByteArray) :=
  t.nodes.filterMap fun (place, node) =>
    match node with
    | .file bytes => if isInside place then some (place, bytes) else none
    | .directory => none

end FileTree
end GatewayDocs
