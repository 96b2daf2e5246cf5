import MessageTables.FileSystem.Walk

/-!
# Access to files

What a tree answers about a path, and how it changes when a directory, a file or
a link is made, written, removed or moved. Each operation either gives an answer
or a new tree, or fails and leaves the tree as it was. Questions and writing go
through links; making, removing and moving are about the entry itself.

To see what a file or a directory holds takes the right to read it, to change it
takes the right to write, and the entries of a directory are what it holds.
Permissions and times may be changed without a right.

A directory carries the time at which its entries last changed.
-/

namespace MessageTables

namespace Tree

/-! ## Questions -/

/-- The node a path leads to. -/
def nodeAt (tree : Tree) (path : Path) : Except AccessError Node := do
  match tree.node? (← tree.locate path) with
  | some node => return node
  | none => throw (.code .noEntry)

/-- The bytes of the file at a path. -/
def read (tree : Tree) (path : Path) : Except AccessError ByteArray := do
  let node ← tree.nodeAt path
  if !node.grants .read then throw (.code .denied)
  match node with
  | .file bytes _ _ => return bytes
  | .directory _ _ => throw (.code .isDirectory)
  | .link _ => throw (.code .linkLoop)

/-- The time of the last change of what a path leads to. -/
def changeTime (tree : Tree) (path : Path) : Except AccessError Timestamp := do
  match (← tree.nodeAt path).time? with
  | some time => return time
  | none => throw (.code .linkLoop)

/-- The permissions of what a path leads to. -/
def mode (tree : Tree) (path : Path) : Except AccessError Nat :=
  Node.mode <$> tree.nodeAt path

/--
Whether a path leads to a node with a property. A path that leads nowhere does
not; only one that is too long or may not be followed is an error.
-/
def test (tree : Tree) (property : Node → Bool) (path : Path) : Except AccessError Bool :=
  match tree.nodeAt path with
  | .ok node => .ok (property node)
  | .error (.code .nameTooLong) => .error (.code .nameTooLong)
  | .error (.code .denied) => .error (.code .denied)
  | .error _ => .ok false

/-- The location of the directory at a path, whose entries may be read. -/
def directoryAt (tree : Tree) (path : Path) : Except AccessError Location := do
  let location ← tree.locate path
  if !tree.isDirectory location then throw (.code .notDirectory)
  else if !tree.grants location .read then throw (.code .denied)
  else return location

/-! ## Changes -/

/-- The tree with the time of a directory's last change. -/
def stamp (tree : Tree) (location : Location) (time : Timestamp) : Tree :=
  match tree.node? location with
  | some (.directory mode _) => tree.set location (.directory mode time)
  | _ => tree

/-- The tree with a new entry in a directory. -/
def addEntry (tree : Tree) (location : Location) (node : Node) (time : Timestamp) : Tree :=
  (tree.set location node).stamp location.tail time

/-- The tree without an entry and everything below it. -/
def removeEntry (tree : Tree) (location : Location) (time : Timestamp) : Tree :=
  (tree.remove location).stamp location.tail time

/-- The location that a name has in a directory, and the node there. -/
def entryNamed (tree : Tree) (parent : Location) (text : Text) :
    Except AccessError (Location × Option Node) :=
  match Name.ofText? text with
  | none => .error (.code .nameTooLong)
  | some name => .ok (name :: parent, tree.node? (name :: parent))

/-- Makes something that is not there yet. -/
def create (tree : Tree) (path : Path) (node : Node) (time : Timestamp) :
    Except AccessError Tree := do
  match ← tree.entry path with
  | (parent, .enter text) =>
      match ← tree.entryNamed parent text with
      | (location, none) =>
          if tree.grants parent .write then return tree.addEntry location node time
          else throw (.code .denied)
      | (_, some _) => throw (.code .alreadyExists)
  | _ => throw (.code .alreadyExists)

/-- Writes the bytes of a file, which may be new; what the path leads to decides. -/
def write (tree : Tree) (path : Path) (bytes : ByteArray) (mode : Nat) (time : Timestamp) :
    Except AccessError Tree := do
  match ← tree.place path with
  | .vacant parent name =>
      if tree.grants parent .write then
        return tree.addEntry (name :: parent) (.file bytes mode time) time
      else throw (.code .denied)
  | .node location =>
      match tree.node? location with
      | some (.file _ mode _) =>
          if tree.grants location .write then return tree.set location (.file bytes mode time)
          else throw (.code .denied)
      | _ => throw (.code .isDirectory)

/-- Gives the file at a path its permissions. -/
def changeMode (tree : Tree) (path : Path) (mode : Nat) : Except AccessError Tree := do
  let location ← tree.locate path
  match tree.node? location with
  | some (.file bytes _ time) => return tree.set location (.file bytes mode time)
  | some (.directory _ time) => return tree.set location (.directory mode time)
  | _ => throw (.code .noEntry)

/-- Gives what a path leads to the time of its last change. -/
def changeTimeTo (tree : Tree) (path : Path) (time : Timestamp) : Except AccessError Tree := do
  let location ← tree.locate path
  match tree.node? location with
  | some (.file bytes mode _) => return tree.set location (.file bytes mode time)
  | some (.directory mode _) => return tree.set location (.directory mode time)
  | _ => throw (.code .noEntry)

/-- Removes the file or link at a path. -/
def unlink (tree : Tree) (path : Path) (time : Timestamp) : Except AccessError Tree := do
  match ← tree.entry path with
  | (parent, .enter text) =>
      match ← tree.entryNamed parent text with
      | (_, none) => throw (.code .noEntry)
      | (location, some node) =>
          if !tree.grants parent .write then throw (.code .denied)
          else if node.isDirectory then throw (.code .isDirectory)
          else return tree.removeEntry location time
  | _ => throw (.code .isDirectory)

/-- Moves a file over whatever the second path names, unless that is a directory. -/
def rename (tree : Tree) (source target : Path) (time : Timestamp) :
    Except AccessError Tree := do
  let (sourceParent, sourceStep) ← tree.entry source
  let (targetParent, targetStep) ← tree.entry target
  match sourceStep, targetStep with
  | .enter sourceText, .enter targetText =>
      match ← tree.entryNamed sourceParent sourceText with
      | (_, none) => throw (.code .noEntry)
      | (sourceLocation, some node) =>
          let (targetLocation, replaced) ← tree.entryNamed targetParent targetText
          if !(tree.grants sourceParent .write && tree.grants targetParent .write) then
            throw (.code .denied)
          else if replaced.any Node.isDirectory then throw (.code .isDirectory)
          else return (tree.removeEntry sourceLocation time).addEntry targetLocation node time
  | _, _ => throw (.code .busy)

end Tree

end MessageTables
