import MessageTables.FileSystem.Access
import MessageTables.Error.Failure
import MessageTables.Glob.WildcardReader

/-!
# Searching for tables

Tables are the files whose names end in a suffix, in a directory or in any
directory below it. Links to files count and links to directories are not
entered; the directory itself may be a link. The suffix may hold wildcards, and
slashes that make a pattern of several parts out of it. What may not be seen is
not found; only a file that is found and may not be looked at is an error.

The result is in path order and has no path twice.

There are two ways to look for directories, as a `LinkRule` says. One asks of every
link that it comes across whether it leads to a directory, although it enters no
link: so a link that cannot be followed may end the search or a part of it. The
other passes links by. In both, directories are gone through one inside the other,
however deep they are: that a deep row of calls may exhaust the stack is left out.
-/

namespace MessageTables

/-- How a search for directories treats links. -/
inductive LinkRule where
  | asks
  | passes
  deriving DecidableEq, Repr

/-- A part of a pattern. -/
inductive PatternPart where
  | anyDepth
  | wildcard (wildcard : Wildcard)
  | named (part : Part)
  | nothing

namespace PatternPart

/-- Reads a part of a pattern: two stars stand for any depth, and only alone. -/
def ofPart (part : Part) : Except Failure PatternPart :=
  if part.text = "**" then .ok anyDepth
  else if Wildcard.someEnd (Text.toList "**").isPrefixOf part.text.toList then
    .error .invalidPattern
  else if Wildcard.isWildcard part.text then .ok (wildcard (.ofText part.text))
  else .ok (named part)

end PatternPart

namespace Pattern

/-- The parts of a pattern; one that ends in a slash has an empty part at its end. -/
def ofText (text : Text) : Except Failure (List PatternPart) := do
  let parts ← (Path.partsOf text).mapM PatternPart.ofPart
  if text.toList.getLast? = some (Symbol.char '/') then return parts ++ [.nothing] else return parts

end Pattern

namespace Path

/--
The text of an entry of a directory, which keeps the dot of the directory everything is
relative to.
-/
def entryText (directory : Path) (name : Name) : Text :=
  if directory.parts.isEmpty ∧ directory.anchor ≠ .relative then directory.text ++ name.text
  else directory.text ++ "/" ++ name.text

/-- Path order on paths that start from the same place: part by part. -/
def le (left right : Path) : Bool :=
  Path.partsLe left.parts right.parts

/-- A list without the elements that equal their neighbours. -/
def withoutRepeats : List Path → List Path
  | [] => []
  | path :: paths =>
      match withoutRepeats paths with
      | [] => [path]
      | next :: rest => if path = next then next :: rest else path :: next :: rest

/-- The same paths in path order, each once. -/
def sorted (paths : List Path) : List Path :=
  withoutRepeats (paths.mergeSort le)

end Path

namespace Tree

/--
What is found in a directory or below it: its path from there, its location, and the node
there. No link is entered.
-/
structure Sighting where
  parts : List Part
  location : Location
  node : Node

/-- The path of a sighting, given that of the directory it was made from. -/
def Sighting.path (sighting : Sighting) (directory : Path) : Path :=
  { directory with parts := directory.parts ++ sighting.parts }

/--
A directory and everything below it in path order, so that a directory comes before what is
in it.
-/
def sightings (tree : Tree) (root : Location) : List Sighting :=
  match tree.at? root with
  | none => []
  | some (node, inner) =>
      let below := (inner.entriesBelow []).map fun (names, node) =>
        Sighting.mk (names.reverse.map Name.part) (names ++ root) node
      Sighting.mk [] root node ::
        below.mergeSort fun left right => Path.partsLe left.parts right.parts

/-- The entries of the directory at a location, in the order of their names. -/
def sortedEntriesOf (tree : Tree) (location : Location) : List (Name × Node) :=
  (tree.entriesOf location).mergeSort fun left right => left.1.part.le right.1.part

/-- The answer to a question about a path. -/
def answer (path : Path) : Except AccessError α → Except Failure α
  | .ok value => .ok value
  | .error error => .error (.ofAccess path.text error)

/-- The answer to a question about a path, absent when the right to it is not granted. -/
def answerIfGranted (path : Path) : Except AccessError α → Except Failure (Option α)
  | .ok value => .ok (some value)
  | .error (.code .denied) => .ok none
  | .error error => .error (.ofAccess path.text error)

/-- Whether an entry of a directory is a directory or a link to one. Only a link is followed. -/
def entryIsDirectory (tree : Tree) (directory : Path) (name : Name) :
    Node → Except Failure (Option Bool)
  | .link _ =>
      match tree.test Node.isDirectory (directory.child name.part) with
      | .ok directory => .ok (some directory)
      | .error (.code .denied) => .ok none
      | .error error => .error (.ofAccess (directory.entryText name) error)
  | node => .ok (some node.isDirectory)

/-- A path if it leads to a file. -/
def keepFile (tree : Tree) (path : Path) : Except Failure (List Path) := do
  if ← answer path (tree.test Node.isFile path) then return [path] else return []

/-- Whether a sighting is a directory or, if links are asked, a link to one. -/
def checkSighting (tree : Tree) (links : LinkRule) (directory : Path) (sighting : Sighting) :
    Except Failure (Option Bool) :=
  match links, sighting.node, sighting.location with
  | .asks, .link target, name :: _ =>
      tree.entryIsDirectory (sighting.path directory).parent name (.link target)
  | _, node, _ => .ok (some node.isDirectory)

/-- What is found at the elements of a list, up to the first that is not granted. -/
def gather (find : α → Except Failure (Option (List Path))) : List α → Except Failure (List Path)
  | [] => return []
  | element :: rest => do
      match ← find element with
      | none => return []
      | some found => return found ++ (← gather find rest)

/--
What is found in the directories among some sightings. A directory is given up at
the first link in it that may not be followed, or when its entries may not be
read; `givenUp` is that directory, whose other sightings are passed over.
-/
def explore (tree : Tree) (links : LinkRule) (directory : Path)
    (find : Path → Except Failure (List Path)) :
    (givenUp : Option Location) → List Sighting → Except Failure (List Path)
  | _, [] => return []
  | givenUp, sighting :: rest => do
      if givenUp.any (·.isSuffixOf sighting.location) then
        explore tree links directory find givenUp rest
      else
        match ← tree.checkSighting links directory sighting with
        | none => explore tree links directory find (some sighting.location.tail) rest
        | some _ =>
            if sighting.node.isDirectory then
              let found ← find (sighting.path directory)
              let givenUp := if sighting.node.grants .read then none else some sighting.location
              return found ++ (← explore tree links directory find givenUp rest)
            else explore tree links directory find none rest

/--
The files that a pattern describes, seen from a directory. The first error met
ends the search, but where a right is not granted it only ends there.
-/
def select (tree : Tree) (links : LinkRule) : List PatternPart → Path → Except Failure (List Path)
  | [], path => tree.keepFile path
  | .nothing :: _, path => tree.keepFile path
  | .named part :: rest, directory => do
      let path := directory.child part
      let property : Node → Bool := if rest.isEmpty then fun _ => true else Node.isDirectory
      match ← answerIfGranted path (tree.test property path) with
      | some true => select tree links rest path
      | _ => return []
  | .wildcard wildcard :: rest, directory => do
      match ← answerIfGranted directory (tree.directoryAt directory) with
      | none => return []
      | some location =>
          let find (entry : Name × Node) : Except Failure (Option (List Path)) := do
            let enter ←
              if rest.isEmpty then pure (some true)
              else tree.entryIsDirectory directory entry.1 entry.2
            match enter with
            | none => return none
            | some enter =>
                if enter && wildcard.accepts entry.1.text.toList then
                  return some (← select tree links rest (directory.child entry.1.part))
                else return some []
          gather find (tree.sortedEntriesOf location)
  | .anyDepth :: rest, directory => do
      match ← answerIfGranted directory (tree.locate directory) with
      | none => return []
      | some root =>
          explore tree links directory (select tree links rest) none (tree.sightings root)

/--
The files with a suffix in a directory and below it, in path order; none when there is no
such directory.
-/
def findTables (tree : Tree) (links : LinkRule) (directory : Path) (suffix : String) :
    Except Failure (List Path) := do
  if ← answer directory (tree.test Node.isDirectory directory) then
    let pattern ← Pattern.ofText ("*" ++ suffix)
    let files ← select tree links (.anyDepth :: pattern) directory
    return Path.sorted files
  else return []

end Tree

end MessageTables
