import MessageTables.FileSystem.ErrorCode
import MessageTables.FileSystem.Tree

/-!
# Walks through a tree

A path is followed step by step, from the top: it stays in a directory, goes up
or enters a name. Going up from the top stays there. Every step needs a
directory to start from and the right to enter it, and a name of more than 255
bytes is refused where it is entered. A slash at the end of a path only asks
whether it has come to a directory.

`Tree.walk` takes steps until it arrives, finds nothing, or meets a link. It
keeps hold of where it is instead of starting from the top at every step;
`Tree.walk_cons` says what a step is without that.
`Tree.follow` goes on through links, up to forty of them, from the directory the
link is in, or from the top if the link's text begins with a slash. So both are
recursions on what is left to do: the steps, and the number of links.
-/

namespace MessageTables

/-- One step of a walk. -/
inductive Step where
  | arrive
  | stay
  | up
  | enter (text : Text)
  deriving DecidableEq, Repr

namespace Step

/-- The step of a piece of a path. -/
def ofText (text : Text) : Step :=
  if text = "." then stay
  else if text = ".." then up
  else enter text

/-- The steps of a link's text. One that ends in a slash must lead to a directory. -/
def ofTarget (target : Text) : List Step :=
  let pieces := target.toList.splitOn (Symbol.char '/')
  let steps := (pieces.filter (!·.isEmpty)).map fun piece => ofText (Text.ofList piece)
  if pieces.getLast? = some [] then steps ++ [arrive] else steps

end Step

namespace Path

/-- The steps of a path; one without parts stays where it starts. -/
def steps (path : Path) : List Step :=
  match path.parts with
  | [] => [.stay]
  | parts => parts.map fun part => Step.ofText part.text

end Path

/-- How far a walk got. -/
inductive Arrival where
  | found (location : Location)
  | vacant (parent : Location) (name : Name)
  | detour (parent : Location) (target : Text) (rest : List Step)
  | failed (code : ErrorCode)
  deriving DecidableEq

/-- Where a path leads: to a node, or to a name that a directory does not have yet. -/
inductive Place where
  | node (location : Location)
  | vacant (parent : Location) (name : Name)
  deriving DecidableEq

namespace Tree

/-- Takes steps from a location until a link is met; what is at the location is given with it. -/
def walkFrom (tree : Tree) (location : Location) (here : Option (Node × Forest)) :
    List Step → Arrival
  | [] => .found location
  | step :: rest =>
      match here with
      | none => .failed .notDirectory
      | some (node, inner) =>
          if !node.isDirectory then .failed .notDirectory
          else if step ≠ .arrive ∧ !node.grants .enter then .failed .denied
          else
            match step with
            | .arrive => tree.walkFrom location here rest
            | .stay => tree.walkFrom location here rest
            | .up => tree.walkFrom location.tail (tree.at? location.tail) rest
            | .enter text =>
                match Name.ofText? text with
                | none => .failed .nameTooLong
                | some name =>
                    match inner.at? [name] with
                    | none => if rest.isEmpty then .vacant location name else .failed .noEntry
                    | some (.link target, _) => .detour location target rest
                    | some there => tree.walkFrom (name :: location) (some there) rest

/-- Takes steps from a location until a link is met. -/
def walk (tree : Tree) (location : Location) (steps : List Step) : Arrival :=
  tree.walkFrom location (tree.at? location) steps

theorem walk_nil (tree : Tree) (location : Location) : tree.walk location [] = .found location :=
  rfl

/-- A walk asks the tree for nothing but the nodes at the locations it comes to. -/
theorem walk_cons (tree : Tree) (location : Location) (step : Step) (rest : List Step) :
    tree.walk location (step :: rest) =
      if !tree.isDirectory location then .failed .notDirectory
      else if step ≠ .arrive ∧ !tree.grants location .enter then .failed .denied
      else
        match step with
        | .arrive => tree.walk location rest
        | .stay => tree.walk location rest
        | .up => tree.walk location.tail rest
        | .enter text =>
            match Name.ofText? text with
            | none => .failed .nameTooLong
            | some name =>
                match tree.node? (name :: location) with
                | none => if rest.isEmpty then .vacant location name else .failed .noEntry
                | some (.link target) => .detour location target rest
                | some _ => tree.walk (name :: location) rest := by
  rw [walk, isDirectory, grants, node?]
  cases here : tree.at? location with
  | none => simp [walkFrom]
  | some found =>
      obtain ⟨node, inner⟩ := found
      simp only [walkFrom, Option.map_some, Option.any_some]
      split
      · rfl
      split
      · rfl
      cases step with
      | arrive => simp only [walk, here]
      | stay => simp only [walk, here]
      | up => rfl
      | enter text =>
          simp only
          cases Name.ofText? text with
          | none => rfl
          | some name =>
              have there : tree.at? (name :: location) = inner.at? [name] := by
                rw [at?_cons, here, Option.bind_some]
              simp only [walk, node?, there]
              cases inner.at? [name] with
              | none => rfl
              | some found =>
                  obtain ⟨node, _⟩ := found
                  cases node <;> rfl

/-- The largest number of links that are followed. -/
def linkLimit : Nat := 40

/-- Takes steps from a location, through links. -/
def follow (tree : Tree) : (links : Nat) → Location → List Step → Except ErrorCode Place
  | links, location, steps =>
      match tree.walk location steps with
      | .found location => .ok (.node location)
      | .vacant parent name => .ok (.vacant parent name)
      | .failed code => .error code
      | .detour parent target rest =>
          match links with
          | 0 => .error .linkLoop
          | links + 1 =>
              let start := if target.toList.head? = some (Symbol.char '/') then [] else parent
              tree.follow links start (Step.ofTarget target ++ rest)

/-- The largest number of bytes in a path that is followed. -/
def pathLimit : Nat := 4095

/-- What every path has to satisfy before a step is taken: no null character, and not too long. -/
def checkPath (path : Path) : Except AccessError Unit :=
  if Symbol.char '\x00' ∈ path.text.toList then .error .nullByte
  else if pathLimit < path.text.byteSize then .error (.code .nameTooLong)
  else .ok ()

/-- Where a path leads, through links. -/
def place (tree : Tree) (path : Path) : Except AccessError Place := do
  checkPath path
  (tree.follow linkLimit [] path.steps).mapError .code

/-- The location of the node a path leads to. -/
def locate (tree : Tree) (path : Path) : Except AccessError Location := do
  match ← tree.place path with
  | .node location => return location
  | .vacant _ _ => throw (.code .noEntry)

/--
The directory that the last step of a path is taken in, and that step. The step itself is
not taken.
-/
def entry (tree : Tree) (path : Path) : Except AccessError (Location × Step) := do
  checkPath path
  match ← (tree.follow linkLimit [] path.steps.dropLast).mapError .code with
  | .vacant _ _ => throw (.code .noEntry)
  | .node parent =>
      if !tree.isDirectory parent then throw (.code .notDirectory)
      else if !tree.grants parent .enter then throw (.code .denied)
      else return (parent, path.steps.getLast?.getD .stay)

end Tree

end MessageTables
