import MessageTables.Session

/-!
# Arranging a tree

A tree is arranged by placing files, directories and links in it, with whatever
directories they need, and by taking things away.
-/

namespace MessageTables

/-- Something to place in a tree. -/
inductive Placement where
  | file (bytes : ByteArray) (time : Timestamp)
  | directory
  | link (target : Text)

namespace TreeAction

/--
Takes away the entry at a path with everything below it, which takes the right to see all of
it.
-/
def takeAway (path : Path) (now : Timestamp) : TreeAction Unit :=
  change [path] fun tree => do
    match ← tree.entry path with
    | (parent, .enter text) =>
        match ← tree.entryNamed parent text with
        | (location, some _) =>
            let mayTake := tree.grants parent .write && tree.entries.all fun entry =>
              !(location.isSuffixOf entry.1 && entry.2.isDirectory) || entry.2.grants .read
            if mayTake then return tree.removeEntry location now else throw (.code .denied)
        | (_, none) => throw (.code .noEntry)
    | _ => throw (.code .busy)

end TreeAction

namespace Action

/-- Makes a directory and those above it that are missing. -/
def makeDirectory (path : Path) : Action Unit := do
  let mode := newDirectoryMode (← get)
  act fun now => TreeAction.makeDirectories path.anchor mode now path.parts.reverse

/-- Places something at a path. -/
def place (path : Path) (placement : Placement) : Action Unit := do
  let mode := newFileMode (← get)
  match placement with
  | .directory => makeDirectory path
  | .file bytes time =>
      makeDirectory path.parent
      act fun now => do
        TreeAction.change [path] (·.write path bytes mode now)
        TreeAction.change [path] (·.changeTimeTo path time)
  | .link target =>
      makeDirectory path.parent
      act fun now => TreeAction.change [path] (·.create path (.link target) now)

/-- Takes away the entry at a path with everything below it. -/
def takeAway (path : Path) : Action Unit :=
  act (TreeAction.takeAway path)

/-- Gives what a path leads to the time of its last change. -/
def touch (path : Path) (time : Timestamp) : Action Unit :=
  act fun _ => TreeAction.change [path] (·.changeTimeTo path time)

/-- Sets the permissions that new files and directories do not get. -/
def setUmask (umask : Nat) : Action Unit :=
  modify fun session => { session with umask }

end Action

end MessageTables
