import MessageTables.CommandLine.Run

/-!
# The program

The program runs its command line on the working directory. It takes the files
below the directory into a tree, runs the command line on the tree, and then
makes the files what the run has made of the tree. A link that leads out of the
working directory is taken for one that leads nowhere. The system gives and takes
strings, so names that are no characters are passed over.

Everything that is decided is decided in `CommandLine.run`; this file only
carries files and texts in and out.
-/

namespace MessageTables

namespace Program

/-- The time of a file, as the system keeps it. -/
def timestampOf (time : IO.FS.SystemTime) : Timestamp :=
  ⟨time.sec, time.nsec.toNat⟩

/-- The time at which the program runs: that of a file made for the purpose. -/
def currentTime : IO Timestamp := do
  let (_, path) ← IO.FS.createTempFile
  let metadata ← path.metadata
  IO.FS.removeFile path
  return timestampOf metadata.modified

/-- The characters of a text. -/
def stringOf (text : Text) : String :=
  .ofList (text.toList.filterMap Symbol.char?)

/-- The text of a link to a path, seen from the top. -/
def targetOf (top path : Text) : Text :=
  match (top ++ "/").toList.isPrefixOf? path.toList with
  | some rest => "/" ++ Text.ofList rest
  | none => path

/-- The path of a location below the top. -/
def systemPath (top : Text) (location : Location) : String :=
  stringOf (Text.intercalate "/" (top :: location.reverse.map Name.text))

/-- Takes the entries of a directory and of all directories below it into a tree. -/
partial def load (top : Text) (location : Location) (tree : Tree) : IO Tree := do
  let directory ← IO.FS.realPath (systemPath top location)
  let mut tree := tree
  for entry in ← directory.readDir do
    let some name := Name.ofText? entry.fileName | continue
    let metadata ← entry.path.symlinkMetadata
    let time := timestampOf metadata.modified
    match metadata.type with
    | .dir =>
        let inner := name :: location
        tree ← load top inner (tree.set inner (.directory 0o755 time))
    | .file =>
        let bytes ← IO.FS.readBinFile entry.path
        tree := tree.set (name :: location) (.file bytes 0o644 time)
    | .symlink =>
        let target ← try IO.FS.realPath entry.path catch _ => pure entry.path
        tree := tree.set (name :: location) (.link (targetOf top target.toString))
    | _ => continue
  return tree

/-- Whether a node was a file with the same bytes, a directory or a link before. -/
def isUnchanged : Node → Option Node → Bool
  | .file bytes _ _, some (.file other _ _) => bytes = other
  | .directory _ _, some (.directory _ _) => true
  | .link target, some (.link other) => target = other
  | _, _ => false

/-- Makes the files below the top what a tree holds, given what they were. -/
def store (top : Text) (before after : Tree) : IO Unit := do
  for (location, node) in before.entries do
    if (after.node? location).isNone ∧ !node.isDirectory then
      IO.FS.removeFile (systemPath top location)
  let byDepth := after.entries.mergeSort fun left right => left.1.length ≤ right.1.length
  for (location, node) in byDepth do
    let path := systemPath top location
    unless isUnchanged node (before.node? location) do
      match node with
      | .directory _ _ => IO.FS.createDir path
      | .file bytes _ _ =>
          let temporary := path ++ ".tmp"
          IO.FS.writeBinFile temporary bytes
          IO.FS.rename temporary path
      | .link _ => pure ()

/-- The variables that settings are read from, where they are set. -/
def readEnvironment : IO Environment := do
  let settings : List Text := ["SOURCE_DIR", "OUTPUT_DIR"]
  let found ← settings.mapM fun setting => do
    let name := Environment.variableBeginning ++ setting
    return (← IO.getEnv (stringOf name)).map fun value => (name, Text.ofString value)
  return found.filterMap id

/-- The line that reports a failure which ended the run. -/
def failureLine (failure : Failure) : Text :=
  failure.className ++ ": " ++ failure.text

end Program

end MessageTables

open MessageTables

/-- Runs the command line. -/
def main (words : List String) : IO UInt32 := do
  let top ← IO.FS.realPath "."
  let time ← Program.currentTime
  let fresh := Session.fresh 0o022 .passes fun _ => time
  let tree ← Program.load top.toString [] fresh.tree
  let (transcript, session) :=
    CommandLine.run (words.map Text.ofString) (← Program.readEnvironment) { fresh with tree }
  Program.store top.toString tree session.tree
  IO.print (Program.stringOf transcript.output)
  IO.eprint (Program.stringOf transcript.errors)
  match transcript.exit with
  | .ok status => return UInt32.ofNat status
  | .error failure =>
      IO.eprintln (Program.stringOf (Program.failureLine failure))
      return 1
