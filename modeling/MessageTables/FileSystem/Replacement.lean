import MessageTables.FileSystem.TemporaryName
import MessageTables.FileSystem.TreeAction

/-!
# Replacing a file

A file is replaced as a whole or not at all: the new content goes to a temporary
file in the directory of the output, which then takes the output's place. Missing
directories are made first. When a step fails the temporary file is removed; the
directories stay.

To make a directory, those above it are made one inside the other, however many
there are: that a deep row of calls may exhaust the stack is left out.
-/

namespace MessageTables

namespace Tree

/-- Makes a directory unless there is one. -/
def ensureDirectory (tree : Tree) (path : Path) (mode : Nat) (time : Timestamp) :
    Except AccessError Tree :=
  match tree.create path (.directory mode time) time with
  | .ok tree => .ok tree
  | .error (.code .noEntry) => .error (.code .noEntry)
  | .error .nullByte => .error .nullByte
  | .error error =>
      match tree.test Node.isDirectory path with
      | .ok true => .ok tree
      | .ok false => .error error
      | .error error => .error error

end Tree

namespace TreeAction

/--
Makes the directory with the given parts, the last part first, and before it those above it
that are missing.
-/
def makeDirectories (anchor : Anchor) (mode : Nat) (time : Timestamp) :
    List Part → TreeAction Unit
  | [] => change [⟨anchor, []⟩] (·.ensureDirectory ⟨anchor, []⟩ mode time)
  | part :: above =>
      let path : Path := ⟨anchor, (part :: above).reverse⟩
      let make := change [path] (·.ensureDirectory path mode time)
      tryCatch make fun mishap => do
        if mishap = .refused (.code .noEntry) [path] then
          makeDirectories anchor mode time above
          make
        else throw mishap

/-- The permissions of a temporary file. -/
def temporaryMode : Nat := 0o600

/-- Makes an empty temporary file at a path. -/
def createTemporary (path : Path) (time : Timestamp) (tree : Tree) : Except AccessError Tree :=
  tree.create path (.file .empty temporaryMode time) time

/--
Makes a temporary file for an output, with a token that is drawn among those whose name is
free.
-/
def makeTemporary (output : Path) (draw : Draw) (time : Timestamp) : TreeAction Path := do
  let tree ← get
  let drawn := draw.pick fun token =>
    createTemporary (output.temporary token) time tree matches .error (.code .alreadyExists)
  match drawn with
  | none => throw .crowded
  | some token =>
      let path := output.temporary token
      change [path] (createTemporary path time)
      return path

/-- Writes a text to the temporary file at a path. -/
def fillTemporary (path : Path) (text : Text) (time : Timestamp) : TreeAction Unit :=
  match text.encode? with
  | none => throw (.unencodable text)
  | some bytes => change [path] (·.write path bytes temporaryMode time)

/-- Removes a temporary file that may be gone. -/
def dropTemporary (path : Path) (time : Timestamp) : TreeAction Unit :=
  tryCatch (change [path] (·.unlink path time)) fun mishap => do
    if mishap = .refused (.code .noEntry) [path] then return () else throw mishap

/-- The permissions of a file that replaces another. -/
def replacementMode : Nat := 0o644

/--
Replaces the output by a file with the given text; directories are made with the given
permissions.
-/
def replaceFile (output : Path) (text : Text) (directoryMode : Nat) (draw : Draw)
    (time : Timestamp) : TreeAction Unit := do
  makeDirectories output.anchor directoryMode time output.parent.parts.reverse
  let temporary ← makeTemporary output draw time
  tryCatch (do
      fillTemporary temporary text time
      change [temporary] (·.changeMode temporary replacementMode)
      change [temporary, output] (·.rename temporary output time))
    fun mishap => do
      dropTemporary temporary time
      throw mishap

end TreeAction

end MessageTables
