import MessageTables.Path
import MessageTables.Timestamp

/-!
# Nodes

What a tree of files is made of: the names of entries, the locations that names
lead to, and what may stand at a location. A location lists the names that lead
to it from the top, the innermost name first, so that the directory a node is in
is the tail of its location. A link only holds a text, which may lead anywhere
or nowhere.

All nodes belong to whoever works on the tree, so of the permissions of a node
only the owner's count.
-/

namespace MessageTables

/--
What the names of entries are: parts of paths that do not lead out of a
directory, hold no null character and take at most 255 bytes.
-/
def IsName (text : Text) : Prop :=
  IsPart text ∧ text ≠ ".." ∧ Symbol.char '\x00' ∉ text.toList ∧ text.byteSize ≤ 255

instance (text : Text) : Decidable (IsName text) :=
  inferInstanceAs (Decidable (_ ∧ _ ∧ _ ∧ _))

/-- The name of an entry of a directory. -/
structure Name where
  text : Text
  isName : IsName text
  deriving DecidableEq

namespace Name

@[ext] theorem ext {left right : Name} (texts : left.text = right.text) : left = right := by
  cases left
  cases right
  cases texts
  rfl

/-- The name with the given text, if it is one. -/
def ofText? (text : Text) : Option Name :=
  if isName : IsName text then some ⟨text, isName⟩ else none

/-- A name as a part of a path. -/
def part (name : Name) : Part :=
  ⟨name.text, name.isName.1⟩

end Name

/-- The names that lead from the top to a node, the innermost first. -/
abbrev Location := List Name

/--
What permissions allow: to see what a node holds, to change what it holds, to enter a
directory.
-/
inductive Right where
  | read
  | write
  | enter
  deriving DecidableEq, Repr

namespace Right

/-- The bit that stands for the owner's right among the permissions. -/
def bit : Right → Nat
  | read => 8
  | write => 7
  | enter => 6

end Right

/-- Bytes are compared in one way, whatever other ways are imported. -/
instance (priority := 2000) decidableEqBytes : DecidableEq ByteArray :=
  ByteArray.instDecidableEq

/-- What a location holds. -/
inductive Node where
  | file (bytes : ByteArray) (mode : Nat) (time : Timestamp)
  | directory (mode : Nat) (time : Timestamp)
  | link (target : Text)
  deriving DecidableEq

namespace Node

/-- Whether a node is a directory. -/
def isDirectory : Node → Bool
  | directory _ _ => true
  | _ => false

/-- Whether a node is a file. -/
def isFile : Node → Bool
  | file _ _ _ => true
  | _ => false

/-- The time of the last change of a node; links have none of their own. -/
def time? : Node → Option Timestamp
  | file _ _ time => some time
  | directory _ time => some time
  | link _ => none

/-- The permissions of a node. -/
def mode : Node → Nat
  | file _ mode _ => mode
  | directory mode _ => mode
  | link _ => 0o777

/-- Whether the permissions of a node grant a right. -/
def grants (node : Node) (right : Right) : Bool :=
  node.mode.testBit right.bit

end Node

end MessageTables
