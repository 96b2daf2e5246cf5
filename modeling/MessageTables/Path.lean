import MessageTables.Text.Spelling

/-!
# Paths

A path is where it starts from and a list of parts. Repeated slashes, parts that
are a single dot and a slash at the end do not count, so that a path has one
text; a part of two dots is kept, for it means something only in a tree of files.
A path without parts that starts nowhere is written as a dot. Exactly two
slashes at the beginning are an anchor of their own.

`Path.ofText` reads a path and `Path.text` writes it.
-/

namespace MessageTables

/-- Where a path starts. -/
inductive Anchor where
  | relative
  | root
  | doubleRoot
  deriving DecidableEq, Repr

namespace Anchor

/-- The slashes an anchor is written with. -/
def text : Anchor → Text
  | relative => ""
  | root => "/"
  | doubleRoot => "//"

/-- The anchor of a path's text: one slash and three or more mean the same. -/
def ofCharacters : List Symbol → Anchor
  | '/' :: '/' :: '/' :: _ => root
  | '/' :: '/' :: _ => doubleRoot
  | '/' :: _ => root
  | _ => relative

end Anchor

/-- What the parts of a path are: not empty, no single dot, without slashes, and read from bytes. -/
def IsPart (text : Text) : Prop :=
  text ≠ "" ∧ text ≠ "." ∧ Symbol.char '/' ∉ text.toList ∧ text.IsDecoded

instance (text : Text) : Decidable (IsPart text) :=
  inferInstanceAs (Decidable (_ ∧ _ ∧ _ ∧ _))

/-- A part of a path. -/
structure Part where
  text : Text
  isPart : IsPart text
  deriving DecidableEq

namespace Part

@[ext] theorem ext {left right : Part} (texts : left.text = right.text) : left = right := by
  cases left
  cases right
  cases texts
  rfl

/-- The part with the given text, if it is one. -/
def ofText? (text : Text) : Option Part :=
  if isPart : IsPart text then some ⟨text, isPart⟩ else none

/-- The part that leads out of a directory. -/
def up : Part :=
  ⟨"..", by decide⟩

/-- Parts come in the order of their texts, character by character. -/
def le (left right : Part) : Bool :=
  !decide (right.text < left.text)

end Part

/-- A path: where it starts and its parts. -/
structure Path where
  anchor : Anchor
  parts : List Part
  deriving DecidableEq

namespace Path

/-- The pieces of a text between slashes that are parts. -/
def partsOf (text : Text) : List Part :=
  (text.toList.splitOn (Symbol.char '/')).filterMap fun piece => Part.ofText? (Text.ofList piece)

/-- Reads a path. -/
def ofText (text : Text) : Path :=
  ⟨Anchor.ofCharacters text.toList, partsOf text⟩

/-- Writes a path. -/
def text (path : Path) : Text :=
  if path.anchor = .relative ∧ path.parts = [] then "."
  else path.anchor.text ++ Text.intercalate "/" (path.parts.map Part.text)

/-- The last part of a path, as a text; empty when it has none. -/
def name (path : Path) : Text :=
  match path.parts.getLast? with
  | none => ""
  | some part => part.text

/-- The path without its last part. -/
def parent (path : Path) : Path :=
  { path with parts := path.parts.dropLast }

/-- The path of a part in the directory a path leads to. -/
def child (path : Path) (part : Part) : Path :=
  { path with parts := path.parts ++ [part] }

/-- The second path seen from the first; one that starts at a root stays as it is. -/
def join (path other : Path) : Path :=
  match other.anchor with
  | .relative => { path with parts := path.parts ++ other.parts }
  | _ => other

/-- Whether one list of parts comes before another or equals it, part by part. -/
def partsLe : List Part → List Part → Bool
  | [], _ => true
  | _ :: _, [] => false
  | left :: lefts, right :: rights =>
      if left = right then partsLe lefts rights else left.le right

end Path

end MessageTables
