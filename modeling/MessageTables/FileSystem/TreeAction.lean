import MessageTables.FileSystem.Access

/-!
# Actions on a tree

An action changes a tree in steps. It ends when it is done, or at the first step
that fails; what was done before stays done. A step that the tree refuses is
known by the paths it was about.
-/

namespace MessageTables

/-- Why an action stopped. -/
inductive Mishap where
  /-- The tree refused a step that was about the given paths. -/
  | refused (error : AccessError) (paths : List Path)
  /-- There was no name left for a temporary file. -/
  | crowded
  /-- A text to be written holds stray bytes. -/
  | unencodable (text : Text)
  deriving DecidableEq

/--
What is done to a tree, until it is done or fails; the tree keeps what was done before a
failure.
-/
abbrev TreeAction := EStateM Mishap Tree

namespace TreeAction

/-- One change of the tree, about the given paths. -/
def change (paths : List Path) (operation : Tree → Except AccessError Tree) :
    TreeAction Unit := fun tree =>
  match operation tree with
  | .ok tree => .ok () tree
  | .error error => .error (.refused error paths) tree

end TreeAction

end MessageTables
