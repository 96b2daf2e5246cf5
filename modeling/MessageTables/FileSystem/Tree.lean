import MessageTables.FileSystem.Forest

/-!
# Trees of files

A tree of files is a directory, the top, with a sound forest in it. So the top
is always a directory, and whatever has a node is in a directory. The two
operations that change a tree keep it sound: `Tree.set` gives a location a node
if the tree has room for it there, and `Tree.remove` takes away a node with
everything below it.

`Tree.node?` is the view of a tree that the rest is stated in.
-/

namespace MessageTables

/-- A tree of files. -/
structure Tree where
  top : Node
  forest : Forest
  rooted : top.isDirectory = true
  sound : forest.IsSound

namespace Tree

/-- The node at a location, and what it holds. -/
def at? (tree : Tree) : Location → Option (Node × Forest)
  | [] => some (tree.top, tree.forest)
  | name :: above => tree.forest.at? (name :: above).reverse

/-- The node at a location. -/
def node? (tree : Tree) (location : Location) : Option Node :=
  (tree.at? location).map Prod.fst

/-- All nodes with their locations. -/
def entries (tree : Tree) : List (Location × Node) :=
  ([], tree.top) :: tree.forest.entriesBelow []

/-- The entries of the directory at a location. -/
def entriesOf (tree : Tree) (location : Location) : List (Name × Node) :=
  match tree.at? location with
  | some (_, inner) => inner.children
  | none => []

/-- Whether a location holds a directory. -/
def isDirectory (tree : Tree) (location : Location) : Bool :=
  (tree.node? location).any Node.isDirectory

/-- Whether the node at a location grants a right. -/
def grants (tree : Tree) (location : Location) (right : Right) : Bool :=
  (tree.node? location).any (·.grants right)

/--
Whether there is room for a node at a location: it is in a directory, and only a directory
may have entries.
-/
def Fits (tree : Tree) (location : Location) (node : Node) : Prop :=
  (location = [] ∨ tree.isDirectory location.tail = true) ∧
    (node.isDirectory = true ∨ location ≠ [] ∧ (tree.entriesOf location).isEmpty = true)

instance (tree : Tree) (location : Location) (node : Node) :
    Decidable (tree.Fits location node) :=
  inferInstanceAs (Decidable ((_ ∨ _) ∧ (_ ∨ _ ∧ _)))

/-! ## The view -/

theorem node?_nil (tree : Tree) : tree.node? [] = some tree.top := rfl

theorem node?_eq (tree : Tree) {location : Location} (inner : location ≠ []) :
    tree.node? location = tree.forest.node? location.reverse := by
  cases location with
  | nil => exact absurd rfl inner
  | cons name above => rfl

/-- What is at a name in a directory is found in what the directory holds. -/
theorem at?_cons (tree : Tree) (name : Name) (above : Location) :
    tree.at? (name :: above) = (tree.at? above).bind fun found => found.2.at? [name] := by
  cases above with
  | nil => rfl
  | cons other rest =>
      rw [at?, List.reverse_cons, Forest.at?_append_singleton _ (by simp)]
      rfl

theorem mem_entries {tree : Tree} {location : Location} {node : Node} :
    (location, node) ∈ tree.entries ↔ tree.node? location = some node := by
  rw [entries, List.mem_cons, Forest.mem_entriesBelow tree.sound]
  constructor
  · rintro (same | ⟨names, rfl, found⟩)
    · obtain ⟨rfl, rfl⟩ := Prod.mk.injEq _ _ _ _ ▸ same
      rfl
    · have inner : names.reverse ≠ [] := by
        intro none
        rw [List.reverse_eq_nil_iff.mp none, Forest.node?_nil] at found
        cases found
      simpa [node?_eq tree inner] using found
  · intro found
    cases location with
    | nil =>
        left
        simpa [node?_nil, eq_comm] using found
    | cons name above =>
        right
        exact ⟨(name :: above).reverse, by simp, by rwa [node?_eq tree (by simp)] at found⟩

/-- What a location holds is sound, and is nothing unless it is a directory. -/
theorem sound_of_at? {tree : Tree} {location : Location} {node : Node} {inner : Forest}
    (found : tree.at? location = some (node, inner)) :
    (node.isDirectory = true ∨ inner = .empty) ∧ inner.IsSound := by
  cases location with
  | nil =>
      simp only [at?, Option.some.injEq, Prod.mk.injEq] at found
      obtain ⟨rfl, rfl⟩ := found
      exact ⟨Or.inl tree.rooted, tree.sound⟩
  | cons _ _ => exact Forest.sound_of_at? tree.sound found

theorem mem_entriesOf {tree : Tree} {location : Location} {name : Name} {node : Node} :
    (name, node) ∈ tree.entriesOf location ↔ tree.node? (name :: location) = some node := by
  rw [entriesOf, node?, at?_cons]
  cases found : tree.at? location with
  | none => simp
  | some there => exact Forest.mem_children (sound_of_at? found).2

/-- What has a node is in a directory. -/
theorem isDirectory_of_node? {tree : Tree} {name : Name} {location : Location}
    (present : (tree.node? (name :: location)).isSome) : tree.isDirectory location = true := by
  rw [node?, at?_cons] at present
  rw [isDirectory, node?]
  cases found : tree.at? location with
  | none => simp [found] at present
  | some there =>
      rcases (sound_of_at? found).1 with directory | hollow
      · simpa using directory
      · simp [found, hollow, Forest.at?_empty] at present

theorem isDirectory_iff {tree : Tree} {location : Location} :
    tree.isDirectory location = true ↔
      ∃ node, tree.node? location = some node ∧ node.isDirectory = true := by
  simp [isDirectory, Option.any_eq_true]

/-! ## Changes -/

theorem isSound_set {tree : Tree} {name : Name} {above : Location} {node : Node}
    (fits : tree.Fits (name :: above) node) :
    (tree.forest.set node (name :: above).reverse).IsSound := by
  refine Forest.isSound_set tree.sound ?_ ?_
  · rw [List.reverse_cons, List.dropLast_concat]
    cases above with
    | nil => exact Or.inl rfl
    | cons other rest =>
        right
        have inside := fits.1.resolve_left (by simp)
        rwa [List.tail_cons, isDirectory, node?_eq tree (by simp)] at inside
  · rcases fits.2 with directory | ⟨_, childless⟩
    · exact Or.inl directory
    · refine Or.inr fun _ inner found => Forest.eq_empty_of_children ?_
      simp only [entriesOf, at?, found] at childless
      exact childless

/-- The tree with a node at a location, or the same tree when there is no room for it. -/
def set (tree : Tree) : Location → Node → Tree
  | [], node =>
      if directory : node.isDirectory = true then { tree with top := node, rooted := directory }
      else tree
  | name :: above, node =>
      if fits : tree.Fits (name :: above) node then
        { tree with
          forest := tree.forest.set node (name :: above).reverse
          sound := isSound_set fits }
      else tree

/-- The tree without the node at a location and everything below it. The top stays. -/
def remove (tree : Tree) (location : Location) : Tree :=
  { tree with
    forest := tree.forest.remove location.reverse
    sound := Forest.isSound_remove tree.sound _ }

theorem node?_set {tree : Tree} {location : Location} {node : Node}
    (fits : tree.Fits location node) (key : Location) :
    (tree.set location node).node? key = if key = location then some node else tree.node? key := by
  cases location with
  | nil =>
      have directory : node.isDirectory = true := fits.2.resolve_right fun absurd => absurd.1 rfl
      simp only [set, directory, dite_true]
      cases key with
      | nil => rfl
      | cons _ _ => simp [node?_eq]
  | cons name above =>
      have room : above.reverse = [] ∨ (tree.forest.node? above.reverse).isSome := by
        cases above with
        | nil => exact Or.inl rfl
        | cons other rest =>
            right
            obtain ⟨_, found, _⟩ := isDirectory_iff.mp (fits.1.resolve_left (by simp))
            rw [List.tail_cons, node?_eq tree (by simp)] at found
            rw [found]
            rfl
      simp only [set, fits, dite_true]
      cases key with
      | nil => simp [node?_nil]
      | cons other rest =>
          rw [node?_eq _ (by simp), node?_eq _ (by simp),
            Forest.node?_set node (by simp) (by simpa using room)]
          simp only [List.reverse_inj]

theorem node?_remove {tree : Tree} {location : Location} (inner : location ≠ [])
    (key : Location) :
    (tree.remove location).node? key = if location <:+ key then none else tree.node? key := by
  cases key with
  | nil => simp [inner, node?_nil, remove]
  | cons name above =>
      rw [node?_eq _ (by simp), node?_eq _ (by simp), remove,
        Forest.node?_remove tree.sound (by simpa using inner)]
      simp only [List.reverse_prefix]

/-- The tree of one empty directory. -/
def empty (mode : Nat) (time : Timestamp) : Tree where
  top := .directory mode time
  forest := .empty
  rooted := rfl
  sound := trivial

end Tree

end MessageTables
