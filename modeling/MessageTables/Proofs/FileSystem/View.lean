import Mathlib
import MessageTables.FileSystem.Access

/-!
# What lasts when entries change

Adding and removing entries changes the time of the directory they are in. Apart
from such times, a tree is known from its view: what stands at each location,
the times of directories taken away. Every question that a walk asks is answered
by the view, so the effect of an operation is stated as a change of the view.

One tree is kept in another when everything in its view is in the other's view.
-/

namespace MessageTables

namespace Node

/-- A node without the time at which the entries of a directory last changed. -/
def lasting : Node → Node
  | directory mode _ => directory mode ⟨0, 0⟩
  | node => node

theorem isDirectory_lasting (node : Node) : node.lasting.isDirectory = node.isDirectory := by
  cases node <;> rfl

theorem mode_lasting (node : Node) : node.lasting.mode = node.mode := by
  cases node <;> rfl

theorem grants_lasting (node : Node) (right : Right) :
    node.lasting.grants right = node.grants right := by
  rw [grants, mode_lasting, grants]

theorem isDirectory_eq_false_of_isFile {node : Node} (isFile : node.isFile = true) :
    node.isDirectory = false := by
  cases node with
  | directory mode time => cases isFile
  | file bytes mode time => rfl
  | link target => rfl

theorem lasting_eq_self {node : Node} (noDirectory : node.isDirectory = false) :
    node.lasting = node := by
  cases node with
  | directory mode time => cases noDirectory
  | file bytes mode time => rfl
  | link target => rfl

theorem eq_of_lasting_eq {node other : Node} (noDirectory : other.isDirectory = false)
    (same : node.lasting = other) : node = other := by
  have plain : node.isDirectory = false := by rw [← isDirectory_lasting, same, noDirectory]
  rw [← same, lasting_eq_self plain]

/-- A node with the time of a directory replaced. -/
def stamped (time : Timestamp) : Node → Node
  | directory mode _ => directory mode time
  | node => node

theorem lasting_stamped (node : Node) (time : Timestamp) :
    (node.stamped time).lasting = node.lasting := by
  cases node <;> rfl

end Node

namespace Tree

/-- What stands at a location, without the time of a directory. -/
def view (tree : Tree) (location : Location) : Option Node :=
  (tree.node? location).map Node.lasting

theorem view_eq_none_iff {tree : Tree} {location : Location} :
    tree.view location = none ↔ tree.node? location = none := by
  simp [view]

theorem view_of_node? {tree : Tree} {location : Location} {node : Node}
    (found : tree.node? location = some node) : tree.view location = some node.lasting := by
  rw [view, found, Option.map_some]

theorem isSome_view (tree : Tree) (location : Location) :
    (tree.view location).isSome = (tree.node? location).isSome :=
  Option.isSome_map ..

theorem isDirectory_eq_of_node? {tree : Tree} {location : Location} {node : Node}
    (found : tree.node? location = some node) : tree.isDirectory location = node.isDirectory := by
  rw [isDirectory, found, Option.any_some]

theorem isDirectory_nil (tree : Tree) : tree.isDirectory [] = true :=
  isDirectory_iff.mpr ⟨tree.top, rfl, tree.rooted⟩

theorem node?_eq_some_iff_view {tree : Tree} {location : Location} {node : Node}
    (noDirectory : node.isDirectory = false) :
    tree.node? location = some node ↔ tree.view location = some node := by
  constructor
  · intro found
    rw [view_of_node? found, Node.lasting_eq_self noDirectory]
  · intro seen
    rcases Option.map_eq_some_iff.mp seen with ⟨other, found, same⟩
    rw [found, Node.eq_of_lasting_eq noDirectory same]

theorem isDirectory_eq_view (tree : Tree) (location : Location) :
    tree.isDirectory location = (tree.view location).any Node.isDirectory := by
  rw [isDirectory, view]
  cases tree.node? location with
  | none => rfl
  | some node => exact (Node.isDirectory_lasting node).symm

theorem grants_eq_view (tree : Tree) (location : Location) (right : Right) :
    tree.grants location right = (tree.view location).any (·.grants right) := by
  rw [grants, view]
  cases tree.node? location with
  | none => rfl
  | some node => exact (Node.grants_lasting node right).symm

theorem exists_directory_of_view {tree : Tree} {location : Location} {mode : Nat}
    (seen : tree.view location = some (.directory mode ⟨0, 0⟩)) :
    ∃ time, tree.node? location = some (.directory mode time) := by
  rcases Option.map_eq_some_iff.mp seen with ⟨node, found, same⟩
  cases node with
  | directory other time =>
      cases same
      exact ⟨time, found⟩
  | file bytes other time => cases same
  | link target => cases same

/-- Everything in the view of a tree is in the view of another. -/
def KeptIn (before after : Tree) : Prop :=
  ∀ location node, before.view location = some node → after.view location = some node

theorem KeptIn.refl (tree : Tree) : tree.KeptIn tree :=
  fun _ _ seen => seen

theorem KeptIn.trans {before middle after : Tree} (first : before.KeptIn middle)
    (second : middle.KeptIn after) : before.KeptIn after :=
  fun location node seen => second location node (first location node seen)

theorem keptIn_of_view_eq {before after : Tree} (same : after.view = before.view) :
    before.KeptIn after := by
  intro location node seen
  rw [same, seen]

theorem KeptIn.isDirectory {before after : Tree} (kept : before.KeptIn after)
    {location : Location} (directory : before.isDirectory location = true) :
    after.isDirectory location = true := by
  rw [isDirectory_eq_view] at directory ⊢
  rcases Option.any_eq_true _ _ |>.mp directory with ⟨node, seen, isDirectory⟩
  rw [kept location node seen]
  exact isDirectory

theorem KeptIn.grants {before after : Tree} (kept : before.KeptIn after)
    {location : Location} {right : Right} (granted : before.grants location right = true) :
    after.grants location right = true := by
  rw [grants_eq_view] at granted ⊢
  rcases Option.any_eq_true _ _ |>.mp granted with ⟨node, seen, grants⟩
  rw [kept location node seen]
  exact grants

/-! ## Changes of the view -/

theorem mem_entriesOf_isDirectory {tree : Tree} {location : Location} {name : Name} {node : Node}
    (inside : (name, node) ∈ tree.entriesOf location) : tree.isDirectory location = true := by
  have found : (tree.node? (name :: location)).isSome = true := by
    rw [mem_entriesOf.mp inside]
    rfl
  exact isDirectory_of_node? found

/-- Where no directory is, nothing is inside, so that anything may be put there. -/
theorem fits_of_not_isDirectory {tree : Tree} {name : Name} {parent : Location}
    (directory : tree.isDirectory parent = true)
    (noDirectory : tree.isDirectory (name :: parent) = false) (node : Node) :
    tree.Fits (name :: parent) node := by
  have hollow : (tree.entriesOf (name :: parent)).isEmpty = true := by
    rw [List.isEmpty_iff, List.eq_nil_iff_forall_not_mem]
    rintro ⟨child, held⟩ inside
    rw [mem_entriesOf_isDirectory inside] at noDirectory
    cases noDirectory
  exact ⟨Or.inr directory, Or.inr ⟨List.cons_ne_nil _ _, hollow⟩⟩

theorem isDirectory_eq_false_of_node?_eq_none {tree : Tree} {location : Location}
    (absent : tree.node? location = none) : tree.isDirectory location = false := by
  rw [isDirectory, absent]
  rfl

theorem node?_stamp (tree : Tree) (location : Location) (time : Timestamp) (key : Location) :
    (tree.stamp location time).node? key =
      if key = location then (tree.node? key).map (Node.stamped time) else tree.node? key := by
  unfold stamp
  split
  · rename_i mode old found
    have fits : tree.Fits location (.directory mode time) := by
      refine ⟨?_, Or.inl rfl⟩
      cases location with
      | nil => exact Or.inl rfl
      | cons name above =>
          have inside : (tree.node? (name :: above)).isSome = true := by
            rw [found]
            rfl
          exact Or.inr (isDirectory_of_node? inside)
    rw [node?_set fits]
    split
    · rename_i same
      rw [same, found]
      rfl
    · rfl
  · rename_i noDirectory
    split
    · rename_i same
      rw [same]
      cases found : tree.node? location with
      | none => rfl
      | some node =>
          cases node with
          | directory mode old => exact absurd found (noDirectory mode old)
          | file bytes mode old => rfl
          | link target => rfl
    · rfl

theorem view_stamp (tree : Tree) (location : Location) (time : Timestamp) :
    (tree.stamp location time).view = tree.view := by
  funext key
  rw [view, node?_stamp, view]
  split
  · cases tree.node? key with
    | none => rfl
    | some node => exact congrArg some (node.lasting_stamped time)
  · rfl

theorem view_set {tree : Tree} {location : Location} {node : Node}
    (fits : tree.Fits location node) (key : Location) :
    (tree.set location node).view key =
      if key = location then some node.lasting else tree.view key := by
  rw [view, node?_set fits, view]
  split <;> rfl

theorem view_addEntry {tree : Tree} {location : Location} {node : Node}
    (fits : tree.Fits location node) (time : Timestamp) (key : Location) :
    (tree.addEntry location node time).view key =
      if key = location then some node.lasting else tree.view key := by
  rw [addEntry, view_stamp, view_set fits]

theorem view_removeEntry {tree : Tree} {location : Location} (inner : location ≠ [])
    (time : Timestamp) (key : Location) :
    (tree.removeEntry location time).view key =
      if location <:+ key then none else tree.view key := by
  rw [removeEntry, view_stamp, view, node?_remove inner, view]
  split <;> rfl

theorem node?_addEntry {tree : Tree} {location : Location} {node : Node}
    (fits : tree.Fits location node) (time : Timestamp) {key : Location}
    (outside : key ≠ location.tail) :
    (tree.addEntry location node time).node? key =
      if key = location then some node else tree.node? key := by
  rw [addEntry, node?_stamp, if_neg outside, node?_set fits]

theorem node?_removeEntry {tree : Tree} {location : Location} (inner : location ≠ [])
    (time : Timestamp) {key : Location} (outside : key ≠ location.tail) :
    (tree.removeEntry location time).node? key =
      if location <:+ key then none else tree.node? key := by
  rw [removeEntry, node?_stamp, if_neg outside, node?_remove inner]

theorem tail_ne_self {location : Location} (inner : location ≠ []) : location ≠ location.tail := by
  intro same
  have shorter := congrArg List.length same
  rw [List.length_tail] at shorter
  have positive := List.length_pos_iff.mpr inner
  omega

theorem not_cons_suffix (name : Name) (above : Location) : ¬ name :: above <:+ above := by
  intro within
  have lengths := within.length_le
  rw [List.length_cons] at lengths
  omega

theorem ne_cons_of_suffix {key above : Location} (name : Name) (within : key <:+ above) :
    key ≠ name :: above := by
  rintro rfl
  exact not_cons_suffix name above within

/-- Only a directory has something below it. -/
theorem view_eq_none_of_suffix {tree : Tree} {location key : Location}
    (noDirectory : tree.isDirectory location = false) (below : location <:+ key)
    (differs : key ≠ location) : tree.view key = none := by
  rcases below with ⟨names, rfl⟩
  induction names with
  | nil => exact absurd rfl differs
  | cons name names ih =>
      rw [view_eq_none_iff, ← Option.not_isSome_iff_eq_none]
      intro present
      have directory : tree.isDirectory (names ++ location) = true :=
        isDirectory_of_node? present
      by_cases last : names ++ location = location
      · rw [last, noDirectory] at directory
        cases directory
      · have absent := view_eq_none_iff.mp (ih last)
        rw [isDirectory_eq_false_of_node?_eq_none absent] at directory
        cases directory

end Tree

end MessageTables
