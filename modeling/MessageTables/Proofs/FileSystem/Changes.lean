import MessageTables.Proofs.FileSystem.Resolution

/-!
# What changes of entries do

When each operation on entries succeeds and what it then does, stated in the
locations of the entries. The lemmas on success are equivalences where a failure
has to be told apart, so that what an operation did can be read off its success.

A file that stands where a path's entry is can be written and given permissions
through that path, since the path leads to it.
-/

namespace MessageTables.Tree

variable {tree after : Tree} {location : Location}

theorem entryNamed_eq_ok_iff {parent : Location} {text : Text} {node? : Option Node} :
    tree.entryNamed parent text = .ok (location, node?) ↔
      ∃ name, Name.ofText? text = some name ∧ location = name :: parent ∧
        tree.node? location = node? := by
  unfold entryNamed
  cases Name.ofText? text with
  | none => simp
  | some name =>
      simp only [Except.ok.injEq, Prod.mk.injEq, Option.some.injEq, exists_eq_left']
      constructor
      · rintro ⟨rfl, rfl⟩
        exact ⟨rfl, rfl⟩
      · rintro ⟨rfl, rfl⟩
        exact ⟨rfl, rfl⟩

theorem create_eq_ok_iff {path : Path} {node : Node} {time : Timestamp} :
    tree.create path node time = .ok after ↔
      ∃ location, tree.entryLocation? path = some location ∧ tree.node? location = none ∧
        tree.grants location.tail .write = true ∧ after = tree.addEntry location node time := by
  simp only [create, bind_eq_ok_iff, entryLocation?_eq_some_iff]
  constructor
  · rintro ⟨⟨parent, step⟩, entered, made⟩
    cases step with
    | enter text =>
        rcases bind_eq_ok_iff.mp made with ⟨⟨location, held⟩, fetched, made⟩
        rcases entryNamed_eq_ok_iff.mp fetched with ⟨name, named, rfl, there⟩
        cases held with
        | some held => cases made
        | none =>
            simp only at made
            split at made
            · rename_i granted
              cases made
              exact ⟨_, ⟨parent, text, name, entered, named, rfl⟩, there, granted, rfl⟩
            · cases made
    | arrive => cases made
    | stay => cases made
    | up => cases made
  · rintro ⟨_, ⟨parent, text, name, entered, named, rfl⟩, there, granted, rfl⟩
    refine ⟨_, entered, ?_⟩
    have held : tree.entryNamed parent text = .ok (name :: parent, none) :=
      entryNamed_eq_ok_iff.mpr ⟨name, named, rfl, there⟩
    simp only [held, bind, Except.bind]
    rw [List.tail_cons] at granted
    rw [if_pos granted]
    rfl

theorem fits_of_entryLocation? {path : Path} (found : tree.entryLocation? path = some location)
    (noDirectory : tree.isDirectory location = false) (node : Node) :
    tree.Fits location node := by
  cases location with
  | nil => exact absurd rfl (entryLocation?_ne_nil found)
  | cons name parent =>
      exact fits_of_not_isDirectory (isDirectory_of_entryLocation? found) noDirectory node

theorem view_of_create {path : Path} (found : tree.entryLocation? path = some location)
    (absent : tree.node? location = none) (node : Node) (time : Timestamp) (key : Location) :
    (tree.addEntry location node time).view key =
      if key = location then some node.lasting else tree.view key :=
  view_addEntry
    (fits_of_entryLocation? found (isDirectory_eq_false_of_node?_eq_none absent) node) time key

theorem keptIn_of_view_eq_update {node : Node} (absent : tree.node? location = none)
    (added : ∀ key, after.view key = if key = location then some node else tree.view key) :
    tree.KeptIn after := by
  intro key held seen
  rw [added, if_neg, seen]
  rintro rfl
  rw [view_eq_none_iff.mpr absent] at seen
  cases seen

section File

variable {path : Path} {old : ByteArray} {mode : Nat} {time : Timestamp}

theorem locate_file (found : tree.entryLocation? path = some location)
    (there : tree.node? location = some (.file old mode time)) :
    tree.locate path = .ok location :=
  locate_of_entryLocation? found ((node?_eq_some_iff_view rfl).mp there) nofun

theorem write_file (found : tree.entryLocation? path = some location)
    (there : tree.node? location = some (.file old mode time))
    (granted : (Node.file old mode time).grants .write = true) (bytes : ByteArray)
    (newMode : Nat) (now : Timestamp) :
    tree.write path bytes newMode now = .ok (tree.set location (.file bytes mode now)) := by
  have placed : tree.place path = .ok (.node location) :=
    place_eq_ok_iff.mpr (locate_eq_ok_iff.mp (locate_file found there))
  have writable : tree.grants location .write = true := by
    rw [grants, there]
    exact granted
  simp only [write, placed, bind, Except.bind, there, writable, if_true]
  rfl

theorem changeMode_file (found : tree.entryLocation? path = some location)
    (there : tree.node? location = some (.file old mode time)) (newMode : Nat) :
    tree.changeMode path newMode = .ok (tree.set location (.file old newMode time)) := by
  simp only [changeMode, locate_file found there, bind, Except.bind, there]
  rfl

theorem unlink_file (found : tree.entryLocation? path = some location)
    (there : tree.node? location = some (.file old mode time))
    (granted : tree.grants location.tail .write = true) (now : Timestamp) :
    tree.unlink path now = .ok (tree.removeEntry location now) := by
  rcases entryLocation?_eq_some_iff.mp found with ⟨parent, text, name, entered, named, rfl⟩
  have held : tree.entryNamed parent text = .ok (name :: parent, some (.file old mode time)) :=
    entryNamed_eq_ok_iff.mpr ⟨name, named, rfl, there⟩
  rw [List.tail_cons] at granted
  simp only [unlink, entered, bind, Except.bind, held, granted, Bool.not_true, Node.isDirectory,
    Bool.false_eq_true, if_false]
  rfl

end File

theorem rename_eq_ok_iff {source target : Path} {time : Timestamp} :
    tree.rename source target time = .ok after ↔
      ∃ origin destination node,
        tree.entryLocation? source = some origin ∧ tree.node? origin = some node ∧
          tree.entryLocation? target = some destination ∧ tree.isDirectory destination = false ∧
          tree.grants origin.tail .write = true ∧ tree.grants destination.tail .write = true ∧
          after = (tree.removeEntry origin time).addEntry destination node time := by
  simp only [rename, bind_eq_ok_iff, entryLocation?_eq_some_iff]
  constructor
  · rintro ⟨⟨sourceParent, sourceStep⟩, sourceEntered, ⟨targetParent, targetStep⟩, targetEntered,
      moved⟩
    simp only at moved
    split at moved
    · rename_i sourceText targetText
      rcases bind_eq_ok_iff.mp moved with ⟨⟨origin, held⟩, sourceFetched, moved⟩
      rcases entryNamed_eq_ok_iff.mp sourceFetched with ⟨sourceName, sourceNamed, rfl, there⟩
      cases held with
      | none => cases moved
      | some node =>
          rcases bind_eq_ok_iff.mp moved with ⟨⟨destination, replaced⟩, targetFetched, moved⟩
          rcases entryNamed_eq_ok_iff.mp targetFetched with ⟨targetName, targetNamed, rfl, rfl⟩
          simp only at moved
          split at moved
          · cases moved
          split at moved
          · cases moved
          · rename_i granted noDirectory
            cases moved
            simp only [Bool.not_eq_true, Bool.not_eq_false', Bool.and_eq_true] at granted
            exact ⟨_, _, node, ⟨_, _, _, sourceEntered, sourceNamed, rfl⟩, there,
              ⟨_, _, _, targetEntered, targetNamed, rfl⟩, by simpa [isDirectory] using noDirectory,
              granted.1, granted.2, rfl⟩
    · cases moved
  · rintro ⟨_, _, node, ⟨sourceParent, sourceText, sourceName, sourceEntered, sourceNamed, rfl⟩,
      there, ⟨targetParent, targetText, targetName, targetEntered, targetNamed, rfl⟩, noDirectory,
      sourceGranted, targetGranted, rfl⟩
    refine ⟨_, sourceEntered, _, targetEntered, ?_⟩
    have source : tree.entryNamed sourceParent sourceText =
        .ok (sourceName :: sourceParent, some node) :=
      entryNamed_eq_ok_iff.mpr ⟨sourceName, sourceNamed, rfl, there⟩
    have target : tree.entryNamed targetParent targetText =
        .ok (targetName :: targetParent, tree.node? (targetName :: targetParent)) :=
      entryNamed_eq_ok_iff.mpr ⟨targetName, targetNamed, rfl, rfl⟩
    rw [List.tail_cons] at sourceGranted targetGranted
    simp only [source, target, bind, Except.bind, sourceGranted, targetGranted, Bool.and_self,
      Bool.not_true, Bool.false_eq_true, if_false]
    rw [isDirectory] at noDirectory
    rw [noDirectory]
    rfl

end MessageTables.Tree
