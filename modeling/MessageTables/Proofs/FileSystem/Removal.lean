import MessageTables.Proofs.FileSystem.Carrying

/-!
# Removing files

Removing a file takes away one node that is no directory and nothing else, so every
path goes on to be about the same entry. That makes the files that can be removed
independent of the order in which they are: what could be removed before another
file went can be removed after it, unless it was that file.
-/

namespace MessageTables.Tree

variable {tree before middle after : Tree} {path : Path} {location : Location}
  {gone more : Location → Prop} {time : Timestamp}

/--
Whether a path is about an entry that can be removed: no directory, in a directory that may
be written to.
-/
structure Removable (tree : Tree) (path : Path) (location : Location) : Prop where
  found : tree.entryLocation? path = some location
  there : ∃ node, tree.node? location = some node ∧ node.isDirectory = false
  granted : tree.grants location.tail .write = true

/-- The location of what is removed in a directory by a last step. -/
def removalIn (tree : Tree) (parent : Location) : Step → Except AccessError Location
  | .enter text => do
      match ← tree.entryNamed parent text with
      | (_, none) => throw (.code .noEntry)
      | (location, some node) =>
          if !tree.grants parent .write then throw (.code .denied)
          else if node.isDirectory then throw (.code .isDirectory)
          else return location
  | _ => throw (.code .isDirectory)

/-- The location of what is removed at a path. -/
def removal (tree : Tree) (path : Path) : Except AccessError Location := do
  let (parent, step) ← tree.entry path
  tree.removalIn parent step

theorem removal_of_entry {parent : Location} {step : Step}
    (entered : tree.entry path = .ok (parent, step)) :
    tree.removal path = tree.removalIn parent step := by
  rw [removal, entered]
  rfl

theorem removal_of_entry_error {error : AccessError} (refused : tree.entry path = .error error) :
    tree.removal path = .error error := by
  rw [removal, refused]
  rfl

/-- What is removed does not depend on the time. -/
theorem unlink_eq (tree : Tree) (path : Path) (time : Timestamp) :
    tree.unlink path time = (tree.removal path).map (tree.removeEntry · time) := by
  rw [unlink, removal]
  cases tree.entry path with
  | error error => rfl
  | ok entered =>
      rcases entered with ⟨parent, step⟩
      cases step with
      | enter text =>
          simp only [removalIn, bind, Except.bind]
          cases tree.entryNamed parent text with
          | error error => rfl
          | ok fetched =>
              rcases fetched with ⟨location, held⟩
              cases held with
              | none => rfl
              | some node =>
                  simp only
                  split
                  · rfl
                  split <;> rfl
      | arrive => rfl
      | stay => rfl
      | up => rfl

theorem removalIn_of_unnamed {text : Text} (unnamed : Name.ofText? text = none)
    (parent : Location) : tree.removalIn parent (.enter text) = .error (.code .nameTooLong) := by
  rw [removalIn, entryNamed, unnamed]
  rfl

theorem removalIn_enter {name : Name} {text : Text} (named : Name.ofText? text = some name)
    (parent : Location) :
    tree.removalIn parent (.enter text) =
      match tree.node? (name :: parent) with
      | none => .error (.code .noEntry)
      | some node =>
          if !tree.grants parent .write then .error (.code .denied)
          else if node.isDirectory then .error (.code .isDirectory)
          else .ok (name :: parent) := by
  rw [removalIn, entryNamed, named]
  simp only [bind, Except.bind]
  cases tree.node? (name :: parent) with
  | none => rfl
  | some node => rfl

theorem removalIn_enter_eq_ok_iff {parent : Location} {text : Text} :
    tree.removalIn parent (.enter text) = .ok location ↔
      ∃ name node, Name.ofText? text = some name ∧ location = name :: parent ∧
        tree.node? location = some node ∧ node.isDirectory = false ∧
        tree.grants parent .write = true := by
  constructor
  · intro removed
    cases named : Name.ofText? text with
    | none =>
        rw [removalIn_of_unnamed named] at removed
        cases removed
    | some name =>
        rw [removalIn_enter named] at removed
        cases there : tree.node? (name :: parent) with
        | none =>
            rw [there] at removed
            cases removed
        | some node =>
            simp only [there] at removed
            split at removed
            · cases removed
            split at removed
            · cases removed
            · rename_i granted noDirectory
              cases removed
              exact ⟨name, node, rfl, rfl, there, by simpa using noDirectory,
                by simpa using granted⟩
  · rintro ⟨name, node, named, rfl, there, noDirectory, granted⟩
    simp only [removalIn_enter named, there, granted, noDirectory, Bool.not_true,
      Bool.false_eq_true, if_false]

theorem removal_eq_ok_iff : tree.removal path = .ok location ↔ tree.Removable path location := by
  constructor
  · intro removed
    rcases bind_eq_ok_iff.mp removed with ⟨⟨parent, step⟩, entered, removed⟩
    cases step with
    | enter text =>
        rcases removalIn_enter_eq_ok_iff.mp removed with
          ⟨name, node, named, rfl, there, noDirectory, granted⟩
        have found := entryLocation?_eq_some_iff.mpr ⟨parent, text, name, entered, named, rfl⟩
        exact ⟨found, ⟨node, there, noDirectory⟩, granted⟩
    | arrive => cases removed
    | stay => cases removed
    | up => cases removed
  · rintro ⟨found, ⟨node, there, noDirectory⟩, granted⟩
    rcases entryLocation?_eq_some_iff.mp found with ⟨parent, text, name, entered, named, rfl⟩
    rw [removal_of_entry entered, removalIn_enter_eq_ok_iff]
    exact ⟨name, node, named, rfl, there, noDirectory, granted⟩

/-- Whether something is removed at a path. -/
def isRemovable (tree : Tree) (path : Path) : Bool :=
  (tree.removal path).isOk

theorem isRemovable_iff :
    tree.isRemovable path = true ↔ ∃ location, tree.Removable path location := by
  simp only [← removal_eq_ok_iff]
  rw [isRemovable]
  cases tree.removal path with
  | ok location => exact iff_of_true rfl ⟨location, rfl⟩
  | error error => exact iff_of_false Bool.false_ne_true (by rintro ⟨_, ⟨⟩⟩)

theorem unlink_eq_ok_iff :
    tree.unlink path time = .ok after ↔
      ∃ location, tree.Removable path location ∧ after = tree.removeEntry location time := by
  rw [unlink_eq]
  constructor
  · intro removed
    cases asked : tree.removal path with
    | error error =>
        rw [asked] at removed
        cases removed
    | ok location =>
        rw [asked] at removed
        cases removed
        exact ⟨location, removal_eq_ok_iff.mp asked, rfl⟩
  · rintro ⟨location, removable, rfl⟩
    rw [removal_eq_ok_iff.mpr removable]
    rfl

/-- What is left of a tree when some files are gone. -/
structure Clears (before after : Tree) (gone : Location → Prop) : Prop where
  files : ∀ location, gone location → before.isDirectory location = false
  removed : ∀ location, gone location → after.node? location = none
  kept : ∀ location, ¬ gone location → after.view location = before.view location

theorem clears_removeEntry (removable : tree.Removable path location) (time : Timestamp) :
    tree.Clears (tree.removeEntry location time) (· = location) := by
  rcases removable.there with ⟨node, there, noDirectory⟩
  have inner := entryLocation?_ne_nil removable.found
  have isFile : tree.isDirectory location = false := by
    rw [isDirectory_eq_of_node? there, noDirectory]
  have view (key : Location) : (tree.removeEntry location time).view key =
      if location <:+ key then none else tree.view key := view_removeEntry inner time key
  refine ⟨?_, ?_, ?_⟩
  · rintro _ rfl
    exact isFile
  · rintro key rfl
    rw [← view_eq_none_iff, view, if_pos (List.suffix_refl key)]
  · intro key differs
    rw [view]
    split
    · rename_i below
      rw [view_eq_none_of_suffix isFile below differs]
    · rfl

/-- Whether, but for files that are gone, only the times of their directories differ. -/
def KeepsOthers (before after : Tree) (gone : Location → Prop) : Prop :=
  ∀ location, ¬ gone location → (∀ name, ¬ gone (name :: location)) →
    after.node? location = before.node? location

theorem keepsOthers_removeEntry (removable : tree.Removable path location) (time : Timestamp) :
    tree.KeepsOthers (tree.removeEntry location time) (· = location) := by
  rcases removable.there with ⟨node, there, noDirectory⟩
  rcases List.exists_cons_of_ne_nil (entryLocation?_ne_nil removable.found) with ⟨name, above, rfl⟩
  intro key differs unlisted
  have outside : key ≠ (name :: above).tail := by
    rintro rfl
    exact unlisted name rfl
  rw [node?_removeEntry (List.cons_ne_nil name above) time outside]
  split
  · rename_i below
    have isFile : tree.isDirectory (name :: above) = false := by
      rw [isDirectory_eq_of_node? there, noDirectory]
    exact (view_eq_none_iff.mp (view_eq_none_of_suffix isFile below differs)).symm
  · rfl

namespace KeepsOthers

theorem trans (first : before.KeepsOthers middle gone) (second : middle.KeepsOthers after more) :
    before.KeepsOthers after fun location => gone location ∨ more location := by
  intro location apart unlisted
  rw [second location (fun late => apart (Or.inr late))
      fun name late => unlisted name (Or.inr late),
    first location (fun early => apart (Or.inl early))
      fun name early => unlisted name (Or.inl early)]

theorem weaken (keeps : before.KeepsOthers after gone)
    (wider : ∀ location, gone location → more location) : before.KeepsOthers after more :=
  fun location apart unlisted => keeps location (fun early => apart (wider location early))
    fun name early => unlisted name (wider (name :: location) early)

end KeepsOthers

namespace Clears

theorem refl (tree : Tree) : tree.Clears tree fun _ => False :=
  ⟨fun _ => False.elim, fun _ => False.elim, fun _ _ => rfl⟩

theorem congr (clears : before.Clears after gone)
    (same : ∀ location, more location ↔ gone location) : before.Clears after more := by
  refine ⟨?_, ?_, ?_⟩
  · exact fun location absent => clears.files location ((same location).mp absent)
  · exact fun location absent => clears.removed location ((same location).mp absent)
  · exact fun location kept => clears.kept location fun absent => kept ((same location).mpr absent)

/-- Nothing is gone from a tree that is left as it is. -/
theorem of_none (nothing : ∀ location, ¬ gone location) : before.Clears before gone :=
  (refl before).congr fun location => iff_of_false (nothing location) id

/-- What is there and no directory was there before, and has been left. -/
theorem found_iff (clears : before.Clears after gone) {node : Node}
    (noDirectory : node.isDirectory = false) :
    after.node? location = some node ↔ before.node? location = some node ∧ ¬ gone location := by
  by_cases absent : gone location
  · rw [clears.removed location absent]
    simp [absent]
  · rw [node?_eq_some_iff_view noDirectory, node?_eq_some_iff_view noDirectory,
      clears.kept location absent, and_iff_left absent]

theorem keptIn (clears : before.Clears after gone) : after.KeptIn before := by
  intro location node seen
  by_cases absent : gone location
  · rw [view_eq_none_iff.mpr (clears.removed location absent)] at seen
    cases seen
  · rwa [← clears.kept location absent]

theorem carries (clears : before.Clears after gone) (linkFree : before.LinkFree) :
    before.Carries after gone := by
  refine ⟨?_, ?_, ?_⟩
  · intro location node directory seen
    rw [clears.kept location, seen]
    intro absent
    have isFile := clears.files location absent
    rw [isDirectory_eq_view, seen, Option.any_some, directory] at isFile
    cases isFile
  · intro location node kept seen
    rw [clears.kept location kept, seen]
  · rw [linkFree_iff_view] at linkFree ⊢
    intro location node seen
    exact linkFree location node (clears.keptIn location node seen)

theorem trans (first : before.Clears middle gone) (second : middle.Clears after more) :
    before.Clears after fun location => gone location ∨ more location := by
  refine ⟨?_, ?_, ?_⟩
  · rintro location (early | late)
    · exact first.files location early
    · by_cases early : gone location
      · exact first.files location early
      · rw [isDirectory_eq_view, ← first.kept location early, ← isDirectory_eq_view]
        exact second.files location late
  · rintro location (early | late)
    · by_cases late : more location
      · exact second.removed location late
      · rw [← view_eq_none_iff, second.kept location late, view_eq_none_iff]
        exact first.removed location early
    · exact second.removed location late
  · intro location kept
    rw [second.kept location fun late => kept (Or.inr late),
      first.kept location fun early => kept (Or.inl early)]

/-- What can be removed now could be removed before, and has not been. -/
theorem removable_iff (clears : before.Clears after gone) (linkFree : before.LinkFree) :
    after.Removable path location ↔ before.Removable path location ∧ ¬ gone location := by
  have carries := clears.carries linkFree
  constructor
  · rintro ⟨found, ⟨node, there, noDirectory⟩, granted⟩
    have kept : ¬ gone location := by
      intro absent
      rw [clears.removed location absent] at there
      cases there
    refine ⟨⟨clears.keptIn.entryLocation? found, ⟨node, ?_, noDirectory⟩,
      clears.keptIn.grants granted⟩, kept⟩
    rw [node?_eq_some_iff_view noDirectory] at there ⊢
    exact clears.keptIn location node there
  · rintro ⟨⟨found, ⟨node, there, noDirectory⟩, granted⟩, kept⟩
    refine ⟨carries.entryLocation? linkFree found, ⟨node, ?_, noDirectory⟩, ?_⟩
    · rw [node?_eq_some_iff_view noDirectory] at there ⊢
      exact carries.others location node kept there
    · rcases List.exists_cons_of_ne_nil (entryLocation?_ne_nil found) with ⟨name, above, rfl⟩
      exact carries.grants (isDirectory_of_entryLocation? found) granted

end Clears

end MessageTables.Tree
