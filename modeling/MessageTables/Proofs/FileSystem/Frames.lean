import MessageTables.Proofs.FileSystem.Descents
import MessageTables.Proofs.FileSystem.Writing

/-!
# What replacing a file does not touch

Along a path of names, in a tree without links, replacing a file touches the
output and the directories above it, and when it fails only these directories.
Everything else stays as it is, with all times.
-/

namespace MessageTables.TreeAction

variable {before after : Tree} {anchor : Anchor} {chain key : Location} {text : Text}
  {mode : Nat} {draw : Draw} {time : Timestamp}

variable (anchor mode time) in
theorem beside_change_ensureDirectory (linkFree : before.LinkFree) (outside : ¬ key <:+ chain) :
    (treeAfter (change [.plain anchor chain]
      (·.ensureDirectory (.plain anchor chain) mode time)) before).node? key =
        before.node? key := by
  cases made : before.ensureDirectory (.plain anchor chain) mode time with
  | ok after =>
      rw [treeAfter_of_ok (change_of_ok made)]
      exact (Tree.fills_of_ensureDirectory linkFree made).1.beside key outside
  | error error => rw [treeAfter_of_error (change_of_error made)]

variable (anchor mode time) in
theorem beside_makeDirectories (linkFree : before.LinkFree) (outside : ¬ key <:+ chain) :
    (treeAfter (makeDirectories anchor mode time (chain.map Name.part)) before).node? key =
      before.node? key := by
  induction chain generalizing before with
  | nil =>
      have top : makeDirectories anchor mode time [] =
          change [.plain anchor []] (·.ensureDirectory (.plain anchor []) mode time) := rfl
      rw [List.map_nil, top]
      exact beside_change_ensureDirectory anchor mode time linkFree outside
  | cons name above ih =>
      have higher : ¬ key <:+ above := fun within =>
        outside (within.trans (List.suffix_cons name above))
      rcases makeDirectories_plain_cases anchor mode time name above before with
        ⟨after, made, done⟩ | ⟨error, _, _, failed⟩ | ⟨_, again⟩
      · rw [treeAfter_of_ok done]
        exact (Tree.fills_of_ensureDirectory linkFree made).1.beside key outside
      · rw [treeAfter_of_error failed]
      · have first := ih linkFree higher
        cases outer : makeDirectories anchor mode time (above.map Name.part) before with
        | error error middle =>
            rw [bind_of_error outer] at again
            rw [treeAfter_of_error outer] at first
            rw [treeAfter_of_error again, first]
        | ok _ middle =>
            rw [bind_of_ok outer] at again
            rw [treeAfter_of_ok outer] at first
            have middleFree := (fills_of_makeDirectories linkFree outer).1.linkFree linkFree
            rw [← first, treeAfter, again]
            exact beside_change_ensureDirectory anchor mode time middleFree outside

/-- A file that is not replaced leaves all but the directories above it as they were. -/
theorem beside_of_replaceFile_error {part : Part} {mishap : Mishap}
    (linkFree : before.LinkFree)
    (failed : replaceFile ((Path.plain anchor chain).child part) text mode draw time before =
      .error mishap after)
    (outside : ¬ key <:+ chain) : after.node? key = before.node? key := by
  have chained : ((Path.plain anchor chain).child part).parent.parts.reverse =
      chain.map Name.part := by
    rw [Path.parent_child, Path.plain, List.reverse_reverse]
  have beside := beside_makeDirectories anchor mode time linkFree outside
  cases directories : makeDirectories anchor mode time (chain.map Name.part) before with
  | error cause made =>
      rw [treeAfter_of_error directories] at beside
      rw [← chained] at directories
      rw [replaceFile_of_error directories] at failed
      cases failed
      exact beside
  | ok _ made =>
      have madeFree := (fills_of_makeDirectories linkFree directories).1.linkFree linkFree
      rw [treeAfter_of_ok directories] at beside
      rw [← chained] at directories
      have ending : Ending ((Path.plain anchor chain).child part) text time made
          (replaceFile ((Path.plain anchor chain).child part) text mode draw time before) :=
        ending_of_makeDirectories text draw directories
      rw [failed] at ending
      rcases ending.error_cases with rfl | ⟨filled, token, location, _, _, holds, removed⟩
      · exact beside
      · have found := holds.found
        rw [Path.temporary_eq_child, Path.parent_child, (Path.descends_plain _ _).absolute_eq]
          at found
        rcases Tree.exists_name_of_entryLocation? madeFree found with ⟨name, _, rfl⟩
        rw [removed, ← beside]
        apply holds.node?_removed time
        rintro rfl
        exact outside (List.suffix_refl _)

end MessageTables.TreeAction
