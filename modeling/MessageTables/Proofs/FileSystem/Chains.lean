import MessageTables.Proofs.FileSystem.Directories
import MessageTables.Proofs.FileSystem.PlainWalks

/-!
# Making a chain of directories

Along a path of names, in a tree without links, making directories fills the
chain of locations above the last one: what is missing becomes a directory with
the given permissions, and nothing else changes. It succeeds exactly if nothing
on the chain is anything but a directory, as long as permissions allow it.
-/

namespace MessageTables

namespace Tree

/-- A tree with directories at all locations of a chain where nothing was before. -/
structure Fills (before after : Tree) (mode : Nat) (chain : Location) : Prop where
  view : ∀ key, after.view key =
    if key <:+ chain ∧ before.view key = none then some (.directory mode ⟨0, 0⟩)
    else before.view key
  beside : ∀ key, ¬ key <:+ chain → after.node? key = before.node? key

variable {before middle after : Tree} {mode : Nat} {time : Timestamp} {anchor : Anchor}
  {chain : Location}

theorem fills_of_isDirectory {tree : Tree} (directory : tree.isDirectory chain = true)
    (mode : Nat) : tree.Fills tree mode chain := by
  refine ⟨?_, fun _ _ => rfl⟩
  intro key
  rw [if_neg]
  rintro ⟨within, absent⟩
  by_cases last : key = chain
  · rw [isDirectory_eq_view, ← last, absent] at directory
    cases directory
  · have above := isDirectory_of_below (isSome_of_isDirectory directory) within last
    rw [isDirectory_eq_view, absent] at above
    cases above

theorem fills_of_addEntry {tree : Tree} {path : Path} {name : Name} {above : Location}
    (found : tree.entryLocation? path = some (name :: above))
    (absent : tree.node? (name :: above) = none) (mode : Nat) (time : Timestamp) :
    tree.Fills (tree.addEntry (name :: above) (.directory mode time) time) mode
      (name :: above) := by
  have directory := isDirectory_of_entryLocation? found
  have fits := fits_of_entryLocation? found (isDirectory_eq_false_of_node?_eq_none absent)
    (.directory mode time)
  refine ⟨?_, ?_⟩
  · intro key
    rw [view_of_create found absent]
    by_cases last : key = name :: above
    · subst last
      rw [if_pos rfl, if_pos ⟨List.suffix_refl _, view_eq_none_iff.mpr absent⟩]
      rfl
    · rw [if_neg last, if_neg]
      rintro ⟨within, missing⟩
      have filled := (fills_of_isDirectory directory mode).view key
      rcases List.suffix_cons_iff.mp within with same | further
      · exact last same
      · rw [if_pos ⟨further, missing⟩, missing] at filled
        cases filled
  · intro key outside
    rw [node?_addEntry fits time, if_neg]
    · rintro rfl
      exact outside (List.suffix_refl _)
    · rintro rfl
      exact outside (List.suffix_cons name _)

namespace Fills

theorem trans {shorter : Location} (first : before.Fills middle mode shorter)
    (second : middle.Fills after mode chain) (within : shorter <:+ chain) :
    before.Fills after mode chain := by
  refine ⟨?_, ?_⟩
  · intro key
    rw [second.view, first.view]
    by_cases inside : key <:+ shorter
    · by_cases absent : before.view key = none
      · simp [inside, inside.trans within, absent]
      · simp [absent]
    · simp [inside]
  · intro key outside
    rw [second.beside key outside, first.beside key fun inside => outside (inside.trans within)]

theorem kept (fills : before.Fills after mode chain) : before.KeptIn after := by
  intro key node seen
  rw [fills.view, if_neg, seen]
  rintro ⟨_, absent⟩
  rw [absent] at seen
  cases seen

/-- Whatever is there afterwards was there before or is a directory with the given permissions. -/
theorem view_cases (fills : before.Fills after mode chain) {key : Location} {node : Node}
    (seen : after.view key = some node) :
    node = .directory mode ⟨0, 0⟩ ∨ before.view key = some node := by
  rw [fills.view] at seen
  split at seen
  · cases seen
    exact Or.inl rfl
  · exact Or.inr seen

theorem linkFree (fills : before.Fills after mode chain) (linkFree : before.LinkFree) :
    after.LinkFree := by
  rw [linkFree_iff_view] at linkFree ⊢
  intro location node seen
  rcases fills.view_cases seen with rfl | old
  · rfl
  · exact linkFree location node old

/-- On the chain there was nothing that is no directory. -/
theorem isDirectory_of_suffix (fills : before.Fills after mode chain)
    (directory : after.isDirectory chain = true) {key : Location} {node : Node}
    (within : key <:+ chain) (found : before.node? key = some node) :
    node.isDirectory = true := by
  have seen : before.view key = some node.lasting := by rw [Tree.view, found, Option.map_some]
  have above : after.isDirectory key = true := by
    by_cases last : key = chain
    · rw [last, directory]
    · exact isDirectory_of_below (isSome_of_isDirectory directory) within last
  rw [isDirectory_eq_view, fills.kept key _ seen] at above
  rwa [← Node.isDirectory_lasting]

theorem chained (fills : before.Fills after mode chain) {longer : Location}
    (chained : ∀ key node, key <:+ longer → before.node? key = some node →
      node.isDirectory = true) (key : Location) (node : Node) (within : key <:+ longer)
    (found : after.node? key = some node) : node.isDirectory = true := by
  have seen : after.view key = some node.lasting := by rw [Tree.view, found, Option.map_some]
  rw [← Node.isDirectory_lasting]
  rcases fills.view_cases seen with new | old
  · rw [new]
    rfl
  · rcases Option.map_eq_some_iff.mp old with ⟨other, there, same⟩
    rw [← same, Node.isDirectory_lasting]
    exact chained key other within there

theorem permits (fills : before.Fills after mode chain) (permits : before.Permits)
    (writes : mode.testBit Right.write.bit = true) (enters : mode.testBit Right.enter.bit = true) :
    after.Permits := by
  rw [permits_iff_view] at permits ⊢
  intro location node seen
  rcases fills.view_cases seen with rfl | old
  · exact Bool.and_eq_true_iff.mpr ⟨enters, writes⟩
  · exact permits location node old

end Fills

/-! ## One directory -/

theorem fills_of_ensureDirectory {tree : Tree} (linkFree : tree.LinkFree)
    (made : tree.ensureDirectory (.plain anchor chain) mode time = .ok after) :
    tree.Fills after mode chain ∧ after.isDirectory chain = true := by
  rcases ensureDirectory_eq_ok made with ⟨rfl, location, located, directory⟩ | created
  · rw [eq_of_locate_plain linkFree located] at directory
    exact ⟨fills_of_isDirectory directory mode, directory⟩
  · rcases create_eq_ok_iff.mp created with ⟨location, found, absent, _, rfl⟩
    cases chain with
    | nil =>
        rcases entryLocation?_eq_some_iff.mp found with ⟨_, _, _, entered, _, _⟩
        have last := (entry_eq_ok_iff.mp entered).2.2.2.2
        cases last
    | cons name above =>
        have same := eq_of_entryLocation?_plain linkFree found
        subst same
        have fills := fills_of_addEntry found absent mode time
        refine ⟨fills, ?_⟩
        rw [isDirectory_eq_view, fills.view,
          if_pos ⟨List.suffix_refl _, view_eq_none_iff.mpr absent⟩]
        rfl

section Permitted

variable {tree : Tree} (linkFree : tree.LinkFree) (permits : tree.Permits)

include linkFree permits

theorem create_eq_alreadyExists {name : Name} {above : Location} {node : Node}
    (valid : checkPath (.plain anchor (name :: above)) = .ok ())
    (present : (tree.node? (name :: above)).isSome = true) :
    tree.create (.plain anchor (name :: above)) node time = .error (.code .alreadyExists) := by
  rcases Option.isSome_iff_exists.mp present with ⟨held, there⟩
  rw [Path.plain_cons] at valid ⊢
  have entered := entry_child_of_isDirectory linkFree permits valid (isDirectory_of_node? present)
  have fetched : tree.entryNamed above name.text = .ok (name :: above, some held) :=
    entryNamed_eq_ok_iff.mpr ⟨name, name.ofText?_text, rfl, there⟩
  rw [create, entered, show name.part.text = name.text from rfl, Step.ofText_name]
  simp only [bind, Except.bind, fetched]
  rfl

omit linkFree in
theorem create_top_eq_alreadyExists {node : Node}
    (valid : checkPath (.plain anchor []) = .ok ()) :
    tree.create (.plain anchor []) node time = .error (.code .alreadyExists) := by
  have directory := tree.isDirectory_nil
  have entered : tree.entry (.plain anchor []) = .ok ([], .stay) :=
    entry_eq_ok_iff.mpr ⟨valid, follow_of_found rfl, directory, permits.enter [] directory, rfl⟩
  rw [create, entered]
  rfl

theorem ensureDirectory_of_isDirectory (valid : checkPath (.plain anchor chain) = .ok ())
    (directory : tree.isDirectory chain = true) :
    tree.ensureDirectory (.plain anchor chain) mode time = .ok tree := by
  have present := isSome_of_isDirectory directory
  have tested : tree.test Node.isDirectory (.plain anchor chain) = .ok true := by
    rcases isDirectory_iff.mp directory with ⟨node, found, isDirectory⟩
    have located := locate_plain_of_present linkFree permits valid present
    have asked := nodeAt_eq_ok_iff.mpr ⟨chain, located, found⟩
    rw [test, asked]
    exact congrArg Except.ok isDirectory
  have created : tree.create (.plain anchor chain) (.directory mode time) time =
      .error (.code .alreadyExists) := by
    cases chain with
    | nil => exact create_top_eq_alreadyExists permits valid
    | cons name above => exact create_eq_alreadyExists linkFree permits valid present
  simp only [ensureDirectory, created, tested]

theorem entryLocation?_plain {name : Name} {above : Location}
    (valid : checkPath (.plain anchor (name :: above)) = .ok ())
    (directory : tree.isDirectory above = true) :
    tree.entryLocation? (.plain anchor (name :: above)) = some (name :: above) := by
  rw [entryLocation?_eq_some_iff]
  rw [Path.plain_cons] at valid ⊢
  refine ⟨above, name.text, name, ?_, name.ofText?_text, rfl⟩
  rw [entry_child_of_isDirectory linkFree permits valid directory]
  exact congrArg (fun step => Except.ok (above, step)) (Step.ofText_name name)

theorem create_of_absent {name : Name} {above : Location}
    (valid : checkPath (.plain anchor (name :: above)) = .ok ())
    (directory : tree.isDirectory above = true) (absent : tree.node? (name :: above) = none)
    (node : Node) (time : Timestamp) :
    tree.create (.plain anchor (name :: above)) node time =
      .ok (tree.addEntry (name :: above) node time) := by
  rw [create_eq_ok_iff]
  exact ⟨name :: above, entryLocation?_plain linkFree permits valid directory, absent,
    permits.write above directory, rfl⟩

theorem ensureDirectory_of_absent {name : Name} {above : Location}
    (valid : checkPath (.plain anchor (name :: above)) = .ok ())
    (chained : ∀ key node, key <:+ above → tree.node? key = some node → node.isDirectory = true)
    (absent : tree.node? above = none) :
    tree.ensureDirectory (.plain anchor (name :: above)) mode time =
      .error (.code .noEntry) := by
  rw [Path.plain_cons] at valid ⊢
  have entered := entry_child_of_absent linkFree permits valid chained absent
  have created : tree.create ((Path.plain anchor above).child name.part) (.directory mode time)
      time = .error (.code .noEntry) := by
    rw [create, entered]
    rfl
  simp only [ensureDirectory, created]

/-- Below a directory, a directory is made or found; otherwise the directory above is missing. -/
theorem ensureDirectory_cases (mode : Nat) (time : Timestamp) {name : Name} {above : Location}
    (valid : checkPath (.plain anchor (name :: above)) = .ok ())
    (chained : ∀ key node, key <:+ name :: above → tree.node? key = some node →
      node.isDirectory = true) :
    (∃ after, tree.ensureDirectory (.plain anchor (name :: above)) mode time = .ok after) ∨
      tree.node? above = none ∧
        tree.ensureDirectory (.plain anchor (name :: above)) mode time =
          .error (.code .noEntry) := by
  have higher (key : Location) (node : Node) (within : key <:+ above) :=
    chained key node (within.trans (List.suffix_cons name above))
  cases outside : tree.node? above with
  | none =>
      right
      exact ⟨rfl, ensureDirectory_of_absent linkFree permits valid higher outside⟩
  | some outer =>
      left
      cases there : tree.node? (name :: above) with
      | some node =>
          have directory : tree.isDirectory (name :: above) = true :=
            isDirectory_iff.mpr ⟨node, there, chained _ node (List.suffix_refl _) there⟩
          exact ⟨tree, ensureDirectory_of_isDirectory linkFree permits valid directory⟩
      | none =>
          have directory : tree.isDirectory above = true :=
            isDirectory_iff.mpr ⟨outer, outside, higher above outer (List.suffix_refl _) outside⟩
          have created := create_of_absent linkFree permits valid directory there
            (.directory mode time) time
          refine ⟨tree.addEntry (name :: above) (.directory mode time) time, ?_⟩
          simp only [ensureDirectory, created]

end Permitted

end Tree

namespace TreeAction

variable {before after : Tree} {anchor : Anchor} {mode : Nat} {time : Timestamp}
  {chain : Location}

theorem fills_of_change_ensureDirectory (linkFree : before.LinkFree)
    (done : change [.plain anchor chain]
      (·.ensureDirectory (.plain anchor chain) mode time) before = .ok () after) :
    before.Fills after mode chain ∧ after.isDirectory chain = true := by
  cases made : before.ensureDirectory (.plain anchor chain) mode time with
  | ok tree =>
      rw [change_of_ok made] at done
      cases done
      exact Tree.fills_of_ensureDirectory linkFree made
  | error error =>
      rw [change_of_error made] at done
      cases done

theorem makeDirectories_plain_cases (anchor : Anchor) (mode : Nat) (time : Timestamp)
    (name : Name) (above : Location) (tree : Tree) :
    let path := Path.plain anchor (name :: above)
    let make := makeDirectories anchor mode time ((name :: above).map Name.part)
    (∃ after, tree.ensureDirectory path mode time = .ok after ∧ make tree = .ok () after) ∨
      (∃ error, error ≠ .code .noEntry ∧ tree.ensureDirectory path mode time = .error error ∧
        make tree = .error (.refused error [path]) tree) ∨
      tree.ensureDirectory path mode time = .error (.code .noEntry) ∧
        make tree = (makeDirectories anchor mode time (above.map Name.part) >>= fun _ =>
          change [path] (·.ensureDirectory path mode time)) tree :=
  makeDirectories_cons_cases anchor mode time name.part (above.map Name.part) tree

/-- Directories that have been made fill the chain. -/
theorem fills_of_makeDirectories (linkFree : before.LinkFree)
    (done : makeDirectories anchor mode time (chain.map Name.part) before = .ok () after) :
    before.Fills after mode chain ∧ after.isDirectory chain = true := by
  induction chain generalizing after with
  | nil => exact fills_of_change_ensureDirectory linkFree done
  | cons name above ih =>
      rcases makeDirectories_plain_cases anchor mode time name above before with
        ⟨made, ensured, same⟩ | ⟨error, _, _, failed⟩ | ⟨_, again⟩
      · rw [same] at done
        cases done
        exact Tree.fills_of_ensureDirectory linkFree ensured
      · rw [failed] at done
        cases done
      · rw [again] at done
        cases outer : makeDirectories anchor mode time (above.map Name.part) before with
        | error error middle =>
            rw [bind_of_error outer] at done
            cases done
        | ok _ middle =>
            rw [bind_of_ok outer] at done
            rcases ih outer with ⟨first, _⟩
            rcases fills_of_change_ensureDirectory (first.linkFree linkFree) done with
              ⟨second, directory⟩
            exact ⟨first.trans second (List.suffix_cons name above), directory⟩

/-- A chain is made if permissions allow it and only directories are on it. -/
theorem exists_makeDirectories (linkFree : before.LinkFree) (permits : before.Permits)
    (writes : mode.testBit Right.write.bit = true) (enters : mode.testBit Right.enter.bit = true)
    (valid : ∀ key, key <:+ chain → Tree.checkPath (.plain anchor key) = .ok ())
    (chained : ∀ key node, key <:+ chain → before.node? key = some node →
      node.isDirectory = true) :
    ∃ after, makeDirectories anchor mode time (chain.map Name.part) before = .ok () after := by
  induction chain with
  | nil =>
      have ensured : before.ensureDirectory (.plain anchor []) mode time = .ok before :=
        Tree.ensureDirectory_of_isDirectory linkFree permits (valid [] (List.suffix_refl _))
          before.isDirectory_nil
      exact ⟨before, change_of_ok ensured⟩
  | cons name above ih =>
      have whole := valid (name :: above) (List.suffix_refl _)
      have higher (key : Location) (within : key <:+ above) : key <:+ name :: above :=
        within.trans (List.suffix_cons name above)
      rcases makeDirectories_plain_cases anchor mode time name above before with
        ⟨made, _, same⟩ | ⟨error, known, refused, _⟩ | ⟨missing, again⟩
      · exact ⟨made, same⟩
      · rcases Tree.ensureDirectory_cases linkFree permits mode time whole chained with
          ⟨after, ensured⟩ | ⟨_, missing⟩
        · rw [ensured] at refused
          cases refused
        · rw [missing] at refused
          exact absurd (Except.error.inj refused).symm known
      · rcases ih (fun key within => valid key (higher key within))
          (fun key node within => chained key node (higher key within)) with ⟨middle, outer⟩
        rcases fills_of_makeDirectories linkFree outer with ⟨fills, directory⟩
        rcases Tree.ensureDirectory_cases (fills.linkFree linkFree)
            (fills.permits permits writes enters) mode time whole
            (fills.chained chained) with ⟨after, ensured⟩ | ⟨absent, _⟩
        · have makes : change [.plain anchor (name :: above)]
              (·.ensureDirectory (.plain anchor (name :: above)) mode time) middle =
                .ok () after :=
            change_of_ok ensured
          exact ⟨after, by rw [again, bind_of_ok outer, makes]⟩
        · have present := Tree.isSome_of_isDirectory directory
          rw [absent] at present
          cases present

end TreeAction

end MessageTables
