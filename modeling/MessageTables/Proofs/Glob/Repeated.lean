import MessageTables.Proofs.FileSystem.NullFree
import MessageTables.Proofs.Glob.Reached

/-!
# Searches that are repeated

A search in a tree without links fails only where a path is too long, or where a
file could be a table but its directory may be listed and not entered. So a search
that was done can be done again when directories were added whose paths are short
enough and lead through directories that may be entered. It finds what was found
before if the files with the suffix of tables are the same.
-/

namespace MessageTables

theorem Path.NullFree.below {path : Path} (nullFree : path.NullFree) (names : List Name) :
    (path.below names).NullFree := by
  intro part among
  rcases List.mem_append.mp among with inside | named
  · exact nullFree part inside
  · rcases List.mem_map.mp named with ⟨name, _, rfl⟩
    exact name.isName.2.2.1

namespace Tree

variable {tree before after : Tree} {links rule : LinkRule} {path directory : Path}
  {paths : List Path} {root location : Location} {names : List Name} {name : Name}
  {replaced : Location → Prop}

/-! ## Walks that end -/

/-- Names of no link lead to what they name, or through a directory that may not be entered. -/
theorem walk_names_cases {node : Node} (there : tree.node? (names ++ root) = some node)
    (plain : node.isLink = false) :
    tree.walk root (Step.names names.reverse) = .found (names ++ root) ∨
      tree.walk root (Step.names names.reverse) = .failed .denied := by
  induction names generalizing node with
  | nil => exact Or.inl rfl
  | cons name names ih =>
      rw [List.cons_append] at there
      have directory : tree.isDirectory (names ++ root) = true :=
        isDirectory_of_node? (by rw [there]; rfl)
      rcases isDirectory_iff.mp directory with ⟨parent, above, isDirectory⟩
      rw [Step.names_reverse_cons]
      rcases ih above (Node.isLink_eq_false_of_isDirectory isDirectory) with led | denied
      · rw [(walk_append _).1 (names ++ root) led]
        cases granted : tree.grants (names ++ root) .enter with
        | true =>
            left
            rw [(advance_of_plain there plain granted).walk_eq, walk_nil]
            rfl
        | false =>
            right
            rw [walk_cons, directory, granted]
            rfl
      · exact Or.inr (walk_append_of_failed denied _)

/-- Where an entry is named by a path, all directories above it may be entered. -/
theorem enterable_of_entryLocation? {anchor : Anchor} {above : Location} (linkFree : tree.LinkFree)
    (found : tree.entryLocation? (.plain anchor (name :: above)) = some location) :
    ∀ inner, inner <:+ above → tree.grants inner .enter = true := by
  rcases entryLocation?_eq_some_iff.mp found with ⟨parent, text, other, entered, _, rfl⟩
  cases eq_of_entryLocation?_plain linkFree found
  rcases entry_eq_ok_iff.mp entered with ⟨_, followed, directory, granted, _⟩
  rw [linkFree.follow_eq_node_iff, Path.plain_cons, Path.steps_child_plain,
    List.dropLast_concat] at followed
  have walked : tree.walk [] (Step.names above.reverse) = .found (above ++ []) := by
    rw [List.append_nil, followed]
  have present : (tree.node? (above ++ [])).isSome = true := by
    rw [List.append_nil]
    exact isSome_of_isDirectory directory
  intro inner within
  by_cases own : inner = above
  · rw [own, granted]
  · have entered := (walk_names_iff linkFree present).mp walked inner within own
    rwa [List.append_nil] at entered

theorem locate_below_cases (located : tree.locate directory = .ok root)
    (valid : checkPath (directory.below names) = .ok ()) {node : Node}
    (there : tree.node? (names ++ root) = some node) (plain : node.isLink = false) :
    tree.locate (directory.below names) = .ok (names ++ root) ∨
      tree.locate (directory.below names) = .error (.code .denied) := by
  cases names with
  | nil =>
      rw [Path.below_nil]
      exact Or.inl located
  | cons name names =>
      rcases exists_follow_below located with ⟨remaining, followed⟩
      rcases walk_names_cases there plain with led | denied
      · left
        rw [locate_eq_ok_iff, followed]
        exact ⟨valid, follow_of_found led⟩
      · right
        rw [locate, place, valid]
        simp only [followed, follow_of_failed denied]
        rfl

/-! ## What a search needs -/

/--
What a search needs of a tree: where it comes, paths are short enough, and where it
looks at a file, it may enter.
-/
structure Searchable (tree : Tree) (directory : Path) (root : Location) : Prop where
  directories : ∀ names, tree.isDirectory (names ++ root) = true →
    (∀ inner, inner <:+ names → inner ≠ names → tree.grants (inner ++ root) .read = true) →
      checkPath (directory.below names) = .ok ()
  files : ∀ name names, (tree.node? (name :: (names ++ root))).isSome = true →
    (".csv" : Text).toList <:+ name.text.toList →
      (∀ inner, inner <:+ names → tree.grants (inner ++ root) .read = true) →
        (∀ inner, inner <:+ names → inner ≠ names → tree.grants (inner ++ root) .enter = true) →
          checkPath (directory.below (name :: names)) = .ok () ∧
            tree.grants (names ++ root) .enter = true

section TooLong

variable (nullFree : path.NullFree)

include nullFree

theorem checkPath_of_test {property : Node → Bool} {answer : Bool}
    (tested : tree.test property path = .ok answer) : checkPath path = .ok () := by
  rcases checkPath_cases nullFree with valid | long
  · exact valid
  · rw [test, nodeAt, locate, place, long] at tested
    cases tested

theorem checkPath_of_select {wildcard : Wildcard}
    (selected : tree.select links [.wildcard wildcard] path = .ok paths) :
    checkPath path = .ok () := by
  rcases checkPath_cases nullFree with valid | long
  · exact valid
  · rw [select, directoryAt, locate, place, long] at selected
    cases selected

end TooLong

/-! ## Parts of a search -/

theorem exists_gather_iff {α : Type} {find : α → Except Failure (Option (List Path))}
    {elements : List α} (answers : ∀ element, find element ≠ .ok none) :
    (∃ paths, gather find elements = .ok paths) ↔
      ∀ element ∈ elements, ∃ found, find element = .ok (some found) := by
  induction elements with
  | nil => exact ⟨fun _ _ among => absurd among List.not_mem_nil, fun _ => ⟨[], rfl⟩⟩
  | cons first rest ih =>
      rw [List.forall_mem_cons, ← ih, gather]
      constructor
      · rintro ⟨paths, gathered⟩
        rcases bind_eq_ok_iff.mp gathered with ⟨outcome, answered, gathered⟩
        cases outcome with
        | none => exact absurd answered (answers first)
        | some found =>
            rcases bind_eq_ok_iff.mp gathered with ⟨others, further, _⟩
            exact ⟨⟨found, answered⟩, others, further⟩
      · rintro ⟨⟨found, answered⟩, others, further⟩
        exact ⟨found ++ others, bind_eq_ok_iff.mpr
          ⟨some found, answered, bind_eq_ok_iff.mpr ⟨others, further, rfl⟩⟩⟩

theorem exists_keepFile_iff :
    (∃ found, tree.keepFile path = .ok found) ↔
      ∃ answer, tree.test Node.isFile path = .ok answer := by
  constructor
  · rintro ⟨found, kept⟩
    rcases bind_eq_ok_iff.mp kept with ⟨answer, asked, _⟩
    exact ⟨answer, answer_eq_ok_iff.mp asked⟩
  · rintro ⟨answer, tested⟩
    rw [keepFile, tested]
    cases answer with
    | true => exact ⟨_, rfl⟩
    | false => exact ⟨_, rfl⟩

/--
A directory that may be listed is looked into if every entry with an accepted name may
be looked at.
-/
theorem exists_select_iff {wildcard : Wildcard}
    (listed : tree.directoryAt directory = .ok location) :
    (∃ paths, tree.select links [.wildcard wildcard] directory = .ok paths) ↔
      ∀ name, (tree.node? (name :: location)).isSome = true →
        wildcard.accepts name.text.toList = true →
          ∃ answer, tree.test Node.isFile (directory.child name.part) = .ok answer := by
  rw [select_wildcard wildcard listed, exists_gather_iff]
  · constructor
    · intro each name present accepted
      rcases Option.isSome_iff_exists.mp present with ⟨node, there⟩
      rcases each (name, node) (List.mem_mergeSort.mpr (mem_entriesOf.mpr there)) with
        ⟨found, answered⟩
      rw [if_pos accepted] at answered
      apply exists_keepFile_iff.mp
      cases kept : tree.keepFile (directory.child name.part) with
      | ok paths => exact ⟨paths, rfl⟩
      | error failure =>
          rw [kept] at answered
          cases answered
    · rintro each ⟨name, node⟩ among
      have there := mem_entriesOf.mp (List.mem_mergeSort.mp among)
      split
      · rename_i accepted
        rcases exists_keepFile_iff.mpr (each name (by rw [there]; rfl) accepted) with ⟨found, kept⟩
        exact ⟨found, by rw [kept]; rfl⟩
      · exact ⟨[], rfl⟩
  · rintro ⟨name, node⟩
    split
    · cases tree.keepFile (directory.child name.part) <;> rintro ⟨⟩
    · rintro ⟨⟩

theorem select_of_denied {wildcard : Wildcard}
    (denied : tree.directoryAt directory = .error (.code .denied)) :
    tree.select links [.wildcard wildcard] directory = .ok [] := by
  rw [select, denied]
  rfl

section Explored

variable {find : Path → Except Failure (List Path)} {givenUp : Option Location}
  {sighting : Sighting} {earlier rest : List Sighting} {found others : List Path}

theorem explore_of_covered (covered : givenUp.any (·.isSuffixOf sighting.location) = true) :
    tree.explore links directory find givenUp (sighting :: rest) =
      tree.explore links directory find givenUp rest := by
  rw [explore, covered, if_pos rfl]

theorem explore_of_found {checked : Bool}
    (checks : tree.checkSighting links directory sighting = .ok (some checked))
    (uncovered : givenUp.any (·.isSuffixOf sighting.location) = false)
    (answered : (if sighting.node.isDirectory then find (sighting.path directory) else .ok []) =
      .ok found)
    (further : tree.explore links directory find sighting.remembered rest = .ok others) :
    ∃ paths, tree.explore links directory find givenUp (sighting :: rest) = .ok paths := by
  rw [explore, uncovered, if_neg Bool.false_ne_true, checks]
  rw [Sighting.remembered, Sighting.isBarred] at further
  cases isDirectory : sighting.node.isDirectory with
  | false =>
      rw [isDirectory] at further
      exact ⟨others, further⟩
  | true =>
      rw [isDirectory, if_pos rfl] at answered
      refine ⟨found ++ others, bind_eq_ok_iff.mpr ⟨_, rfl, bind_eq_ok_iff.mpr
        ⟨found, answered, bind_eq_ok_iff.mpr ⟨others, ?_, rfl⟩⟩⟩⟩
      rw [← further, isDirectory]
      cases sighting.node.grants .read <;> rfl

/-- A search is done if what is not hidden may be checked and, in a directory, is done. -/
theorem Moment.exists_explore (moment : tree.Moment root earlier givenUp rest)
    (each : ∀ sighting ∈ rest, ¬ tree.Hidden root sighting →
      (∃ checked, tree.checkSighting links directory sighting = .ok (some checked)) ∧
        (sighting.node.isDirectory = true →
          ∃ found, find (sighting.path directory) = .ok found)) :
    ∃ paths, tree.explore links directory find givenUp rest = .ok paths := by
  induction rest generalizing earlier givenUp with
  | nil => exact ⟨[], rfl⟩
  | cons sighting rest ih =>
      have later := fun other inside => each other (List.mem_cons_of_mem sighting inside)
      cases covered : givenUp.any (·.isSuffixOf sighting.location) with
      | true =>
          rw [explore_of_covered covered]
          exact ih (moment.pass covered) later
      | false =>
          rcases ih (moment.enter covered) later with ⟨others, further⟩
          have seen := moment.watch.not_hidden covered
          rcases each sighting List.mem_cons_self seen with ⟨⟨checked, checks⟩, looks⟩
          cases isDirectory : sighting.node.isDirectory with
          | true =>
              rcases looks isDirectory with ⟨found, answered⟩
              exact explore_of_found checks covered ((if_pos isDirectory).trans answered) further
          | false => exact explore_of_found checks covered (by rw [isDirectory]; rfl) further

end Explored

section Searched

variable (linkFree : tree.LinkFree) (nullFree : directory.NullFree)
  (located : tree.locate directory = .ok root)

include linkFree nullFree located

/-- An entry may be looked at if its path is short enough and its directory may be entered. -/
theorem exists_test_iff {property : Node → Bool}
    (present : (tree.node? (names ++ root)).isSome = true) :
    (∃ answer, tree.test property (directory.below names) = .ok answer) ↔
      checkPath (directory.below names) = .ok () ∧
        ∀ inner, inner <:+ names → inner ≠ names → tree.grants (inner ++ root) .enter = true := by
  constructor
  · rintro ⟨answer, tested⟩
    have valid := checkPath_of_test (nullFree.below names) tested
    rcases Option.isSome_iff_exists.mp present with ⟨node, there⟩
    rcases locate_below_cases located valid there (linkFree _ node there) with reached | denied
    · exact ⟨valid, (walk_names_iff linkFree present).mp
        ((locate_below_iff linkFree located).mp reached).2⟩
    · rw [test, nodeAt, denied] at tested
      cases tested
  · rintro ⟨valid, enterable⟩
    rcases Option.isSome_iff_exists.mp present with ⟨node, there⟩
    have reached := (locate_below_iff linkFree located).mpr
      ⟨valid, (walk_names_iff linkFree present).mpr enterable⟩
    exact ⟨_, test_of_nodeAt (nodeAt_eq_ok_iff.mpr ⟨_, reached, there⟩) property⟩

theorem Searchable.exists_select (searchable : tree.Searchable directory root)
    (isDirectory : tree.isDirectory (names ++ root) = true)
    (readable : ∀ inner, inner <:+ names → inner ≠ names →
      tree.grants (inner ++ root) .read = true) :
    ∃ paths, tree.select links [.wildcard (.star :: (".csv" : Text).toList.map .literal)]
      (directory.below names) = .ok paths := by
  have valid := searchable.directories names isDirectory readable
  have present := isSome_of_isDirectory isDirectory
  rcases Option.isSome_iff_exists.mp present with ⟨held, there⟩
  rcases locate_below_cases located valid there (linkFree _ held there) with reached | denied
  · cases granted : tree.grants (names ++ root) .read with
    | false =>
        exact ⟨[], select_of_denied (directoryAt_of_denied reached isDirectory granted)⟩
    | true =>
        have listed := directoryAt_eq_ok_iff.mpr ⟨reached, isDirectory, granted⟩
        have enterable := (walk_names_iff linkFree present).mp
          ((locate_below_iff linkFree located).mp reached).2
        apply (exists_select_iff listed).mpr
        intro name there accepted
        rcases searchable.files name names there (Wildcard.accepts_star_literals.mp accepted)
          (grants_of_proper readable granted) enterable with ⟨short, entered⟩
        rw [← Path.below_cons]
        apply (exists_test_iff linkFree nullFree located there).mpr
        exact ⟨short, fun inner within differs => grants_of_proper enterable entered inner
          ((List.suffix_cons_iff.mp within).resolve_left differs)⟩
  · exact ⟨[], select_of_denied (directoryAt_of_locate_error denied)⟩

/-- Where a search is done, a tree has what it needs. -/
theorem searchable_of_findTables (rooted : tree.isDirectory root = true)
    (found : tree.findTables links directory ".csv" = .ok paths) :
    tree.Searchable directory root := by
  have tested := test_isDirectory_of_locate located rooted
  rcases findTables_csv_eq_ok_iff.mp found with ⟨denied, _⟩ | ⟨_, files, selected, rfl⟩
  · rw [tested] at denied
    cases denied
  rw [select] at selected
  rcases bind_eq_ok_iff.mp selected with ⟨place, answered, explored⟩
  rw [answerIfGranted_eq_ok_some_iff.mpr located] at answered
  cases answered
  have answers := linkFree.isAnswered links directory root
  constructor
  · intro names isDirectory readable
    rcases exists_found_of_explore answers explored isDirectory readable with
      ⟨found, answered, _⟩
    exact checkPath_of_select (nullFree.below names) answered
  · intro name names present ending readable enterable
    have isDirectory := isDirectory_of_node? present
    rcases exists_found_of_explore answers explored isDirectory
      (fun inner within _ => readable inner within) with ⟨found, answered, _⟩
    have valid := checkPath_of_select (nullFree.below names) answered
    have reached := (locate_below_iff linkFree located).mpr
      ⟨valid, (walk_names_iff linkFree (isSome_of_isDirectory isDirectory)).mpr enterable⟩
    have listed := directoryAt_eq_ok_iff.mpr
      ⟨reached, isDirectory, readable names (List.suffix_refl names)⟩
    have asked := (exists_select_iff listed).mp ⟨found, answered⟩ name present
      (Wildcard.accepts_star_literals.mpr ending)
    rw [← Path.below_cons] at asked
    rcases (exists_test_iff linkFree nullFree located present).mp asked with ⟨short, entered⟩
    exact ⟨short, entered names (List.suffix_cons name names) (List.cons_ne_self name names).symm⟩

/-- A search is done in a tree that has what it needs. -/
theorem Searchable.exists_findTables (searchable : tree.Searchable directory root)
    (rooted : tree.isDirectory root = true) :
    ∃ paths, tree.findTables links directory ".csv" = .ok paths := by
  have tested := test_isDirectory_of_locate located rooted
  have explores : ∃ paths, tree.explore links directory
      (tree.select links [.wildcard (.star :: (".csv" : Text).toList.map .literal)]) none
        (tree.sightings root) = .ok paths := by
    apply (Moment.start tree root).exists_explore
    intro sighting listed seen
    refine ⟨⟨_, linkFree.checkSighting_eq listed⟩, fun isDirectory => ?_⟩
    rcases mem_sightings.mp listed with ⟨names, held, rfl, found⟩
    exact searchable.exists_select linkFree nullFree located
      (isDirectory_iff.mpr ⟨held, found, isDirectory⟩) ((not_hidden_iff found).mp seen)
  rcases explores with ⟨files, explored⟩
  refine ⟨Path.sorted files, findTables_csv_eq_ok_iff.mpr (Or.inr ⟨tested, files, ?_, rfl⟩)⟩
  rw [select, located]
  exact explored

end Searched

/-! ## Searching again -/

/-- What a search needs is still there if what was added is short enough and may be looked at. -/
theorem Searchable.later (searchable : before.Searchable directory root)
    (carries : before.Carries after replaced)
    (directories : ∀ names, before.isDirectory (names ++ root) = false →
      after.isDirectory (names ++ root) = true → checkPath (directory.below names) = .ok () ∧
        ∀ inner, inner <:+ names → inner ≠ names → after.grants (inner ++ root) .enter = true)
    (files : ∀ name above, (".csv" : Text).toList <:+ name.text.toList →
      before.node? (name :: above) = none → (after.node? (name :: above)).isSome = true →
        after.isDirectory (name :: above) = true) :
    after.Searchable directory root := by
  have same {above : List Name} {key : Location} (present : (before.node? key).isSome = true)
      (within : above ++ root <:+ key) (differs : above ++ root ≠ key) (right : Right) :
      before.grants (above ++ root) right = after.grants (above ++ root) right :=
    carries.grants_eq (isDirectory_of_below present within differs)
  constructor
  · intro names isDirectory readable
    cases old : before.isDirectory (names ++ root) with
    | false => exact (directories names old isDirectory).1
    | true =>
        apply searchable.directories names old
        intro inner within differs
        rw [same (isSome_of_isDirectory old) (List.suffix_append_self_iff.mpr within)
          (fun equal => differs (List.append_cancel_right equal))]
        exact readable inner within differs
  · intro name names present ending readable enterable
    cases old : before.node? (name :: (names ++ root)) with
    | none =>
        have isDirectory := files name (names ++ root) ending old present
        rcases directories (name :: names) (isDirectory_eq_false_of_node?_eq_none old) isDirectory
          with ⟨short, entered⟩
        exact ⟨short, entered names (List.suffix_cons name names)
          (List.cons_ne_self name names).symm⟩
    | some node =>
        have there : (before.node? (name :: (names ++ root))).isSome = true := by
          rw [old]
          rfl
        have rights (inner : List Name) (within : inner <:+ names) (right : Right) :
            before.grants (inner ++ root) right = after.grants (inner ++ root) right := by
          have above : inner ++ root <:+ names ++ root := List.suffix_append_self_iff.mpr within
          apply same there (above.trans (List.suffix_cons name _))
          intro equal
          rw [equal] at above
          exact not_cons_suffix name _ above
        have whole := List.suffix_refl names
        rw [← rights names whole]
        apply searchable.files name names there ending
        · intro inner within
          rw [rights inner within, readable inner within]
        · intro inner within differs
          rw [rights inner within, enterable inner within differs]

/-- A later search finds the same tables, if it comes to nothing new that is out of its reach. -/
theorem Carries.findTables_again (carries : before.Carries after replaced)
    (linkFree : before.LinkFree) (nullFree : directory.NullFree)
    (located : before.locate directory = .ok root) (rooted : before.isDirectory root = true)
    (directories : ∀ names, before.isDirectory (names ++ root) = false →
      after.isDirectory (names ++ root) = true → checkPath (directory.below names) = .ok () ∧
        ∀ inner, inner <:+ names → inner ≠ names → after.grants (inner ++ root) .enter = true)
    (files : ∀ name above node, (".csv" : Text).toList <:+ name.text.toList → node.isFile = true →
      (before.node? (name :: above) = some node ↔ after.node? (name :: above) = some node))
    (found : before.findTables links directory ".csv" = .ok paths) :
    after.findTables rule directory ".csv" = .ok paths := by
  have searchable := searchable_of_findTables linkFree nullFree located rooted found
  have relocated := carries.locate_directory linkFree located rooted
  have added : ∀ name above, (".csv" : Text).toList <:+ name.text.toList →
      before.node? (name :: above) = none → (after.node? (name :: above)).isSome = true →
        after.isDirectory (name :: above) = true := by
    intro name above ending absent present
    rcases Option.isSome_iff_exists.mp present with ⟨node, there⟩
    cases node with
    | directory mode time => exact isDirectory_iff.mpr ⟨_, there, rfl⟩
    | link target => exact absurd there (carries.linkFree.node?_ne _ target)
    | file bytes mode time =>
        rw [(files name above _ ending rfl).mpr there] at absent
        cases absent
  rcases (searchable.later carries directories added).exists_findTables carries.linkFree nullFree
    relocated (carries.isDirectory rooted) with ⟨others, again⟩
  rw [again, carries.findTables_eq linkFree (test_isDirectory_of_locate located rooted) files found
    again]

end Tree

end MessageTables
