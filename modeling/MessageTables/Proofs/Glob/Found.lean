import MessageTables.Proofs.FileSystem.Refusals
import MessageTables.Proofs.Glob.Repeated

/-!
# What a search comes to

A search goes through real directories only. It follows a link with the name of a table,
which may lead to a file; a search that asks of links also follows every other link, to
learn whether it leads to a directory. What the system does not answer is no file and no
directory, with two exceptions. A path that is too long ends the search; where a right is
missing, a link that is asked of makes the search give up the directory that it is in, and
a table ends it.

`Watch` is the invariant for everything that holds of all searches: what is below a
directory that may not be read is passed over, whatever else is given up. Where no right
is missing, `Moment` says that nothing else is passed over.
-/

namespace MessageTables

namespace Tree

variable {tree : Tree} {links : LinkRule} {path directory : Path} {paths : List Path}
  {root location : Location} {name : Name} {names above : List Name} {failure : Failure}
  {code : ErrorCode}

/-! ## Refusals -/

/-- Whether it is an error, and not an answer, that it is not known what a path leads to. -/
def IsRefusal (code : ErrorCode) : Prop :=
  code = .nameTooLong ∨ code = .denied

theorem test_eq_error_iff {property : Node → Bool} {error : AccessError} :
    tree.test property path = .error error ↔
      ∃ code, error = .code code ∧ IsRefusal code ∧ tree.nodeAt path = .error (.code code) := by
  rw [test]
  constructor
  · intro refused
    split at refused
    · cases refused
    · cases refused
      exact ⟨_, rfl, Or.inl rfl, ‹_›⟩
    · cases refused
      exact ⟨_, rfl, Or.inr rfl, ‹_›⟩
    · cases refused
  · rintro ⟨code, rfl, rfl | rfl, asked⟩
    · rw [asked]
    · rw [asked]

theorem nodeAt_of_locate_error {error : AccessError} (refused : tree.locate path = .error error) :
    tree.nodeAt path = .error error := by
  rw [nodeAt, refused]
  rfl

theorem locate_of_nodeAt_refused (refusal : IsRefusal code)
    (refused : tree.nodeAt path = .error (.code code)) :
    tree.locate path = .error (.code code) := by
  cases located : tree.locate path with
  | error error =>
      rw [nodeAt_of_locate_error located] at refused
      cases refused
      rfl
  | ok location =>
      rw [nodeAt, located] at refused
      rcases bind_eq_error_iff.mp refused with impossible | ⟨_, same, missing⟩
      · cases impossible
      · cases same
        split at missing
        · cases missing
        · cases missing
          rcases refusal with impossible | impossible <;> cases impossible

/-- Whether some names end in one that ends as the names of tables do. -/
def NamesTable (names : List Name) : Prop :=
  ∃ name above, names = name :: above ∧ (".csv" : Text).toList <:+ name.text.toList

/--
Whether a search looks at what some names lead to: at directories, at what has the name of
a table and, if it asks of links, at all of them.
-/
structure LooksAt (tree : Tree) (links : LinkRule) (root : Location) (names : List Name) :
    Prop where
  there : ∃ node, tree.node? (names ++ root) = some node ∧
    (node.isDirectory = true ∨ (links = .asks ∧ node.isLink = true) ∨ NamesTable names)
  readable : ∀ inner, inner <:+ names → inner ≠ names → tree.grants (inner ++ root) .read = true

/-- Whether the system refuses the path of something that a search looks at. -/
def Refuses (tree : Tree) (links : LinkRule) (directory : Path) (root : Location)
    (code : ErrorCode) : Prop :=
  ∃ names, tree.LooksAt links root names ∧ tree.nodeAt (directory.below names) = .error (.code code)

/-- Whether a failure is that the system refuses the path of something that a search looks at. -/
def IsRefused (tree : Tree) (links : LinkRule) (directory : Path) (root : Location)
    (failure : Failure) : Prop :=
  ∃ code text, failure = .system (.ofCode code text) ∧ IsRefusal code ∧
    tree.Refuses links directory root code

/-- Whether a search asks what a path leads to. -/
inductive Asks (tree : Tree) (links : LinkRule) (directory : Path) : Path → Prop where
  | itself : Asks tree links directory directory
  | below {root : Location} {names : List Name} (located : tree.locate directory = .ok root)
      (looks : tree.LooksAt links root names) : Asks tree links directory (directory.below names)

theorem looksAt_directory (isDirectory : tree.isDirectory (names ++ root) = true)
    (readable : ∀ inner, inner <:+ names → inner ≠ names →
      tree.grants (inner ++ root) .read = true) : tree.LooksAt links root names := by
  rcases isDirectory_iff.mp isDirectory with ⟨node, there, directory⟩
  exact ⟨⟨node, there, Or.inl directory⟩, readable⟩

theorem looksAt_named (present : (tree.node? (name :: names ++ root)).isSome = true)
    (ending : (".csv" : Text).toList <:+ name.text.toList)
    (readable : ∀ inner, inner <:+ names → tree.grants (inner ++ root) .read = true) :
    tree.LooksAt links root (name :: names) := by
  rcases Option.isSome_iff_exists.mp present with ⟨node, there⟩
  exact ⟨⟨node, there, Or.inr (Or.inr ⟨name, names, rfl, ending⟩)⟩, fun inner within differs =>
    readable inner ((List.suffix_cons_iff.mp within).resolve_left differs)⟩

section Located

variable (located : tree.locate directory = .ok root)

include located

theorem nullFree_of_locate : directory.NullFree :=
  (Path.checkPath_eq_ok_iff.mp (locate_eq_ok_iff.mp located).1).1

/-- A directory below is where its path leads, unless the system refuses the path. -/
theorem locate_below_directory (isDirectory : tree.isDirectory (names ++ root) = true) :
    tree.locate (directory.below names) = .ok (names ++ root) ∨
      ∃ code, IsRefusal code ∧ tree.locate (directory.below names) = .error (.code code) := by
  rcases isDirectory_iff.mp isDirectory with ⟨node, there, directoryNode⟩
  rcases checkPath_cases ((nullFree_of_locate located).below names) with valid | long
  · rcases locate_below_cases located valid there
      (Node.isLink_eq_false_of_isDirectory directoryNode) with reached | denied
    · exact Or.inl reached
    · exact Or.inr ⟨_, Or.inr rfl, denied⟩
  · refine Or.inr ⟨_, Or.inl rfl, ?_⟩
    rw [locate, place, long]
    rfl

/--
What the path of a name below a directory leads to, it leads to because something has that
name.
-/
theorem isSome_of_nodeAt_below {node : Node} (isDirectory : tree.isDirectory (names ++ root) = true)
    (asked : tree.nodeAt (directory.below (name :: names)) = .ok node) :
    (tree.node? (name :: (names ++ root))).isSome = true := by
  rcases nodeAt_eq_ok_iff.mp asked with ⟨location, reached, _⟩
  rcases exists_follow_below located with ⟨remaining, followed⟩
  have led := (locate_eq_ok_iff.mp reached).2
  rw [followed, Step.names_reverse_cons] at led
  have arrives : Arrival.IsFound (tree.walk root (Step.names names.reverse ++
      [.enter name.text])) := by
    rcases follow_eq_node_cases led with walked | ⟨_, _, _, _, _, walked, _⟩
    · rw [walked]
      trivial
    · rw [walked]
      trivial
  rcases isDirectory_iff.mp isDirectory with ⟨held, there, directoryNode⟩
  rcases walk_names_cases there (Node.isLink_eq_false_of_isDirectory directoryNode) with
    walked | denied
  · rw [(walk_append _).1 _ walked] at arrives
    rcases advance_or_linkAhead_of_isFound arrives with ⟨next, advance⟩ | ⟨target, ahead⟩
    · cases advance with
      | enter directory granted named seen noLink =>
          rw [Name.ofText?_text] at named
          cases named
          rw [← isSome_view, seen]
          rfl
    · cases ahead with
      | enter directory granted named seen =>
          rw [Name.ofText?_text] at named
          cases named
          rw [view_eq_some_link_iff.mp seen]
          rfl
  · rw [walk_append_of_failed denied] at arrives
    exact arrives.elim

end Located

/-! ## Parts of a search -/

theorem exists_of_gather_error {α : Type} {find : α → Except Failure (Option (List Path))}
    {elements : List α} (refused : gather find elements = .error failure) :
    ∃ element ∈ elements, find element = .error failure := by
  induction elements with
  | nil => cases refused
  | cons element rest ih =>
      rw [gather] at refused
      rcases bind_eq_error_iff.mp refused with here | ⟨outcome, _, later⟩
      · exact ⟨element, List.mem_cons_self, here⟩
      · cases outcome with
        | none => cases later
        | some found =>
            rcases bind_eq_error_iff.mp later with further | ⟨_, _, ended⟩
            · rcases ih further with ⟨other, among, failed⟩
              exact ⟨other, List.mem_cons_of_mem element among, failed⟩
            · cases ended

theorem refused_of_keepFile (refused : tree.keepFile path = .error failure) :
    ∃ code, failure = .system (.ofCode code path.text) ∧ IsRefusal code ∧
      tree.nodeAt path = .error (.code code) := by
  rcases bind_eq_error_iff.mp refused with asking | ⟨isFile, _, kept⟩
  · cases tested : tree.test Node.isFile path with
    | ok answer =>
        rw [tested] at asking
        cases asking
    | error error =>
        rcases test_eq_error_iff.mp tested with ⟨code, rfl, refusal, asked⟩
        rw [tested] at asking
        cases asking
        exact ⟨code, rfl, refusal, asked⟩
  · cases isFile <;> cases kept

/-- A search that asks of a link asks what the path of the link leads to. -/
theorem checkSighting_link (target : Text) :
    tree.checkSighting .asks directory
        ⟨(name :: names).reverse.map Name.part, name :: names ++ root, .link target⟩ =
      match tree.test Node.isDirectory (directory.below (name :: names)) with
      | .ok isDirectory => .ok (some isDirectory)
      | .error (.code .denied) => .ok none
      | .error error => .error (.ofAccess ((directory.below names).entryText name) error) := by
  have above : (Sighting.path ⟨(name :: names).reverse.map Name.part, name :: names ++ root,
      .link target⟩ directory).parent = directory.below names := by
    have whole : Sighting.path ⟨(name :: names).reverse.map Name.part, name :: names ++ root,
        .link target⟩ directory = (directory.below names).child name.part :=
      Path.below_cons directory name names
    rw [whole, Path.parent_child]
  change tree.entryIsDirectory (Sighting.path _ directory).parent name (.link target) = _
  rw [above, Path.below_cons]
  rfl

/-- Looking for files in a directory fails where the system refuses what has an accepted name. -/
theorem refused_of_select {wildcard : Wildcard}
    (listed : tree.directoryAt directory = .ok location)
    (refused : tree.select links [.wildcard wildcard] directory = .error failure) :
    ∃ name code, (tree.node? (name :: location)).isSome = true ∧
      wildcard.accepts name.text.toList = true ∧ IsRefusal code ∧
      failure = .system (.ofCode code (directory.child name.part).text) ∧
      tree.nodeAt (directory.child name.part) = .error (.code code) := by
  rw [select_wildcard wildcard listed] at refused
  rcases exists_of_gather_error refused with ⟨⟨name, node⟩, among, failed⟩
  have there := mem_entriesOf.mp (List.mem_mergeSort.mp among)
  simp only at failed
  split at failed
  · rename_i accepted
    cases kept : tree.keepFile (directory.child name.part) with
    | ok found =>
        rw [kept] at failed
        cases failed
    | error other =>
        rw [kept] at failed
        cases failed
        rcases refused_of_keepFile kept with ⟨code, same, refusal, asked⟩
        exact ⟨name, code, by rw [there]; rfl, accepted, refusal, same, asked⟩
  · cases failed

theorem isRefused_of_select (located : tree.locate directory = .ok root)
    (isDirectory : tree.isDirectory (names ++ root) = true)
    (readable : ∀ inner, inner <:+ names → inner ≠ names → tree.grants (inner ++ root) .read = true)
    (refused : tree.select links [.wildcard (.star :: (".csv" : Text).toList.map .literal)]
      (directory.below names) = .error failure) : tree.IsRefused links directory root failure := by
  rcases locate_below_directory located isDirectory with reached | ⟨code, refusal, unreached⟩
  · cases granted : tree.grants (names ++ root) .read with
    | false =>
        rw [select_of_denied (directoryAt_of_denied reached isDirectory granted)] at refused
        cases refused
    | true =>
        have listed := directoryAt_eq_ok_iff.mpr ⟨reached, isDirectory, granted⟩
        rcases refused_of_select listed refused with
          ⟨name, code, present, accepted, refusal, rfl, asked⟩
        rw [← Path.below_cons] at asked
        exact ⟨code, _, rfl, refusal, name :: names, looksAt_named present
          (Wildcard.accepts_star_literals.mp accepted) (grants_of_proper readable granted), asked⟩
  · have opened : tree.directoryAt (directory.below names) = .error (.code code) :=
      directoryAt_of_locate_error unreached
    rcases refusal with rfl | rfl
    · rw [select, opened] at refused
      cases refused
      exact ⟨_, _, rfl, Or.inl rfl, names, looksAt_directory isDirectory readable,
        nodeAt_of_locate_error unreached⟩
    · rw [select_of_denied opened] at refused
      cases refused

/-! ## Searches -/

variable {find : Path → Except Failure (List Path)} {givenUp : Option Location}
  {sighting : Sighting} {earlier rest : List Sighting}

/-- A link that may not be followed is no directory that may not be read. -/
theorem Watch.enter_link {given : Option Location}
    (watch : tree.Watch root earlier givenUp (sighting :: rest))
    (uncovered : givenUp.any (·.isSuffixOf sighting.location) = false)
    (checks : tree.checkSighting links directory sighting = .ok none) :
    tree.Watch root (earlier ++ [sighting]) given rest := by
  refine watch.enter uncovered fun barred => ?_
  rw [Sighting.isBarred, Bool.and_eq_true] at barred
  rw [checkSighting_of_no_link (Node.isLink_eq_false_of_isDirectory barred.1)] at checks
  cases checks

/-- What is found anywhere is found in a directory that is not hidden. -/
theorem Watch.exists_of_mem_explore (watch : tree.Watch root earlier givenUp rest)
    (explored : tree.explore links directory find givenUp rest = .ok paths)
    (inside : path ∈ paths) :
    ∃ sighting ∈ rest, sighting.node.isDirectory = true ∧ ¬ tree.Hidden root sighting ∧
      ∃ found, find (sighting.path directory) = .ok found ∧ path ∈ found := by
  induction rest generalizing earlier givenUp paths with
  | nil =>
      cases explored
      cases inside
  | cons sighting rest ih =>
      have behind {next : Option Location} {others : List Path}
          (later : tree.Watch root (earlier ++ [sighting]) next rest)
          (further : tree.explore links directory find next rest = .ok others)
          (within : path ∈ others) :
          ∃ other ∈ sighting :: rest, other.node.isDirectory = true ∧
            ¬ tree.Hidden root other ∧
              ∃ found, find (other.path directory) = .ok found ∧ path ∈ found := by
        rcases ih later further within with ⟨other, among, holds⟩
        exact ⟨other, List.mem_cons_of_mem sighting among, holds⟩
      have visit := tree.visit_explore links directory find givenUp sighting rest
      rw [explored] at visit
      cases visit with
      | passed covered further => exact behind (watch.pass covered) further.symm inside
      | refused uncovered checks ended => cases ended
      | unanswered uncovered checks further =>
          exact behind (watch.enter_link uncovered checks) further.symm inside
      | stopped uncovered isDirectory failed ended => cases ended
      | @entered checked found uncovered checks answered further =>
          rcases bind_eq_ok_iff.mp further.symm with ⟨others, later, same⟩
          cases same
          rcases List.mem_append.mp inside with here | within
          · split at answered
            · rename_i isDirectory
              exact ⟨sighting, List.mem_cons_self, isDirectory, watch.not_hidden uncovered,
                found, answered, here⟩
            · cases answered
              cases here
          · exact behind (watch.enter uncovered fun barred => if_pos barred) later within

/-- What ends a search is met at a sighting that is not hidden. -/
theorem Watch.exists_of_explore_error (watch : tree.Watch root earlier givenUp rest)
    (explored : tree.explore links directory find givenUp rest = .error failure) :
    ∃ sighting ∈ rest, ¬ tree.Hidden root sighting ∧
      (tree.checkSighting links directory sighting = .error failure ∨
        sighting.node.isDirectory = true ∧
          find (sighting.path directory) = .error failure) := by
  induction rest generalizing earlier givenUp with
  | nil => cases explored
  | cons sighting rest ih =>
      have behind {next : Option Location}
          (later : tree.Watch root (earlier ++ [sighting]) next rest)
          (further : tree.explore links directory find next rest = .error failure) :
          ∃ other ∈ sighting :: rest, ¬ tree.Hidden root other ∧
            (tree.checkSighting links directory other = .error failure ∨
              other.node.isDirectory = true ∧
                find (other.path directory) = .error failure) := by
        rcases ih later further with ⟨other, among, holds⟩
        exact ⟨other, List.mem_cons_of_mem sighting among, holds⟩
      have visit := tree.visit_explore links directory find givenUp sighting rest
      rw [explored] at visit
      cases visit with
      | passed covered further => exact behind (watch.pass covered) further.symm
      | refused uncovered checks ended =>
          cases ended
          exact ⟨sighting, List.mem_cons_self, watch.not_hidden uncovered, Or.inl checks⟩
      | unanswered uncovered checks further =>
          exact behind (watch.enter_link uncovered checks) further.symm
      | stopped uncovered isDirectory failed ended =>
          cases ended
          exact ⟨sighting, List.mem_cons_self, watch.not_hidden uncovered,
            Or.inr ⟨isDirectory, failed⟩⟩
      | entered uncovered checks answered further =>
          rcases bind_eq_error_iff.mp further.symm with later | ⟨_, _, ended⟩
          · exact behind (watch.enter uncovered fun barred => if_pos barred) later
          · cases ended

/-! ## Tables -/

/--
Whether a path is that of a file with a table's name, all directories above may be read,
and none of them is a link.
-/
def IsTableBelow (tree : Tree) (directory : Path) (root : Location) (path : Path) : Prop :=
  ∃ name names, path = directory.below (name :: names) ∧
    tree.isDirectory (names ++ root) = true ∧
    (∀ inner, inner <:+ names → tree.grants (inner ++ root) .read = true) ∧
    (".csv" : Text).toList <:+ name.text.toList ∧ tree.test Node.isFile path = .ok true

theorem exists_cons_of_link {names : List Name} {target : Text}
    (rooted : tree.isDirectory root = true)
    (there : tree.node? (names ++ root) = some (.link target)) :
    ∃ name above, names = name :: above := by
  cases names with
  | nil =>
      rw [isDirectory, show tree.node? root = some (.link target) from there] at rooted
      cases rooted
  | cons name above => exact ⟨name, above, rfl⟩

/-- What is not hidden is checked with success, unless the system refuses its path. -/
theorem checkSighting_cases (rooted : tree.isDirectory root = true)
    (listed : sighting ∈ tree.sightings root)
    (seen : ¬ tree.Hidden root sighting) :
    (∃ checked, tree.checkSighting links directory sighting = .ok (some checked)) ∨
      (tree.checkSighting links directory sighting = .ok none ∧
        tree.Refuses links directory root .denied) ∨
        ∃ failure, tree.checkSighting links directory sighting = .error failure ∧
          tree.IsRefused links directory root failure := by
  rcases mem_sightings.mp listed with ⟨names, node, rfl, there⟩
  cases node with
  | file bytes mode time => exact Or.inl ⟨_, checkSighting_of_no_link rfl⟩
  | directory mode time => exact Or.inl ⟨_, checkSighting_of_no_link rfl⟩
  | link target =>
      cases links with
      | passes => exact Or.inl ⟨_, checkSighting_passes⟩
      | asks =>
          have looked : tree.LooksAt .asks root names :=
            ⟨⟨_, there, Or.inr (Or.inl ⟨rfl, rfl⟩)⟩, (not_hidden_iff there).mp seen⟩
          rcases exists_cons_of_link rooted there with ⟨name, above, rfl⟩
          rw [checkSighting_link]
          cases tested : tree.test Node.isDirectory (directory.below (name :: above)) with
          | ok answer => exact Or.inl ⟨answer, rfl⟩
          | error error =>
              right
              rcases test_eq_error_iff.mp tested with ⟨code, rfl, refusal, asked⟩
              rcases refusal with rfl | rfl
              · exact Or.inr ⟨_, rfl, _, _, rfl, Or.inl rfl, _, looked, asked⟩
              · exact Or.inl ⟨rfl, _, looked, asked⟩

/-- A directory that a search is done in may be listed, if it may be read. -/
theorem directoryAt_of_select {wildcard : Wildcard} (located : tree.locate directory = .ok root)
    (granted : ¬ tree.Refuses links directory root .denied)
    (isDirectory : tree.isDirectory (names ++ root) = true)
    (readable : ∀ inner, inner <:+ names → tree.grants (inner ++ root) .read = true)
    (selected : tree.select links [.wildcard wildcard] (directory.below names) = .ok paths) :
    tree.directoryAt (directory.below names) = .ok (names ++ root) := by
  rcases locate_below_directory located isDirectory with reached | ⟨code, refusal, unreached⟩
  · exact directoryAt_eq_ok_iff.mpr ⟨reached, isDirectory, readable names (List.suffix_refl names)⟩
  · rcases refusal with rfl | rfl
    · rw [select, directoryAt, unreached] at selected
      cases selected
    · exact absurd ⟨names, looksAt_directory isDirectory fun inner within _ =>
        readable inner within, nodeAt_of_locate_error unreached⟩ granted

theorem isAnswered_of_granted (rooted : tree.isDirectory root = true)
    (granted : ¬ tree.Refuses links directory root .denied) :
    tree.IsAnswered links directory root := by
  intro sighting listed seen unanswered
  rcases checkSighting_cases rooted listed seen with
    ⟨_, answered⟩ | ⟨_, denied⟩ | ⟨_, answered, _⟩
  · rw [unanswered] at answered
    cases answered
  · exact granted denied
  · rw [unanswered] at answered
    cases answered

theorem ordered_of_findTables (found : tree.findTables links directory ".csv" = .ok paths) :
    paths.Pairwise Path.Precedes := by
  have anchored : ∀ path ∈ paths, path.anchor = directory.anchor :=
    fun path => anchor_of_mem_findTables found
  rcases exists_sorted_of_findTables found with ⟨files, rfl⟩
  exact Path.pairwise_sorted fun path inside => anchored path (Path.mem_sorted.mpr inside)

section Found

variable (located : tree.locate directory = .ok root) (rooted : tree.isDirectory root = true)

include located rooted

theorem findTables_csv_of_locate :
    tree.findTables links directory ".csv" =
      tree.explore links directory
        (tree.select links [.wildcard (.star :: (".csv" : Text).toList.map .literal)]) none
        (tree.sightings root) >>= fun files => .ok (Path.sorted files) := by
  rw [findTables, pattern_csv, test_isDirectory_of_locate located rooted]
  simp only [answer, bind, Except.bind, select, located, answerIfGranted]
  rfl

/-- Every search ends with tables, or because the path of something that it looks at is refused. -/
theorem isRefused_of_findTables
    (refused : tree.findTables links directory ".csv" = .error failure) :
    tree.IsRefused links directory root failure := by
  rw [findTables_csv_of_locate located rooted] at refused
  rcases bind_eq_error_iff.mp refused with explored | ⟨_, _, ended⟩
  · rcases (Watch.start tree root).exists_of_explore_error explored with
      ⟨sighting, listed, seen, checks | ⟨directoryNode, failed⟩⟩
    · rcases checkSighting_cases rooted listed seen with
        ⟨_, answered⟩ | ⟨answered, _⟩ | ⟨other, answered, isRefused⟩
      · rw [checks] at answered
        cases answered
      · rw [checks] at answered
        cases answered
      · rw [checks] at answered
        cases answered
        exact isRefused
    · rcases mem_sightings.mp listed with ⟨names, node, rfl, there⟩
      exact isRefused_of_select located (isDirectory_iff.mpr ⟨node, there, directoryNode⟩)
        ((not_hidden_iff there).mp seen) failed
  · cases ended

theorem isTableBelow_of_mem_findTables (found : tree.findTables links directory ".csv" = .ok paths)
    (inside : path ∈ paths) : tree.IsTableBelow directory root path := by
  rw [findTables_csv_of_locate located rooted] at found
  rcases bind_eq_ok_iff.mp found with ⟨files, explored, same⟩
  cases same
  rcases (Watch.start tree root).exists_of_mem_explore explored (Path.mem_sorted.mp inside) with
    ⟨sighting, listed, directoryNode, seen, found, selected, within⟩
  rcases mem_sightings.mp listed with ⟨names, node, rfl, there⟩
  have isDirectory := isDirectory_iff.mpr ⟨node, there, directoryNode⟩
  have selects : tree.select links [.wildcard (.star :: (".csv" : Text).toList.map .literal)]
      (directory.below names) = .ok found := selected
  rcases exists_name_of_mem_select selects within with
    ⟨⟨location, opened⟩, name, rfl, accepted, tested⟩
  refine ⟨name, names, (Path.below_cons directory name names).symm, isDirectory, ?_,
    Wildcard.accepts_star_literals.mp accepted, tested⟩
  apply grants_of_proper ((not_hidden_iff there).mp seen)
  rcases directoryAt_eq_ok_iff.mp opened with ⟨reached, _, granted⟩
  rcases locate_below_directory located isDirectory with here | ⟨code, _, unreached⟩
  · rw [here] at reached
    cases reached
    exact granted
  · rw [unreached] at reached
    cases reached

section Granted

variable (granted : ¬ tree.Refuses links directory root .denied)

include granted

/-- Where no right is missing, all tables are found. -/
theorem mem_findTables_of_isTableBelow (found : tree.findTables links directory ".csv" = .ok paths)
    (isTable : tree.IsTableBelow directory root path) : path ∈ paths := by
  rw [findTables_csv_of_locate located rooted] at found
  rcases bind_eq_ok_iff.mp found with ⟨files, explored, same⟩
  cases same
  rw [Path.mem_sorted]
  rcases isTable with ⟨name, names, rfl, isDirectory, readable, ending, tested⟩
  rcases exists_found_of_explore (isAnswered_of_granted rooted granted) explored
    isDirectory (fun inner within _ => readable inner within) with ⟨found, selected, all⟩
  apply all
  have opened := directoryAt_of_select located granted isDirectory readable selected
  rcases exists_nodeAt_of_test tested with ⟨node, asked, _⟩
  have present := isSome_of_nodeAt_below located isDirectory asked
  rw [Path.below_cons] at tested ⊢
  exact mem_select selected opened present (Wildcard.accepts_star_literals.mpr ending) tested

/-- Where no right is missing, a path that is too long is met by every search that looks at it. -/
theorem not_refuses_nameTooLong (found : tree.findTables links directory ".csv" = .ok paths) :
    ¬ tree.Refuses links directory root .nameTooLong := by
  rintro ⟨names, ⟨⟨node, there, looked⟩, readable⟩, refused⟩
  have answers := isAnswered_of_granted rooted granted
  rw [findTables_csv_of_locate located rooted] at found
  rcases bind_eq_ok_iff.mp found with ⟨files, explored, _⟩
  have tested (property : Node → Bool) : tree.test property (directory.below names) =
      .error (.code .nameTooLong) :=
    test_eq_error_iff.mpr ⟨_, rfl, Or.inl rfl, refused⟩
  rcases looked with directoryNode | ⟨rfl, isLink⟩ | ⟨name, above, rfl, ending⟩
  · rcases exists_found_of_explore answers explored
      (isDirectory_iff.mpr ⟨node, there, directoryNode⟩) readable with ⟨_, selected, _⟩
    have unreached := locate_of_nodeAt_refused (Or.inl rfl) refused
    rw [select, directoryAt_of_locate_error unreached] at selected
    cases selected
  · cases node with
    | file bytes mode time => cases isLink
    | directory mode time => cases isLink
    | link target =>
        have listed := mem_sightings.mpr ⟨names, _, rfl, there⟩
        rcases ((Moment.start tree root).exists_found answers explored listed
          ((not_hidden_iff there).mpr readable)).1 with ⟨checked, checks⟩
        rcases exists_cons_of_link rooted there with ⟨name, above, rfl⟩
        rw [checkSighting_link, tested] at checks
        cases checks
  · have present : (tree.node? (name :: (above ++ root))).isSome = true := by
      rw [show tree.node? (name :: (above ++ root)) = _ from there]
      rfl
    have isDirectory := isDirectory_of_node? present
    have shorter (inner : List Name) (within : inner <:+ above) :
        tree.grants (inner ++ root) .read = true :=
      readable inner (within.trans (List.suffix_cons name above))
        (ne_cons_of_suffix name within)
    rcases exists_found_of_explore answers explored isDirectory
      (fun inner within _ => shorter inner within) with ⟨_, selected, _⟩
    have opened := directoryAt_of_select located granted isDirectory shorter selected
    rcases (exists_select_iff opened).mp ⟨_, selected⟩ name present
      (Wildcard.accepts_star_literals.mpr ending) with ⟨answer, answered⟩
    rw [← Path.below_cons, tested] at answered
    cases answered

end Granted

end Found

theorem exists_locate_of_test (tested : tree.test Node.isDirectory directory = .ok true) :
    ∃ root, tree.locate directory = .ok root ∧ tree.isDirectory root = true := by
  rcases exists_nodeAt_of_test tested with ⟨node, asked, directoryNode⟩
  rcases nodeAt_eq_ok_iff.mp asked with ⟨root, located, there⟩
  exact ⟨root, located, isDirectory_iff.mpr ⟨node, there, directoryNode⟩⟩

/-- The names that lead to a table that is found are names of entries of the tree. -/
theorem exists_entry_of_mem_findTables (found : tree.findTables links directory ".csv" = .ok paths)
    (inside : path ∈ paths) :
    ∃ root name names, path = directory.below (name :: names) ∧
      (tree.node? (name :: names ++ root)).isSome = true := by
  rcases findTables_csv_eq_ok_iff.mp found with ⟨_, rfl⟩ | ⟨tested, _⟩
  · cases inside
  · rcases exists_locate_of_test tested with ⟨root, located, rooted⟩
    rcases isTableBelow_of_mem_findTables located rooted found inside with
      ⟨name, names, rfl, isDirectory, _, _, isFile⟩
    rcases exists_nodeAt_of_test isFile with ⟨node, asked, _⟩
    exact ⟨root, name, names, rfl, isSome_of_nodeAt_below located isDirectory asked⟩

theorem findTables_of_refused (refusal : IsRefusal code)
    (refused : tree.nodeAt directory = .error (.code code)) :
    tree.findTables links directory ".csv" = .error (.system (.ofCode code directory.text)) := by
  have tested : tree.test Node.isDirectory directory = .error (.code code) :=
    test_eq_error_iff.mpr ⟨code, rfl, refusal, refused⟩
  rw [findTables, tested]
  rfl

/-- A search that fails was refused a path that it asks for. -/
theorem exists_refused_of_findTables
    (refused : tree.findTables links directory ".csv" = .error failure) :
    ∃ path code text, tree.Asks links directory path ∧ failure = .system (.ofCode code text) ∧
      IsRefusal code ∧ tree.nodeAt path = .error (.code code) := by
  cases tested : tree.test Node.isDirectory directory with
  | error error =>
      rcases test_eq_error_iff.mp tested with ⟨code, rfl, refusal, asked⟩
      rw [findTables_of_refused refusal asked] at refused
      cases refused
      exact ⟨directory, code, _, .itself, rfl, refusal, asked⟩
  | ok isDirectory =>
      cases isDirectory with
      | false =>
          rw [findTables, tested] at refused
          cases refused
      | true =>
          rcases exists_locate_of_test tested with ⟨root, located, rooted⟩
          rcases isRefused_of_findTables located rooted refused with
            ⟨code, text, same, refusal, names, looks, asked⟩
          exact ⟨_, code, text, .below located looks, same, refusal, asked⟩

theorem exists_system_of_findTables
    (refused : tree.findTables links directory ".csv" = .error failure) :
    ∃ cause, failure = .system cause := by
  rcases exists_refused_of_findTables refused with ⟨_, code, text, _, same, _⟩
  exact ⟨_, same⟩

/--
However links are treated, a search finds the tables in path order, each once, unless the
system refuses a path that it looks at: one that is too long ends it, and where a right is
missing, tables may be left out.
-/
theorem findTables_csv (tree : Tree) (links : LinkRule) (directory : Path) :
    (∀ code, IsRefusal code → tree.nodeAt directory = .error (.code code) →
        tree.findTables links directory ".csv" = .error (.system (.ofCode code directory.text))) ∧
      ((∀ root, tree.locate directory = .ok root → tree.isDirectory root = false) →
        (∀ code, IsRefusal code → tree.nodeAt directory ≠ .error (.code code)) →
          tree.findTables links directory ".csv" = .ok []) ∧
      ∀ root, tree.locate directory = .ok root → tree.isDirectory root = true →
        (¬ tree.Refuses links directory root .denied →
          (¬ tree.Refuses links directory root .nameTooLong →
              ∃ paths, tree.findTables links directory ".csv" = .ok paths ∧
                paths.Pairwise Path.Precedes ∧
                ∀ path, path ∈ paths ↔ tree.IsTableBelow directory root path) ∧
            (tree.Refuses links directory root .nameTooLong →
              ∃ text, tree.findTables links directory ".csv" =
                .error (.system (.ofCode .nameTooLong text)))) ∧
        (∀ paths, tree.findTables links directory ".csv" = .ok paths →
          paths.Pairwise Path.Precedes ∧
            ∀ path ∈ paths, tree.IsTableBelow directory root path) ∧
        ∀ failure, tree.findTables links directory ".csv" = .error failure →
          tree.IsRefused links directory root failure := by
  refine ⟨?_, ?_, fun root located rooted => ⟨fun granted => ?_, fun paths found => ?_, ?_⟩⟩
  · exact fun code => findTables_of_refused
  · intro elsewhere answered
    apply findTables_csv_eq_ok_iff.mpr
    left
    cases tested : tree.test Node.isDirectory directory with
    | error error =>
        rcases test_eq_error_iff.mp tested with ⟨code, _, refusal, refused⟩
        exact absurd refused (answered code refusal)
    | ok isDirectory =>
        cases isDirectory with
        | false => exact ⟨rfl, rfl⟩
        | true =>
            rcases exists_locate_of_test tested with ⟨root, located, rooted⟩
            rw [elsewhere root located] at rooted
            cases rooted
  · cases found : tree.findTables links directory ".csv" with
    | ok paths =>
        refine ⟨fun _ => ⟨paths, rfl, ordered_of_findTables found, fun path => ?_⟩, fun long => ?_⟩
        · exact ⟨isTableBelow_of_mem_findTables located rooted found,
            mem_findTables_of_isTableBelow located rooted granted found⟩
        · exact absurd long (not_refuses_nameTooLong located rooted granted found)
    | error failure =>
        rcases isRefused_of_findTables located rooted found with ⟨code, text, rfl, refusal, refused⟩
        rcases refusal with rfl | rfl
        · exact ⟨fun short => absurd refused short, fun _ => ⟨text, rfl⟩⟩
        · exact absurd refused granted
  · exact ⟨ordered_of_findTables found, fun path =>
      isTableBelow_of_mem_findTables located rooted found⟩
  · exact fun failure => isRefused_of_findTables located rooted

theorem Unlocked.not_refuses_denied (unlocked : tree.Unlocked) :
    ¬ tree.Refuses links directory root .denied := by
  rintro ⟨names, _, refused⟩
  exact unlocked.locate_ne_denied _ (locate_of_nodeAt_refused (Or.inr rfl) refused)

/--
A directory with a table, a link to it, a directory that holds a table, a link to that
directory and one more link.
-/
def linkedTables (target : Text) : Tree :=
  ((((((Tree.empty 0o700 ⟨0, 0⟩).addEntry [⟨"one.csv", by decide⟩]
    (.file "0,A,p\n".toUTF8 0o644 ⟨0, 0⟩) ⟨0, 0⟩).addEntry [⟨"two.csv", by decide⟩]
    (.link "one.csv") ⟨0, 0⟩).addEntry [⟨"inner", by decide⟩] (.directory 0o755 ⟨0, 0⟩)
    ⟨0, 0⟩).addEntry [⟨"three.csv", by decide⟩, ⟨"inner", by decide⟩]
    (.file "2,C,r\n".toUTF8 0o644 ⟨0, 0⟩) ⟨0, 0⟩).addEntry [⟨"four.csv", by decide⟩]
    (.link "inner") ⟨0, 0⟩).addEntry [⟨"other", by decide⟩] (.link target) ⟨0, 0⟩

theorem locate_linkedTables (target : Text) :
    (linkedTables target).locate (.ofText ".") = .ok [] ∧
      (linkedTables target).isDirectory [] = true ∧
      (linkedTables target).isDirectory ([⟨"inner", by decide⟩] ++ []) = true ∧
      (linkedTables target).grants [] .enter = true ∧
      (linkedTables target).node? [⟨"other", by decide⟩] = some (.link target) :=
  ⟨by cbv, by cbv, by cbv, by cbv, by cbv⟩

theorem isFile_linkedTables :
    (linkedTables overlongPart.text).test Node.isFile (.ofText "two.csv") = .ok true ∧
      (linkedTables overlongPart.text).test Node.isFile (.ofText "inner/three.csv") = .ok true ∧
      (linkedTables overlongPart.text).test Node.isFile (.ofText "four.csv") = .ok false := by
  decide +kernel

/--
The link to the file is found, and so is the table in the directory, but not the link to
it. The link to a name that is too long only ends a search that asks what it leads to.
-/
theorem findTables_csv_linkedTables :
    (∃ paths, (linkedTables overlongPart.text).findTables .passes (.ofText ".") ".csv" = .ok paths ∧
      Path.ofText "two.csv" ∈ paths ∧ Path.ofText "inner/three.csv" ∈ paths ∧
      Path.ofText "four.csv" ∉ paths) ∧
    ∃ text, (linkedTables overlongPart.text).findTables .asks (.ofText ".") ".csv" =
      .error (.system (.ofCode .nameTooLong text)) := by
  rcases locate_linkedTables overlongPart.text with ⟨located, rooted, below, granted, held⟩
  have unlocked : (linkedTables overlongPart.text).Unlocked := by decide +kernel
  have short :
      ¬ (linkedTables overlongPart.text).Refuses .passes (.ofText ".") [] .nameTooLong := by
    have each : ∀ entry ∈ (linkedTables overlongPart.text).entries,
        entry.1 ≠ [⟨"other", by decide⟩] →
          (linkedTables overlongPart.text).nodeAt ((Path.ofText ".").below entry.1) ≠
            .error (.code .nameTooLong) := by
      decide +kernel
    rintro ⟨names, ⟨⟨node, there, looked⟩, _⟩, refused⟩
    rw [List.append_nil] at there
    refine each _ (mem_entries.mpr there) ?_ refused
    rintro rfl
    rcases looked with directoryNode | ⟨asked, _⟩ | ⟨_, _, same, ending⟩
    · rw [held] at there
      cases there
      cases directoryNode
    · cases asked
    · cases same
      exact absurd ending (by decide)
  have long : (linkedTables overlongPart.text).Refuses .asks (.ofText ".") [] .nameTooLong := by
    have overlong : 255 < overlongPart.text.byteSize := by
      rw [size_overlongPart]
      decide
    refine ⟨[⟨"other", by decide⟩], ⟨⟨_, held, Or.inr (Or.inl ⟨rfl, rfl⟩)⟩, ?_⟩,
      nodeAt_of_locate_error
        (locate_of_long_link overlongPart.isPart overlong granted held (by decide))⟩
    exact fun inner within differs => unlocked.readable rooted inner
      ((List.suffix_cons_iff.mp within).resolve_left differs)
  refine ⟨?_, (((findTables_csv _ .asks _).2.2 [] located rooted).1
    unlocked.not_refuses_denied).2 long⟩
  rcases (((findTables_csv _ .passes _).2.2 [] located rooted).1
    unlocked.not_refuses_denied).1 short with ⟨paths, found, _, tables⟩
  rcases isFile_linkedTables with ⟨linked, inner, directory⟩
  refine ⟨paths, found, (tables _).mpr ?_, (tables _).mpr ?_, fun inside => ?_⟩
  · exact ⟨⟨"two.csv", by decide⟩, [], by decide +kernel, rooted, unlocked.readable rooted,
      by decide, linked⟩
  · exact ⟨⟨"three.csv", by decide⟩, [⟨"inner", by decide⟩], by decide +kernel, below,
      unlocked.readable below, by decide, inner⟩
  · rcases (tables _).mp inside with ⟨_, _, _, _, _, _, isFile⟩
    rw [directory] at isFile
    cases isFile

/-- Whether a search finds all tables that no link has to be entered for, and nothing else. -/
def FindsAllTables (tree : Tree) (links : LinkRule) (directory : Path) (root : Location) : Prop :=
  ∃ paths, tree.findTables links directory ".csv" = .ok paths ∧ paths.Pairwise Path.Precedes ∧
    ∀ path, path ∈ paths ↔ ∃ name names, path = directory.below (name :: names) ∧
      tree.isDirectory (names ++ root) = true ∧ (".csv" : Text).toList <:+ name.text.toList ∧
      tree.test Node.isFile path = .ok true

/-- A directory with a table and a link. -/
def tableAndLink (target : Text) : Tree :=
  ((Tree.empty 0o700 ⟨0, 0⟩).addEntry [⟨"one.csv", by decide⟩]
    (.file "0,A,p\n".toUTF8 0o644 ⟨0, 0⟩) ⟨0, 0⟩).addEntry [⟨"long.csv", by decide⟩]
    (.link target) ⟨0, 0⟩

theorem locate_tableAndLink (target : Text) :
    (tableAndLink target).locate (.ofText ".") = .ok [] ∧
      (tableAndLink target).isDirectory [] = true ∧
      (tableAndLink target).grants [] .enter = true ∧
      (tableAndLink target).node? [⟨"long.csv", by decide⟩] = some (.link target) :=
  ⟨by cbv, by cbv, by cbv, by cbv⟩

/-- A directory with a directory that may be entered and not read, which holds a table. -/
def tableUnlisted : Tree :=
  ((Tree.empty 0o700 ⟨0, 0⟩).addEntry [⟨"inner", by decide⟩] (.directory 0o300 ⟨0, 0⟩)
    ⟨0, 0⟩).addEntry [⟨"three.csv", by decide⟩, ⟨"inner", by decide⟩]
    (.file "0,A,p\n".toUTF8 0o644 ⟨0, 0⟩) ⟨0, 0⟩

/-- Tables are not found where a link is too long, nor where a directory may not be read. -/
theorem not_findsAllTables :
    (∀ links, ¬ ∀ (tree : Tree) (directory : Path) (root : Location), tree.Unlocked →
        (∀ part ∈ directory.parts, part.text.byteSize ≤ 255) →
          tree.locate directory = .ok root → tree.isDirectory root = true →
            tree.FindsAllTables links directory root) ∧
      ∀ links, ¬ ∀ (tree : Tree) (directory : Path) (root : Location), tree.LinkFree →
        (∀ part ∈ directory.parts, part.text.byteSize ≤ 255) →
          tree.locate directory = .ok root → tree.isDirectory root = true →
            tree.FindsAllTables links directory root := by
  constructor
  · intro links every
    have unlocked : (tableAndLink overlongPart.text).Unlocked := by decide +kernel
    have long : 255 < overlongPart.text.byteSize := by
      rw [size_overlongPart]
      decide
    rcases locate_tableAndLink overlongPart.text with ⟨located, rooted, granted, there⟩
    have present := Option.isSome_of_mem there
    rcases every _ _ _ unlocked (by decide) located rooted with ⟨paths, found, _⟩
    apply not_refuses_nameTooLong located rooted unlocked.not_refuses_denied found
    refine ⟨[⟨"long.csv", by decide⟩], looksAt_named present (by decide) ?_,
      nodeAt_of_locate_error
        (locate_of_long_link overlongPart.isPart long granted there (by decide))⟩
    exact unlocked.readable rooted
  · intro links every
    have linkFree : tableUnlisted.LinkFree := by decide +kernel
    have nothing : tableUnlisted.findTables links (.ofText ".") ".csv" = .ok [] :=
      findTables_csv_of_select (by cbv) (by cases links <;> cbv) (by cbv)
    rcases every tableUnlisted (.ofText ".") [] linkFree (by decide) (by cbv) (by cbv) with
      ⟨paths, found, _, tables⟩
    rw [nothing] at found
    cases found
    exact List.not_mem_nil ((tables (.ofText "inner/three.csv")).mpr
      ⟨⟨"three.csv", by decide⟩, [⟨"inner", by decide⟩], by decide +kernel, by cbv, by decide,
        by cbv⟩)

end Tree

end MessageTables
