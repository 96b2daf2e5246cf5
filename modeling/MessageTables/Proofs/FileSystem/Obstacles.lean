import MessageTables.Proofs.FileSystem.NullFree
import MessageTables.Proofs.FileSystem.Reach
import MessageTables.Proofs.FileSystem.Removal

/-!
# What keeps files from being removed

In a tree without links, nothing is removed at a path that ends in a name for one of
five reasons: nothing is there, a directory is there, the path goes on behind a file, it
is too long, or a right is missing. A walk that fails says which of these it is, since
the steps before the one that failed have led somewhere.

Whether and why files of one directory can be removed is decided in that directory, so
that removing one of them changes nothing for the others.
-/

namespace MessageTables

namespace Path

variable {path : Path} {part : Part}

/-- Whether the parts of a path, but for those that lead up, can be names of entries. -/
def Nameable (path : Path) : Prop :=
  ∀ part ∈ path.parts, part ≠ Part.up → IsName part.text

theorem nameable_of_short (nullFree : path.NullFree)
    (short : ∀ part ∈ path.parts, part.text.byteSize ≤ 255) : path.Nameable :=
  fun part among differs =>
    ⟨part.isPart, fun same => differs (Part.ext same), nullFree part among, short part among⟩

/-- The steps of such a path enter nothing but names. -/
theorem Nameable.isName_of_enter (nameable : path.Nameable) {text : Text}
    (among : .enter text ∈ path.parts.map fun part => Step.ofText part.text) : IsName text := by
  rcases List.mem_map.mp among with ⟨part, inside, same⟩
  cases Step.eq_of_ofText same
  apply nameable part inside
  rintro rfl
  have up : Step.ofText Part.up.text = .up := by decide
  rw [up] at same
  cases same

theorem Nameable.isName_of_mem_steps (nameable : path.Nameable) {text : Text}
    (among : .enter text ∈ path.steps) : IsName text := by
  rw [steps] at among
  split at among
  · rcases List.mem_singleton.mp among with ⟨⟩
  · exact nameable.isName_of_enter among

theorem checkPath_of_prefix {anchor : Anchor} {front back : List Part}
    (valid : Tree.checkPath ⟨anchor, front ++ back⟩ = .ok ()) :
    Tree.checkPath ⟨anchor, front⟩ = .ok () := by
  induction back using List.reverseRecOn with
  | nil => rwa [List.append_nil] at valid
  | append_singleton back part ih =>
      apply ih
      have shape : front ++ (back ++ [part]) = (part :: (front ++ back).reverse).reverse := by simp
      rw [shape] at valid
      have shorter := checkPath_tail valid
      rwa [List.reverse_reverse] at shorter

end Path

namespace Tree

variable {tree : Tree} {path directory : Path} {part other : Part}
  {location parent start : Location} {code : ErrorCode} {step : Step} {time : Timestamp}

/-! ## Walks that fail -/

/-- A step with a name that leads nowhere is taken without a right, or from no directory. -/
theorem walk_singleton_failed_cases (named : ∀ text, step = .enter text → IsName text)
    (failed : tree.walk start [step] = .failed code) :
    code = .denied ∨ code = .notDirectory ∧ tree.isDirectory start = false := by
  rw [walk_cons] at failed
  split at failed
  · rename_i noDirectory
    cases failed
    exact Or.inr ⟨rfl, by simpa using noDirectory⟩
  split at failed
  · cases failed
    exact Or.inl rfl
  · cases step with
    | enter text =>
        have isName : Name.ofText? text = some ⟨text, named text rfl⟩ := dif_pos _
        simp only [isName] at failed
        split at failed <;> cases failed
    | arrive => cases failed
    | stay => cases failed
    | up => cases failed

/-- A walk along names fails where something is missing, where a right is, or behind a file. -/
theorem walk_failed_cases {steps : List Step} (named : ∀ text, .enter text ∈ steps → IsName text)
    (failed : tree.walk start steps = .failed code) :
    code = .noEntry ∨ code = .denied ∨ code = .notDirectory ∧
      ∃ taken step rest location, steps = taken ++ step :: rest ∧
        tree.walk start taken = .found location ∧ tree.isDirectory location = false := by
  induction steps generalizing start with
  | nil => cases failed
  | cons step rest ih =>
      have later := fun text among => named text (List.mem_cons_of_mem step among)
      rcases step_cases tree start step with
        ⟨next, advance⟩ | ⟨target, ahead⟩ | ⟨name, missing⟩ | ⟨other, stuck⟩
      · rw [advance.walk_eq] at failed
        rcases ih later failed with absent | denied |
          ⟨same, taken, further, rest, location, rfl, led, noDirectory⟩
        · exact Or.inl absent
        · exact Or.inr (Or.inl denied)
        · refine Or.inr (Or.inr
            ⟨same, step :: taken, further, rest, location, rfl, ?_, noDirectory⟩)
          rw [advance.walk_eq, led]
      · rw [ahead.walk_eq] at failed
        cases failed
      · rw [missing.walk_eq] at failed
        split at failed
        · cases failed
        · cases failed
          exact Or.inl rfl
      · rw [stuck] at failed
        cases failed
        have first := fun text (same : step = .enter text) =>
          named text (same ▸ List.mem_cons_self)
        rcases walk_singleton_failed_cases first (stuck []) with denied | ⟨same, noDirectory⟩
        · exact Or.inr (Or.inl denied)
        · exact Or.inr (Or.inr ⟨same, [], step, rest, start, rfl, rfl, noDirectory⟩)

theorem isSome_of_walk (linkFree : tree.LinkFree) {steps : List Step}
    (present : (tree.node? start).isSome = true)
    (led : tree.walk start steps = .found location) : (tree.node? location).isSome = true := by
  induction steps generalizing start with
  | nil =>
      cases led
      exact present
  | cons step rest ih =>
      rcases linkFree.advance_of_walk led with ⟨next, advance, further⟩
      apply ih _ further
      cases advance with
      | arrive directory => exact present
      | stay directory granted => exact present
      | up directory granted =>
          cases start with
          | nil => exact present
          | cons name above => exact isSome_of_isDirectory (isDirectory_of_node? present)
      | enter directory granted named seen noLink =>
          rcases Option.map_eq_some_iff.mp seen with ⟨held, there, _⟩
          rw [there]
          rfl

/-- Without links, a path of names is refused for its length only if it is itself too long. -/
theorem long_of_locate (linkFree : tree.LinkFree) (nameable : path.Nameable)
    (refused : tree.locate path = .error (.code .nameTooLong)) :
    pathLimit < path.text.byteSize := by
  rw [locate, place, follow_eq linkFree] at refused
  cases checked : checkPath path with
  | error error =>
      rw [checked] at refused
      cases refused
      rcases Path.checkPath_error_cases checked with impossible | ⟨_, exceeds⟩
      · cases impossible
      · exact exceeds
  | ok _ =>
      rw [checked] at refused
      cases walked : tree.walk [] path.steps with
      | found location =>
          rw [walked] at refused
          cases refused
      | vacant parent name =>
          rw [walked] at refused
          cases refused
      | detour parent target rest => exact absurd walked (linkFree.walk_ne_detour _ _ _ _ _)
      | failed code =>
          rw [walked] at refused
          cases refused
          rcases walk_failed_cases (fun text => nameable.isName_of_mem_steps) walked with
            impossible | impossible | ⟨impossible, _⟩ <;> cases impossible

/-! ## Files at paths -/

/-- Whether a path leads to a file at a location, in a directory that may be written to. -/
structure LeadsToFile (tree : Tree) (path : Path) (location : Location) : Prop where
  located : tree.locate path = .ok location
  isFile : ∃ node, tree.node? location = some node ∧ node.isFile = true
  writable : tree.grants location.tail .write = true

/-- Whether a path goes on behind one that leads to a file. -/
def IsBehindFile (tree : Tree) (path : Path) : Prop :=
  ∃ front part rest, path.parts = front ++ part :: rest ∧
    tree.test Node.isFile ⟨path.anchor, front⟩ = .ok true

/-- In a tree without links, there are files where steps end that lead to no directory. -/
theorem isBehindFile_of_walk (linkFree : tree.LinkFree) {front rest : List Part}
    (valid : checkPath path = .ok ()) (shape : path.parts = front ++ part :: rest)
    (led : tree.walk [] (front.map fun part => Step.ofText part.text) = .found location)
    (noDirectory : tree.isDirectory location = false) : tree.IsBehindFile path := by
  refine ⟨front, part, rest, shape, ?_⟩
  have steps : (Path.mk path.anchor front).steps =
      front.map fun part => Step.ofText part.text := by
    cases front with
    | nil =>
        cases led
        rw [isDirectory_nil] at noDirectory
        cases noDirectory
    | cons first others => rfl
  have located : tree.locate ⟨path.anchor, front⟩ = .ok location := by
    have whole : checkPath ⟨path.anchor, front ++ part :: rest⟩ = .ok () := by rwa [← shape]
    rw [locate_eq_ok_iff, steps]
    exact ⟨Path.checkPath_of_prefix whole, follow_of_found led⟩
  rcases Option.isSome_iff_exists.mp (isSome_of_walk linkFree (by rw [node?_nil]; rfl) led) with
    ⟨node, there⟩
  rw [test_of_nodeAt (nodeAt_eq_ok_iff.mpr ⟨location, located, there⟩)]
  cases node with
  | file bytes mode time => rfl
  | directory mode time =>
      rw [isDirectory_iff.mpr ⟨_, there, rfl⟩] at noDirectory
      cases noDirectory
  | link target => exact absurd there (linkFree.node?_ne _ _)

/-- The last step of paths in one directory is taken from one place. -/
theorem entry_child_of_entry (entered : tree.entry (directory.child part) = .ok (parent, step))
    (other : Part) :
    tree.entry (directory.child other) =
      (checkPath (directory.child other)).map fun _ => (parent, Step.ofText other.text) := by
  rcases entry_eq_ok_iff.mp entered with ⟨_, followed, inside, granted, _⟩
  rw [Path.steps_child, List.dropLast_concat] at followed
  cases checked : checkPath (directory.child other) with
  | error error =>
      rw [entry, checked]
      rfl
  | ok _ =>
      apply entry_eq_ok_iff.mpr
      rw [Path.steps_child, List.dropLast_concat, List.getLast?_concat]
      exact ⟨checked, followed, inside, granted, rfl⟩

/-- Why nothing is removed at a path where something is in the way. -/
def obstacle? (tree : Tree) (path : Path) : Option ErrorCode :=
  match tree.removal path with
  | .error (.code .noEntry) => none
  | .error (.code code) => some code
  | _ => none

theorem obstacle?_eq_some_iff :
    tree.obstacle? path = some code ↔
      code ≠ .noEntry ∧ tree.removal path = .error (.code code) := by
  rw [obstacle?]
  constructor
  · intro found
    split at found
    · cases found
    · rename_i other present asked
      cases found
      exact ⟨present, asked⟩
    · cases found
  · rintro ⟨present, asked⟩
    rw [asked]
    cases code <;> first | exact absurd rfl present | rfl

theorem obstacle?_eq_none_of_removable (removable : tree.Removable path location) :
    tree.obstacle? path = none := by
  rw [obstacle?, removal_eq_ok_iff.mpr removable]

/-- What is in the way of removing: a directory, a file above, a path too long, a missing right. -/
inductive IsObstructed (tree : Tree) (path : Path) : Prop where
  | directory (there : tree.test Node.isDirectory path = .ok true)
  | file (behind : tree.IsBehindFile path)
  | long (exceeds : pathLimit < path.text.byteSize)
  | right (denied : tree.removal path = .error (.code .denied))

section Child

variable (linkFree : tree.LinkFree)

include linkFree

/-- Why the directory that a path's last step is taken in is not found. -/
theorem entry_child_error_cases (nameable : directory.Nameable)
    (refused : tree.entry (directory.child part) = .error (.code code)) :
    code = .noEntry ∨ code = .denied ∨
      code = .nameTooLong ∧ pathLimit < (directory.child part).text.byteSize ∨
      code = .notDirectory ∧ tree.IsBehindFile (directory.child part) := by
  rw [entry, Path.steps_child, List.dropLast_concat, follow_eq linkFree] at refused
  rcases bind_eq_error_iff.mp refused with unchecked | ⟨_, valid, refused⟩
  · rcases Path.checkPath_error_cases unchecked with impossible | ⟨same, exceeds⟩
    · cases impossible
    · cases same
      exact Or.inr (Or.inr (Or.inl ⟨rfl, exceeds⟩))
  cases walked : tree.walk [] (directory.parts.map fun part => Step.ofText part.text) with
  | found parent =>
      simp only [walked, bind, Except.bind, Except.mapError] at refused
      split at refused
      · rename_i noDirectory
        cases refused
        rw [Bool.not_eq_true'] at noDirectory
        exact Or.inr (Or.inr (Or.inr
          ⟨rfl, isBehindFile_of_walk linkFree valid rfl walked noDirectory⟩))
      split at refused
      · cases refused
        exact Or.inr (Or.inl rfl)
      · cases refused
  | vacant parent name =>
      rw [walked] at refused
      cases refused
      exact Or.inl rfl
  | detour parent target rest => exact absurd walked (linkFree.walk_ne_detour _ _ _ _ _)
  | failed other =>
      rw [walked] at refused
      cases refused
      rcases walk_failed_cases (fun text => nameable.isName_of_enter) walked with absent | denied |
        ⟨same, taken, step, rest, location, steps, led, noDirectory⟩
      · exact Or.inl absent
      · exact Or.inr (Or.inl denied)
      · rcases List.map_eq_append_iff.mp steps with ⟨front, back, parts, rfl, behind⟩
        rcases List.map_eq_cons_iff.mp behind with ⟨next, others, rfl, _, _⟩
        have shape : (directory.child part).parts = front ++ next :: (others ++ [part]) := by
          rw [Path.child, parts, List.append_assoc, List.cons_append]
        exact Or.inr (Or.inr (Or.inr
          ⟨same, isBehindFile_of_walk linkFree valid shape led noDirectory⟩))

/-- A path behind a file is refused. -/
theorem entry_of_isBehindFile (valid : checkPath (directory.child part) = .ok ())
    (behind : tree.IsBehindFile (directory.child part)) :
    tree.entry (directory.child part) = .error (.code .notDirectory) := by
  rcases behind with ⟨front, next, rest, shape, tested⟩
  rcases exists_nodeAt_of_test tested with ⟨node, asked, isFile⟩
  rcases nodeAt_eq_ok_iff.mp asked with ⟨location, located, there⟩
  have led : tree.walk [] (front.map fun part => Step.ofText part.text) = .found location :=
    walk_parts_of_locate linkFree located
  have noDirectory : tree.isDirectory location = false := by
    rw [isDirectory_eq_of_node? there, Node.isDirectory_eq_false_of_isFile isFile]
  rw [entry, Path.steps_child, List.dropLast_concat, valid]
  -- the file is where the directory should be, or on the way there
  rcases List.eq_nil_or_concat rest with rfl | ⟨others, last, rfl⟩
  · have parts : directory.parts = front := List.append_inj_left' shape rfl
    rw [parts]
    simp only [bind, Except.bind, follow_of_found led, Except.mapError, noDirectory]
    rfl
  · rw [List.concat_eq_append, ← List.cons_append, ← List.append_assoc] at shape
    have parts : directory.parts = front ++ next :: others := List.append_inj_left' shape rfl
    have failed : tree.walk [] (directory.parts.map fun part => Step.ofText part.text) =
        .failed .notDirectory := by
      rw [parts, List.map_append, (walk_append _).1 location led, List.map_cons, walk_cons,
        noDirectory]
      rfl
    simp only [bind, Except.bind, follow_of_failed failed]
    rfl

/-- Removing a file changes nothing for the others in its directory. -/
theorem removalIn_removeEntry {name : Name} (removable : tree.Removable path (name :: parent))
    (time : Timestamp) (text : Text) :
    (tree.removeEntry (name :: parent) time).removalIn parent (.enter text) =
      if text = name.text then .error (.code .noEntry)
      else tree.removalIn parent (.enter text) := by
  have clears := clears_removeEntry removable time
  have inside := isDirectory_of_entryLocation? removable.found
  cases named : Name.ofText? text with
  | none =>
      have differs : text ≠ name.text := by
        rintro rfl
        rw [Name.ofText?_text] at named
        cases named
      rw [if_neg differs, removalIn_of_unnamed named, removalIn_of_unnamed named]
  | some other =>
      have same := Name.eq_of_ofText? named
      have node : (tree.removeEntry (name :: parent) time).node? (other :: parent) =
          if other = name then none else tree.node? (other :: parent) := by
        rw [node?_removeEntry (List.cons_ne_nil name parent) time (List.cons_ne_self other parent)]
        refine if_congr ⟨fun within => ?_, ?_⟩ rfl rfl
        · exact ((List.cons.inj (within.eq_of_length rfl)).1).symm
        · rintro rfl
          exact List.suffix_refl _
      rw [removalIn_enter named, removalIn_enter named, node,
        ← (clears.carries linkFree).grants_eq inside]
      by_cases own : other = name
      · rw [if_pos own, if_pos (by rw [← own, same])]
      · rw [if_neg own, if_neg fun texts => own (Name.ext (same.trans texts))]

theorem removal_removeEntry (removable : tree.Removable (directory.child part) location)
    (descends : part ≠ Part.up) (otherDescends : other ≠ Part.up) (time : Timestamp) :
    (tree.removeEntry location time).removal (directory.child other) =
      if other = part then .error (.code .noEntry) else tree.removal (directory.child other) := by
  have carries := (clears_removeEntry removable time).carries linkFree
  rcases entryLocation?_eq_some_iff.mp removable.found with
    ⟨parent, text, name, entered, named, rfl⟩
  have later := carries.entry linkFree entered
  rcases entry_eq_ok_iff.mp entered with ⟨valid, _, _, _, last⟩
  rw [Path.steps_child, List.getLast?_concat, Option.getD_some, Step.ofText_part descends] at last
  cases last
  have first := entry_child_of_entry entered other
  have second := entry_child_of_entry later other
  rw [Step.ofText_part otherDescends] at first second
  cases checked : checkPath (directory.child other) with
  | error error =>
      rw [checked] at first second
      rw [removal_of_entry_error second, removal_of_entry_error first, if_neg]
      rintro rfl
      rw [valid] at checked
      cases checked
  | ok _ =>
      rw [checked] at first second
      rw [removal_of_entry second, removal_of_entry first,
        removalIn_removeEntry linkFree removable time]
      rw [Name.eq_of_ofText? named]
      exact if_congr Part.ext_iff.symm rfl rfl

section Named

variable (isName : IsName part.text)

include isName

theorem removable_child_iff :
    tree.Removable (directory.child part) location ↔
      tree.LeadsToFile (directory.child part) location := by
  constructor
  · rintro ⟨found, ⟨node, there, noDirectory⟩, granted⟩
    refine ⟨locate_of_node? linkFree found there, ⟨node, there, ?_⟩, granted⟩
    cases node with
    | file bytes mode time => rfl
    | directory mode time => cases noDirectory
    | link target => exact absurd there (linkFree.node?_ne _ _)
  · rintro ⟨located, ⟨node, there, isFile⟩, granted⟩
    have stepped := Step.ofText_part fun same => isName.2.1 (congrArg Part.text same)
    exact ⟨entryLocation?_of_locate linkFree stepped located,
      ⟨node, there, Node.isDirectory_eq_false_of_isFile isFile⟩, granted⟩

theorem removal_child_error_cases (nameable : directory.Nameable)
    (refused : tree.removal (directory.child part) = .error (.code code)) :
    code = .noEntry ∨ tree.IsObstructed (directory.child part) := by
  cases entered : tree.entry (directory.child part) with
  | error error =>
      have same := removal_of_entry_error entered
      rw [refused] at same
      cases same
      rcases entry_child_error_cases linkFree nameable entered with
        absent | denied | ⟨_, exceeds⟩ | ⟨_, behind⟩
      · exact Or.inl absent
      · rw [denied] at refused
        exact Or.inr (.right refused)
      · exact Or.inr (.long exceeds)
      · exact Or.inr (.file behind)
  | ok reached =>
      rcases reached with ⟨parent, step⟩
      have last := (entry_eq_ok_iff.mp entered).2.2.2.2
      rw [Path.steps_child, List.getLast?_concat, Option.getD_some,
        Step.ofText_part fun same => isName.2.1 (congrArg Part.text same)] at last
      subst last
      have named : Name.ofText? part.text = some ⟨part.text, isName⟩ := dif_pos isName
      have found := entryLocation?_eq_some_iff.mpr ⟨parent, _, _, entered, named, rfl⟩
      have whole := refused
      rw [removal_of_entry entered, removalIn_enter named] at refused
      cases there : tree.node? (⟨part.text, isName⟩ :: parent) with
      | none =>
          rw [there] at refused
          cases refused
          exact Or.inl rfl
      | some node =>
          simp only [there] at refused
          split at refused
          · cases refused
            exact Or.inr (.right whole)
          split at refused
          · rename_i isDirectory
            refine Or.inr (.directory ?_)
            rw [test_of_nodeAt (nodeAt_of_entryLocation? linkFree found there), isDirectory]
          · cases refused

/-- A directory is not removed. -/
theorem exists_removal_error_of_directory
    (there : tree.test Node.isDirectory (directory.child part) = .ok true) :
    ∃ code, code ≠ .noEntry ∧ tree.removal (directory.child part) = .error (.code code) := by
  rcases exists_nodeAt_of_test there with ⟨node, asked, isDirectory⟩
  rcases nodeAt_eq_ok_iff.mp asked with ⟨location, located, held⟩
  have stepped := Step.ofText_part fun same => isName.2.1 (congrArg Part.text same)
  have found := entryLocation?_of_locate linkFree stepped located
  rcases entryLocation?_eq_some_iff.mp found with ⟨parent, text, name, entered, named, rfl⟩
  rw [removal_of_entry entered, removalIn_enter named, held]
  simp only [isDirectory, if_true]
  split
  · exact ⟨.denied, nofun, rfl⟩
  · exact ⟨.isDirectory, nofun, rfl⟩

/-- Something is in the way of removing for one of these reasons, and for no other. -/
theorem exists_obstacle_iff (nameable : directory.Nameable) (nullFree : directory.NullFree) :
    (∃ code, tree.obstacle? (directory.child part) = some code) ↔
      tree.IsObstructed (directory.child part) := by
  constructor
  · rintro ⟨code, found⟩
    rcases obstacle?_eq_some_iff.mp found with ⟨present, refused⟩
    rcases removal_child_error_cases linkFree isName nameable refused with absent | obstructed
    · exact absurd absent present
    · exact obstructed
  · intro obstructed
    have free : (directory.child part).NullFree := nullFree.child isName.2.2.1
    simp only [obstacle?_eq_some_iff]
    rcases checkPath_cases free with valid | long
    · cases obstructed with
      | directory there => exact exists_removal_error_of_directory linkFree isName there
      | file behind =>
          exact ⟨.notDirectory, nofun,
            removal_of_entry_error (entry_of_isBehindFile linkFree valid behind)⟩
      | long exceeds =>
          have short := (Path.checkPath_eq_ok_iff.mp valid).2
          omega
      | right denied => exact ⟨.denied, nofun, denied⟩
    · refine ⟨.nameTooLong, nofun, removal_of_entry_error ?_⟩
      rw [entry, long]
      rfl

end Named

end Child

end Tree

end MessageTables
