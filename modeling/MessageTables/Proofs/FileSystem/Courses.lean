import MessageTables.Proofs.FileSystem.Reach

/-!
# Courses from the top

Making the directories of a path is a course from the top: each part is a
directory already, or is made in the one before it, until the end of the parts or
the first obstacle. `Tree.course` says how far it gets and what stops it, without
making anything.

A course reads the tree along its parts and nowhere else. It also comes to the same
in a later tree that has directories which the course would have made, so that
courses which share directories do not get into each other's way.
-/

namespace MessageTables

/-- How far the making of directories gets, and what stops it. -/
structure Course where
  reached : Location
  obstacle : Option ErrorCode

namespace Tree

open TreeAction (directoryPath)

/--
Whether a right is granted at a location once missing directories have been made
with the given permissions.
-/
def allows (tree : Tree) (mode : Nat) (location : Location) (right : Right) : Bool :=
  match tree.view location with
  | some node => node.grants right
  | none => mode.testBit right.bit

/-- What making a directory in another one comes to. -/
def makePart (tree : Tree) (mode : Nat) (outer : Location) (part : Part) :
    Except ErrorCode Location :=
  if !tree.allows mode outer .enter then .error .denied
  else
    match Name.ofText? part.text with
    | none => .error .nameTooLong
    | some name =>
        match tree.view (name :: outer) with
        | some node => if node.isDirectory then .ok (name :: outer) else .error .alreadyExists
        | none => if tree.allows mode outer .write then .ok (name :: outer) else .error .denied

/--
A course that goes on by one part, if nothing has stopped it. What is no directory
stops it in another way than before.
-/
def goOn (tree : Tree) (mode : Nat) (outer : Course) (part : Part) : Course :=
  match outer.obstacle with
  | some code => ⟨outer.reached, some (if code = .alreadyExists then .notDirectory else code)⟩
  | none =>
      match tree.makePart mode outer.reached part with
      | .ok location => ⟨location, none⟩
      | .error code => ⟨outer.reached, some code⟩

/-- The course of making directories, the last part first. -/
def course (tree : Tree) (mode : Nat) : List Part → Course
  | [] => ⟨[], if tree.grants [] .enter then none else some .denied⟩
  | part :: above => tree.goOn mode (tree.course mode above) part

variable {tree before after : Tree} {mode : Nat} {part : Part} {above parts : List Part}
  {anchor : Anchor} {location outer : Location} {time : Timestamp}

theorem makePart_eq_ok_iff :
    tree.makePart mode outer part = .ok location ↔
      ∃ name, Name.ofText? part.text = some name ∧ location = name :: outer ∧
        tree.allows mode outer .enter = true ∧
        ((∃ node, tree.view location = some node ∧ node.isDirectory = true) ∨
          tree.view location = none ∧ tree.allows mode outer .write = true) := by
  unfold makePart
  constructor
  · intro made
    split at made
    · cases made
    · rename_i entered
      rw [Bool.not_eq_true', Bool.not_eq_false] at entered
      split at made
      · cases made
      · rename_i name named
        split at made
        · rename_i node seen
          split at made
          · rename_i directory
            cases made
            exact ⟨name, named, rfl, entered, Or.inl ⟨node, seen, directory⟩⟩
          · cases made
        · rename_i unseen
          split at made
          · rename_i written
            cases made
            exact ⟨name, named, rfl, entered, Or.inr ⟨unseen, written⟩⟩
          · cases made
  · rintro ⟨name, named, rfl, entered, ⟨node, seen, directory⟩ | ⟨unseen, written⟩⟩
    · simp [entered, named, seen, directory]
    · simp [entered, named, unseen, written]

theorem goOn_of_stopped {code : ErrorCode} (other : code ≠ .alreadyExists) :
    tree.goOn mode ⟨outer, some code⟩ part = ⟨outer, some code⟩ := by
  simp [goOn, other]

theorem goOn_of_made (made : tree.makePart mode outer part = .ok location) :
    tree.goOn mode ⟨outer, none⟩ part = ⟨location, none⟩ := by
  simp only [goOn, made]

theorem goOn_of_refused {code : ErrorCode} (refused : tree.makePart mode outer part = .error code) :
    tree.goOn mode ⟨outer, none⟩ part = ⟨outer, some code⟩ := by
  simp only [goOn, refused]

/-- A course that goes on stays where it was, stopped, or makes one directory more. -/
theorem goOn_cases (tree : Tree) (mode : Nat) (course : Course) (part : Part) :
    (∃ code, tree.goOn mode course part = ⟨course.reached, some code⟩) ∨
      ∃ location, course.obstacle = none ∧
        tree.makePart mode course.reached part = .ok location ∧
        tree.goOn mode course part = ⟨location, none⟩ := by
  rcases course with ⟨outer, _ | code⟩
  · cases made : tree.makePart mode outer part with
    | ok location => exact Or.inr ⟨location, rfl, rfl, goOn_of_made made⟩
    | error code => exact Or.inl ⟨code, goOn_of_refused made⟩
  · exact Or.inl ⟨_, rfl⟩

/--
A course gets as far as some of the parts name, and as far as all of them do if
nothing stops it.
-/
theorem parts_of_course (tree : Tree) (mode : Nat) (parts : List Part) :
    (tree.course mode parts).reached.map Name.part <:+ parts ∧
      ((tree.course mode parts).obstacle = none →
        (tree.course mode parts).reached.map Name.part = parts) := by
  induction parts with
  | nil => exact ⟨List.suffix_refl _, fun _ => rfl⟩
  | cons part above ih =>
      rw [course]
      rcases goOn_cases tree mode (tree.course mode above) part with
        ⟨code, same⟩ | ⟨location, clear, made, same⟩
      · rw [same]
        exact ⟨ih.1.trans (List.suffix_cons part above), (absurd · (Option.some_ne_none _))⟩
      · rcases makePart_eq_ok_iff.mp made with ⟨name, named, rfl, _⟩
        have parts : (name :: (tree.course mode above).reached).map Name.part = part :: above := by
          rw [List.map_cons, ih.2 clear]
          exact congrArg (· :: above) (Part.ext (Name.eq_of_ofText? named))
        rw [same]
        exact ⟨parts ▸ List.suffix_refl _, fun _ => parts⟩

/-- What a course would make is in a directory that allows it. -/
theorem allows_of_course {key : Location} (within : key <:+ (tree.course mode parts).reached)
    (missing : tree.view key = none) :
    key ≠ [] ∧ tree.allows mode key.tail .write = true := by
  induction parts with
  | nil =>
      rw [List.suffix_nil.mp within] at missing
      cases missing
  | cons part above ih =>
      rw [course] at within
      rcases goOn_cases tree mode (tree.course mode above) part with
        ⟨code, same⟩ | ⟨location, _, made, same⟩
      · rw [same] at within
        exact ih within
      · rw [same] at within
        rcases makePart_eq_ok_iff.mp made with ⟨name, _, rfl, _, ⟨node, seen, _⟩ | ⟨_, written⟩⟩
        · rcases List.suffix_cons_iff.mp within with rfl | further
          · rw [seen] at missing
            cases missing
          · exact ih further
        · rcases List.suffix_cons_iff.mp within with rfl | further
          · exact ⟨List.cons_ne_nil _ _, written⟩
          · exact ih further

/-! ## Courses in a later tree -/

/-- Whether a location is as it was before, or has a directory that could have been made there. -/
def SteadyAt (before after : Tree) (mode : Nat) (key : Location) : Prop :=
  after.view key = before.view key ∨
    before.view key = none ∧ after.view key = some (.directory mode ⟨0, 0⟩) ∧ key ≠ [] ∧
      before.allows mode key.tail .write = true

theorem SteadyAt.allows_eq {key : Location} (steady : before.SteadyAt after mode key)
    (right : Right) : after.allows mode key right = before.allows mode key right := by
  rcases steady with same | ⟨missing, made, _⟩
  · rw [allows, same, allows]
  · rw [allows, made, allows, missing]
    rfl

theorem makePart_congr (outside : before.SteadyAt after mode outer)
    (inside : ∀ name : Name, name.part = part → before.SteadyAt after mode (name :: outer)) :
    after.makePart mode outer part = before.makePart mode outer part := by
  rw [makePart, makePart, outside.allows_eq, outside.allows_eq]
  cases named : Name.ofText? part.text with
  | none => rfl
  | some name =>
      rcases inside name (Part.ext (Name.eq_of_ofText? named)) with
        same | ⟨missing, made, _, written⟩
      · simp only [same]
      · rw [List.tail_cons] at written
        simp only [missing, made, written, Node.isDirectory, if_true]

/-- A course comes to the same in a later tree that is steady along its parts. -/
theorem course_congr (steady : ∀ key : Location, key.map Name.part <:+ parts →
    before.SteadyAt after mode key) : after.course mode parts = before.course mode parts := by
  induction parts with
  | nil =>
      have top : after.grants [] .enter = before.grants [] .enter := by
        rcases steady [] (List.suffix_refl _) with same | ⟨missing, _⟩
        · rw [grants_eq_view, same, grants_eq_view]
        · cases missing
      rw [course, course, top]
  | cons part above ih =>
      have same := ih fun key within => steady key (within.trans (List.suffix_cons part above))
      rw [course, course, same]
      rcases shape : before.course mode above with ⟨outer, _ | code⟩
      · have named : outer.map Name.part = above := by
          have all := (parts_of_course before mode above).2
          rw [shape] at all
          exact all rfl
        have made : after.makePart mode outer part = before.makePart mode outer part := by
          apply makePart_congr
          · exact steady outer (named ▸ List.suffix_cons part above)
          · intro name last
            apply steady
            rw [List.map_cons, last, named]
        rw [goOn, goOn, made]
      · rfl

/-! ## Courses and what is there -/

/-- How what parts lead to agrees with the course of making their directories. -/
inductive Matches (tree : Tree) (mode : Nat) : Except ErrorCode Location → Course → Prop where
  | there {location : Location} (directory : tree.isDirectory location = true) :
      tree.Matches mode (.ok location) ⟨location, none⟩
  | closed (refused : tree.grants [] .enter = false) :
      tree.Matches mode (.ok []) ⟨[], some .denied⟩
  | blocked {location outer : Location} (present : (tree.view location).isSome = true)
      (noDirectory : tree.isDirectory location = false)
      (directory : tree.isDirectory outer = true) :
      tree.Matches mode (.ok location) ⟨outer, some .alreadyExists⟩
  | stopped {code : ErrorCode} {outer : Location} (known : code ≠ .noEntry)
      (other : code ≠ .alreadyExists) (directory : tree.isDirectory outer = true) :
      tree.Matches mode (.error code) ⟨outer, some code⟩
  | missing {location : Location} (absent : tree.view location = none) :
      tree.Matches mode (.error .noEntry) ⟨location, none⟩
  | ahead {location : Location} {code : ErrorCode} (other : code ≠ .alreadyExists) :
      tree.Matches mode (.error .noEntry) ⟨location, some code⟩

theorem allows_eq_grants (directory : tree.isDirectory outer = true) (mode : Nat) (right : Right) :
    tree.allows mode outer right = tree.grants outer right := by
  rw [isDirectory_eq_view] at directory
  rcases Option.any_eq_true _ _ |>.mp directory with ⟨node, seen, _⟩
  rw [allows, grants_eq_view, seen]
  rfl

theorem view_cons_of_absent (absent : tree.view location = none) (name : Name) :
    tree.view (name :: location) = none := by
  have noDirectory := isDirectory_eq_false_of_node?_eq_none (view_eq_none_iff.mp absent)
  exact view_eq_none_of_suffix noDirectory (List.suffix_cons name location)
    (List.cons_ne_self name location)

/-- Below a directory, parts and courses come to the same as long as something is there. -/
theorem matches_there (directory : tree.isDirectory outer = true) (part : Part) :
    tree.Matches mode (tree.enterPart outer part) (tree.goOn mode ⟨outer, none⟩ part) := by
  simp only [enterPart, checkEnter, directory, goOn, makePart, allows_eq_grants directory]
  cases tree.grants outer .enter with
  | false => exact .stopped (by decide) (by decide) directory
  | true =>
      cases Name.ofText? part.text with
      | none => exact .stopped (by decide) (by decide) directory
      | some name =>
          simp only [← isSome_view]
          cases seen : tree.view (name :: outer) with
          | none =>
              cases tree.grants outer .write with
              | true => exact .missing seen
              | false => exact .ahead (by decide)
          | some node =>
              have same : tree.isDirectory (name :: outer) = node.isDirectory := by
                rw [isDirectory_eq_view, seen, Option.any_some]
              cases isDirectory : node.isDirectory with
              | true =>
                  simp only [isDirectory]
                  exact .there (same.trans isDirectory)
              | false =>
                  simp only [isDirectory]
                  exact .blocked (Option.isSome_of_eq_some seen) (same.trans isDirectory) directory

theorem makePart_ne_alreadyExists (absent : tree.view outer = none) (mode : Nat) (part : Part) :
    tree.makePart mode outer part ≠ .error .alreadyExists := by
  intro made
  unfold makePart at made
  split at made
  · cases made
  split at made
  · cases made
  · rename_i name _
    rw [view_cons_of_absent absent name] at made
    simp only at made
    split at made
    · cases made
    · cases made

/-- Where nothing is, parts lead nowhere and the course goes on through missing directories. -/
theorem matches_missing (absent : tree.view outer = none) (part : Part) :
    tree.Matches mode (.error .noEntry) (tree.goOn mode ⟨outer, none⟩ part) := by
  cases made : tree.makePart mode outer part with
  | ok location =>
      rw [goOn_of_made made]
      rcases makePart_eq_ok_iff.mp made with ⟨name, _, rfl, _⟩
      exact .missing (view_cons_of_absent absent name)
  | error code =>
      rw [goOn_of_refused made]
      apply Matches.ahead
      rintro rfl
      exact makePart_ne_alreadyExists absent mode part made

/--
What parts lead to tells how the course of making their directories goes, up to
where they lead nowhere.
-/
theorem reach_matches_course (tree : Tree) (mode : Nat) (parts : List Part) :
    tree.Matches mode (tree.reach parts) (tree.course mode parts) := by
  have top := tree.isDirectory_nil
  induction parts with
  | nil =>
      rw [reach, course]
      cases granted : tree.grants [] .enter with
      | true => exact .there top
      | false => exact .closed granted
  | cons part above ih =>
      rw [reach, course]
      generalize tree.reach above = led, tree.course mode above = outer at ih
      cases ih with
      | there directory => exact matches_there directory part
      | closed refused =>
          have stays : tree.enterPart [] part = .error .denied := by
            simp [enterPart, checkEnter, top, refused, bind, Except.bind]
          change tree.Matches mode (tree.enterPart [] part) _
          rw [stays]
          exact .stopped (by decide) (by decide) top
      | @blocked location outer present noDirectory directory =>
          have stays : tree.enterPart location part = .error .notDirectory := by
            simp [enterPart, checkEnter, noDirectory, bind, Except.bind]
          change tree.Matches mode (tree.enterPart location part) _
          rw [stays]
          exact .stopped (by decide) (by decide) directory
      | stopped known other directory =>
          rw [goOn_of_stopped other]
          exact .stopped known other directory
      | missing absent => exact matches_missing absent part
      | ahead other =>
          rw [goOn_of_stopped other]
          exact .ahead other

end Tree

end MessageTables
