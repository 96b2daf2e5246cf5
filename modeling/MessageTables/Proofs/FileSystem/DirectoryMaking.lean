import MessageTables.Proofs.FileSystem.Chains
import MessageTables.Proofs.FileSystem.Courses

/-!
# What making directories comes to

In a tree without links, directories are made as their course says: the program,
which begins at the last part of a path and goes back only when something is
missing, ends with the obstacle of the course and leaves the directories that the
course gets to.
-/

namespace MessageTables

namespace Tree

open TreeAction (directoryPath)

variable {tree before after : Tree} {mode : Nat} {part : Part} {above parts : List Part}
  {anchor : Anchor} {location outer : Location} {time : Timestamp}

section Making

variable (linkFree : tree.LinkFree) (descends : Part.up ∉ part :: above)
  (valid : checkPath (directoryPath anchor (part :: above)) = .ok ())

include linkFree descends valid

omit linkFree descends valid in
theorem ensureDirectory_of_refused {path : Path} {code : ErrorCode}
    (refused : tree.create path (.directory mode time) time = .error (.code code))
    (nowhere : tree.nodeAt path = .error (.code code) ∨
      tree.nodeAt path = .error (.code .noEntry)) :
    tree.ensureDirectory path mode time = .error (.code code) := by
  rw [ensureDirectory, refused]
  rcases nowhere with same | missing
  · cases code <;> simp only [test, same]
  · cases code <;> simp only [test, missing]

/-- What stops the way to a directory stops its making. -/
theorem ensureDirectory_of_nowhere {code : ErrorCode} (nowhere : tree.reach above = .error code) :
    tree.ensureDirectory (directoryPath anchor (part :: above)) mode time =
      .error (.code code) := by
  apply ensureDirectory_of_refused
  · rw [create_parts linkFree descends valid, nowhere]
    rfl
  · left
    apply nodeAt_parts_of_error linkFree descends valid
    rw [reach, nowhere]
    rfl

theorem ensureDirectory_of_unmade {code : ErrorCode} (reached : tree.reach above = .ok outer)
    (makes : tree.createPart outer part (.directory mode time) time = .error code)
    (leads : tree.enterPart outer part = .error code) :
    tree.ensureDirectory (directoryPath anchor (part :: above)) mode time =
      .error (.code code) := by
  apply ensureDirectory_of_refused
  · rw [create_parts linkFree descends valid, reached]
    exact congrArg (Except.mapError AccessError.code) makes
  · left
    apply nodeAt_parts_of_error linkFree descends valid
    rw [reach, reached]
    exact leads

theorem ensureDirectory_of_unentered {code : ErrorCode} (reached : tree.reach above = .ok outer)
    (unentered : tree.checkEnter outer = .error code) :
    tree.ensureDirectory (directoryPath anchor (part :: above)) mode time =
      .error (.code code) := by
  apply ensureDirectory_of_unmade linkFree descends valid reached
  · rw [createPart, unentered]
    rfl
  · rw [enterPart, unentered]
    rfl

theorem ensureDirectory_of_named {name : Name} (reached : tree.reach above = .ok outer)
    (entered : tree.checkEnter outer = .ok ()) (named : Name.ofText? part.text = some name) :
    tree.ensureDirectory (directoryPath anchor (part :: above)) mode time =
      match tree.view (name :: outer) with
      | some node => if node.isDirectory then .ok tree else .error (.code .alreadyExists)
      | none =>
          if tree.grants outer .write then
            .ok (tree.addEntry (name :: outer) (.directory mode time) time)
          else .error (.code .denied) := by
  have creates := create_parts linkFree descends valid (.directory mode time) time
  have leads : tree.reach (part :: above) = tree.reach above >>= (tree.enterPart · part) := rfl
  simp only [reached, createPart, enterPart, entered, named, ← isSome_view, bind, Except.bind]
    at creates leads
  cases seen : tree.view (name :: outer) with
  | none =>
      simp only [seen] at creates leads
      cases written : tree.grants outer .write with
      | true =>
          simp only [written] at creates
          rw [ensureDirectory, creates]
          rfl
      | false =>
          simp only [written] at creates
          exact ensureDirectory_of_refused creates
            (Or.inr (nodeAt_parts_of_error linkFree descends valid leads))
  | some node =>
      simp only [seen] at creates leads
      rcases Option.map_eq_some_iff.mp seen with ⟨held, found, same⟩
      have asked := nodeAt_parts_of_ok linkFree descends valid leads found
      have kind : held.isDirectory = node.isDirectory := by
        rw [← same, Node.isDirectory_lasting]
      rw [ensureDirectory, creates]
      simp only [Option.isSome_some, if_true, Except.mapError, test, asked, kind]
      cases node.isDirectory <;> rfl

/-- In a directory that is there, another one is made or found as its course says. -/
theorem ensureDirectory_of_directory (mode : Nat) (time : Timestamp)
    (reached : tree.reach above = .ok outer) (directory : tree.isDirectory outer = true) :
    (∃ location after, tree.makePart mode outer part = .ok location ∧
        tree.ensureDirectory (directoryPath anchor (part :: above)) mode time = .ok after) ∨
      ∃ code, code ≠ .noEntry ∧ tree.makePart mode outer part = .error code ∧
        tree.ensureDirectory (directoryPath anchor (part :: above)) mode time =
          .error (.code code) := by
  rw [makePart, allows_eq_grants directory, allows_eq_grants directory]
  cases granted : tree.grants outer .enter with
  | false =>
      have unentered : tree.checkEnter outer = .error .denied := by
        simp [checkEnter, directory, granted]
      exact Or.inr ⟨.denied, by decide, rfl,
        ensureDirectory_of_unentered linkFree descends valid reached unentered⟩
  | true =>
      have entered : tree.checkEnter outer = .ok () := checkEnter_eq_ok_iff.mpr ⟨directory, granted⟩
      cases named : Name.ofText? part.text with
      | none =>
          have makes : tree.createPart outer part (.directory mode time) time =
              .error .nameTooLong := by
            simp [createPart, entered, named, bind, Except.bind]
          have leads := enterPart_of_unnamed entered named
          refine Or.inr ⟨.nameTooLong, by decide, rfl, ?_⟩
          exact ensureDirectory_of_unmade linkFree descends valid reached makes leads
      | some name =>
          rw [ensureDirectory_of_named linkFree descends valid reached entered named]
          simp only [Bool.not_true, Bool.false_eq_true, if_false]
          cases tree.view (name :: outer) with
          | none =>
              cases tree.grants outer .write with
              | true => exact Or.inl ⟨_, _, rfl, rfl⟩
              | false => exact Or.inr ⟨.denied, by decide, rfl, rfl⟩
          | some node =>
              simp only
              cases node.isDirectory with
              | true => exact Or.inl ⟨_, _, rfl, rfl⟩
              | false => exact Or.inr ⟨.alreadyExists, by decide, rfl, rfl⟩

/-- What making the last of some directories comes to, as long as only that is tried. -/
theorem ensureDirectory_cases_of_course (mode : Nat) (time : Timestamp) :
    (∃ location after, tree.course mode (part :: above) = ⟨location, none⟩ ∧
        tree.ensureDirectory (directoryPath anchor (part :: above)) mode time = .ok after) ∨
      (∃ outer code, code ≠ .noEntry ∧ tree.isDirectory outer = true ∧
        tree.course mode (part :: above) = ⟨outer, some code⟩ ∧
        tree.ensureDirectory (directoryPath anchor (part :: above)) mode time =
          .error (.code code)) ∨
      tree.ensureDirectory (directoryPath anchor (part :: above)) mode time =
          .error (.code .noEntry) ∧
        ∀ code, (tree.course mode above).obstacle = some code → code ≠ .alreadyExists := by
  have agrees := reach_matches_course tree mode above
  rw [course]
  generalize led : tree.reach above = result, shape : tree.course mode above = outer at agrees
  cases agrees with
  | @there location directory =>
      rcases ensureDirectory_of_directory linkFree descends valid mode time led directory with
        ⟨inner, after, made, ensured⟩ | ⟨code, known, refused, ensured⟩
      · exact Or.inl ⟨inner, after, goOn_of_made made, ensured⟩
      · exact Or.inr (Or.inl ⟨location, code, known, directory, goOn_of_refused refused, ensured⟩)
  | closed refused =>
      have top := tree.isDirectory_nil
      have unentered : tree.checkEnter [] = .error .denied := by
        simp [checkEnter, top, refused]
      exact Or.inr (Or.inl ⟨[], .denied, by decide, top, rfl,
        ensureDirectory_of_unentered linkFree descends valid led unentered⟩)
  | @blocked location outer present noDirectory directory =>
      have unentered : tree.checkEnter location = .error .notDirectory := by
        simp [checkEnter, noDirectory]
      exact Or.inr (Or.inl ⟨outer, .notDirectory, by decide, directory, rfl,
        ensureDirectory_of_unentered linkFree descends valid led unentered⟩)
  | @stopped code outer known other directory =>
      exact Or.inr (Or.inl ⟨outer, code, known, directory, goOn_of_stopped other,
        ensureDirectory_of_nowhere linkFree descends valid led⟩)
  | missing absent =>
      refine Or.inr (Or.inr ⟨ensureDirectory_of_nowhere linkFree descends valid led, ?_⟩)
      rintro code ⟨⟩
  | ahead other =>
      refine Or.inr (Or.inr ⟨ensureDirectory_of_nowhere linkFree descends valid led, ?_⟩)
      rintro code ⟨⟩
      exact other

end Making

theorem ensureDirectory_top (tree : Tree) (mode : Nat) (time : Timestamp)
    (valid : checkPath (directoryPath anchor []) = .ok ()) :
    tree.ensureDirectory (directoryPath anchor []) mode time =
      if tree.grants [] .enter then .ok tree else .error (.code .denied) := by
  have top := tree.isDirectory_nil
  have steps : (directoryPath anchor []).steps = [.stay] := rfl
  cases granted : tree.grants [] .enter with
  | true =>
      have creates : tree.create (directoryPath anchor []) (.directory mode time) time =
          .error (.code .alreadyExists) := by
        have entered : tree.entry (directoryPath anchor []) = .ok ([], .stay) :=
          entry_eq_ok_iff.mpr ⟨valid, follow_of_found rfl, top, granted, rfl⟩
        rw [create, entered]
        rfl
      have asked : tree.nodeAt (directoryPath anchor []) = .ok tree.top := by
        rw [nodeAt_eq_ok_iff]
        refine ⟨[], locate_eq_ok_iff.mpr ⟨valid, follow_of_found ?_⟩, rfl⟩
        rw [steps, (Advance.stay top granted).walk_eq, walk_nil]
      rw [ensureDirectory, creates]
      simp only [test, asked, tree.rooted, if_true]
  | false =>
      apply ensureDirectory_of_refused
      · have entered : tree.entry (directoryPath anchor []) = .error (.code .denied) := by
          rw [entry, valid, steps, List.dropLast_singleton,
            follow_of_found (walk_nil tree [])]
          simp [bind, Except.bind, Except.mapError, top, granted]
          rfl
        rw [create, entered]
        rfl
      · left
        have walked : tree.walk [] [.stay] = .failed .denied := by
          simp [walk_cons, top, granted]
        rw [nodeAt, locate, place, valid, steps, follow, walked]
        rfl

/-- A tree in which the directories have been made that a course gets to. -/
structure Follows (before after : Tree) (mode : Nat) (parts : List Part) : Prop where
  fills : before.Fills after mode (before.course mode parts).reached
  isDirectory : (before.course mode parts).obstacle = none →
    after.isDirectory (before.course mode parts).reached = true

section Follows

variable {before after : Tree} {mode : Nat} {parts : List Part} {reached : Location}

theorem follows_top (tree : Tree) (mode : Nat) : tree.Follows tree mode [] :=
  ⟨fills_of_isDirectory tree.isDirectory_nil mode, fun _ => tree.isDirectory_nil⟩

theorem follows_of_course {obstacle : Option ErrorCode}
    (course : before.course mode parts = ⟨reached, obstacle⟩)
    (fills : before.Fills after mode reached)
    (directory : obstacle = none → after.isDirectory reached = true) :
    before.Follows after mode parts := by
  refine ⟨?_, ?_⟩
  · rw [course]
    exact fills
  · rw [course]
    exact directory

theorem follows_of_stopped {code : ErrorCode}
    (course : before.course mode parts = ⟨reached, some code⟩)
    (fills : before.Fills after mode reached) : before.Follows after mode parts :=
  follows_of_course course fills (absurd · (Option.some_ne_none code))

theorem Follows.steadyAt (follows : before.Follows after mode parts) (key : Location) :
    before.SteadyAt after mode key := by
  have view := follows.fills.view key
  split at view
  · rename_i made
    exact Or.inr ⟨made.2, view, allows_of_course made.1 made.2⟩
  · exact Or.inl view

/-- In a tree in which directories have been made, they are led to. -/
theorem Follows.reach_eq (follows : before.Follows after mode parts)
    (clear : (before.course mode parts).obstacle = none) :
    after.reach parts = .ok (before.course mode parts).reached := by
  have directory := follows.isDirectory clear
  have agrees := reach_matches_course after mode parts
  rw [course_congr fun key _ => follows.steadyAt key] at agrees
  rcases shape : before.course mode parts with ⟨outer, obstacle⟩
  rw [shape] at agrees directory clear
  cases clear
  generalize after.reach parts = led at agrees
  cases agrees with
  | there _ => rfl
  | missing absent =>
      rw [isDirectory_eq_view, absent] at directory
      cases directory

end Follows

end Tree

namespace Mishap

/-- A mishap without the paths that it was about. -/
def bare : Mishap → Mishap
  | refused error _ => refused error []
  | mishap => mishap

/-- The mishap of a step that is refused with a code, without paths. -/
def ofCode (code : ErrorCode) : Mishap :=
  refused (.code code) []

end Mishap

namespace TreeAction

/--
Whether an action has come to an obstacle, or to none, and left a tree. The paths of what
was refused are left aside.
-/
def EndsAs (ended : EStateM.Result Mishap Tree Unit) (obstacle : Option Mishap) (tree : Tree) :
    Prop :=
  match obstacle with
  | none => ended = .ok () tree
  | some bare => ∃ mishap : Mishap, mishap.bare = bare ∧ ended = .error mishap tree

theorem endsAs_of_refused {ended : EStateM.Result Mishap Tree Unit} {code : ErrorCode}
    {paths : List Path} {tree : Tree}
    (refused : ended = .error (.refused (.code code) paths) tree) :
    EndsAs ended (some (.ofCode code)) tree :=
  ⟨_, rfl, refused⟩

variable {tree made : Tree} {anchor : Anchor} {mode : Nat} {parts : List Part}

theorem directoryPath_eq_plain (anchor : Anchor)
    (clear : (tree.course mode parts).obstacle = none) :
    directoryPath anchor parts = .plain anchor (tree.course mode parts).reached := by
  rw [Path.plain, (Tree.parts_of_course tree mode parts).2 clear]
  rfl

theorem makeDirectories_top (tree : Tree) (mode : Nat) (time : Timestamp)
    (valid : Tree.checkPath (directoryPath anchor []) = .ok ()) :
    EndsAs (makeDirectories anchor mode time [] tree)
      ((tree.course mode []).obstacle.map .ofCode) tree := by
  have ensures := Tree.ensureDirectory_top tree mode time valid
  rw [Tree.course]
  cases granted : tree.grants [] .enter with
  | true =>
      rw [granted] at ensures
      exact change_of_ok ensures
  | false =>
      rw [granted] at ensures
      exact endsAs_of_refused (change_of_error ensures)

section Below

variable {part : Part} {above : List Part} (linkFree : tree.LinkFree)
  (descends : Part.up ∉ part :: above)
  (valid : Tree.checkPath (directoryPath anchor (part :: above)) = .ok ())
  (follows : tree.Follows made mode above)

include linkFree

/-- With its course clear, a directory that is made at once is what the course gets to. -/
theorem follows_of_ensureDirectory {after : Tree} {time : Timestamp}
    (clear : (tree.course mode parts).obstacle = none)
    (ensured : tree.ensureDirectory (directoryPath anchor parts) mode time = .ok after) :
    tree.Follows after mode parts := by
  rw [directoryPath_eq_plain anchor clear] at ensured
  rcases Tree.fills_of_ensureDirectory linkFree ensured with ⟨fills, directory⟩
  exact ⟨fills, fun _ => directory⟩

include descends valid follows

/-- With the directories above it made, a directory is made as its course says. -/
theorem exists_make_eq (time : Timestamp) (clear : (tree.course mode above).obstacle = none) :
    ∃ after,
      EndsAs (change [directoryPath anchor (part :: above)]
          (·.ensureDirectory (directoryPath anchor (part :: above)) mode time) made)
        ((tree.course mode (part :: above)).obstacle.map .ofCode) after ∧
      tree.Follows after mode (part :: above) := by
  have freeMade := follows.fills.linkFree linkFree
  have reached := follows.reach_eq clear
  have directory := follows.isDirectory clear
  have same : made.makePart mode (tree.course mode above).reached part =
      tree.makePart mode (tree.course mode above).reached part :=
    Tree.makePart_congr (follows.steadyAt _) fun name _ => follows.steadyAt _
  have course : tree.course mode (part :: above) =
      tree.goOn mode (tree.course mode above) part := rfl
  have fills := follows.fills
  rcases shape : tree.course mode above with ⟨outer, obstacle⟩
  rw [shape] at clear fills reached directory same course
  cases clear
  rcases Tree.ensureDirectory_of_directory freeMade descends valid mode time reached directory with
    ⟨inner, after, makes, ensured⟩ | ⟨code, _, refused, ensured⟩
  · rw [Tree.goOn_of_made (same.symm.trans makes)] at course
    have unhindered : (tree.course mode (part :: above)).obstacle = none := by rw [course]
    have plain := directoryPath_eq_plain anchor unhindered
    have done : change [directoryPath anchor (part :: above)]
        (·.ensureDirectory (directoryPath anchor (part :: above)) mode time) made =
          .ok () after := change_of_ok ensured
    rw [plain] at ensured
    rcases Tree.fills_of_ensureDirectory freeMade ensured with ⟨further, there⟩
    rcases Tree.makePart_eq_ok_iff.mp makes with ⟨name, _, rfl, _⟩
    rw [course] at further there
    refine ⟨after, ?_, ?_⟩
    · rw [course]
      exact done
    · exact Tree.follows_of_course course (fills.trans further (List.suffix_cons name outer))
        fun _ => there
  · rw [Tree.goOn_of_refused (same.symm.trans refused)] at course
    refine ⟨made, ?_, Tree.follows_of_stopped course fills⟩
    rw [course]
    exact endsAs_of_refused (change_of_error ensured)

/--
Where the directories above have to be made first, a directory is made as its course
says, unless the course has stopped above it.
-/
theorem exists_makeBelow_eq {time : Timestamp}
    (makes : EndsAs (makeDirectories anchor mode time above tree)
      ((tree.course mode above).obstacle.map .ofCode) made)
    (later : ∀ code, (tree.course mode above).obstacle = some code → code ≠ .alreadyExists) :
    ∃ after,
      EndsAs ((makeDirectories anchor mode time above >>= fun _ =>
          change [directoryPath anchor (part :: above)]
            (·.ensureDirectory (directoryPath anchor (part :: above)) mode time)) tree)
        ((tree.course mode (part :: above)).obstacle.map .ofCode) after ∧
      tree.Follows after mode (part :: above) := by
  cases stopped : (tree.course mode above).obstacle with
  | none =>
      rw [stopped] at makes
      rw [bind_of_ok makes]
      exact exists_make_eq linkFree descends valid follows time stopped
  | some code =>
      have course : tree.course mode (part :: above) =
          ⟨(tree.course mode above).reached, some code⟩ := by
        rw [← Tree.goOn_of_stopped (later code stopped), ← stopped]
        rfl
      rw [stopped] at makes
      rcases makes with ⟨mishap, bare, makes⟩
      rw [bind_of_error makes]
      refine ⟨made, ?_, Tree.follows_of_stopped course follows.fills⟩
      rw [course]
      exact ⟨mishap, bare, rfl⟩

end Below

/--
Making directories ends as its course does, and has made the directories that the
course gets to.
-/
theorem exists_makeDirectories_eq (linkFree : tree.LinkFree) (descends : Part.up ∉ parts)
    (valid : Tree.checkPath (directoryPath anchor parts) = .ok ()) (mode : Nat)
    (time : Timestamp) :
    ∃ after,
      EndsAs (makeDirectories anchor mode time parts tree)
        ((tree.course mode parts).obstacle.map .ofCode) after ∧
      tree.Follows after mode parts := by
  induction parts with
  | nil => exact ⟨tree, makeDirectories_top tree mode time valid, tree.follows_top mode⟩
  | cons part above ih =>
      rcases ih (fun among => descends (List.mem_cons_of_mem part among))
        (Path.checkPath_tail valid) with ⟨made, makes, follows⟩
      have once := Tree.ensureDirectory_cases_of_course linkFree descends valid mode time
      rcases makeDirectories_cons_cases anchor mode time part above tree with
        ⟨after, ensured, same⟩ | ⟨error, known, refused, same⟩ | ⟨missing, again⟩
      · rw [ensured] at once
        rcases once with ⟨location, _, course, _⟩ | ⟨_, _, _, _, _, other⟩ | ⟨other, _⟩
        · have clear : (tree.course mode (part :: above)).obstacle = none := by rw [course]
          refine ⟨after, ?_, follows_of_ensureDirectory linkFree clear ensured⟩
          rw [same, course]
          rfl
        · cases other
        · cases other
      · rw [refused] at once
        rcases once with
          ⟨_, _, _, other⟩ | ⟨outer, code, _, directory, course, stopped⟩ | ⟨other, _⟩
        · cases other
        · cases stopped
          have fills := Tree.fills_of_isDirectory directory mode
          refine ⟨tree, ?_, Tree.follows_of_stopped course fills⟩
          rw [same, course]
          exact endsAs_of_refused rfl
        · exact absurd (Except.error.inj other) known
      · rw [missing] at once
        rcases once with ⟨_, _, _, other⟩ | ⟨_, code, known, _, _, other⟩ | ⟨_, later⟩
        · cases other
        · exact absurd (AccessError.code.inj (Except.error.inj other)).symm known
        · rw [again]
          exact exists_makeBelow_eq linkFree descends valid follows makes later

end TreeAction

end MessageTables
