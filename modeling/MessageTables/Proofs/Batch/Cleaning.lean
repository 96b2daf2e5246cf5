import MessageTables.Proofs.Batch.Steps
import MessageTables.Proofs.FileSystem.Obstacles
import MessageTables.Proofs.Generation.Stages

/-!
# Removing the modules of all tables

The module of a table is removed if it can be, and otherwise nothing is done to the
tree. What can be removed does not depend on what has been removed before, so in the
end everything is gone that could be removed in the beginning, and nothing else.
-/

namespace MessageTables

namespace Batch

/-- What the log says of a module that was removed. -/
def removalEntry (output : Path) : LogEntry :=
  ⟨.info, .batch, "Removed " ++ output.text⟩

/-- What the log says of a module that was not removed. -/
def retentionEntry (output : Path) (error : SystemError) : LogEntry :=
  ⟨.error, .batch, "Failed to delete " ++ output.text ++ ": " ++ error.text⟩

variable {generator : Generator} {directory table : Path} {tables : List Path}
  {session : Session} {location : Location}

/-- Whether there is a module of one of some tables that can be removed. -/
def HoldsRemovable (generator : Generator) (directory : Path) (tables : List Path) (tree : Tree)
    (location : Location) : Prop :=
  ∃ table ∈ tables, tree.Removable (generator.output table directory) location

theorem holdsRemovable_nil (tree : Tree) (location : Location) :
    ¬ HoldsRemovable generator directory [] tree location := by
  rintro ⟨_, inside, _⟩
  exact List.not_mem_nil inside

theorem holdsRemovable_cons {tree : Tree} :
    HoldsRemovable generator directory (table :: tables) tree location ↔
      tree.Removable (generator.output table directory) location ∨
        HoldsRemovable generator directory tables tree location :=
  List.exists_mem_cons_iff _ _ _

/-! ## One module -/

theorem act_unlink_eq (path : Path) (session : Session) :
    Action.act (fun time => TreeAction.change [path] (·.unlink path time)) session =
      match session.tree.unlink path (session.clock session.readings) with
      | .ok tree => .ok () (session.acted tree)
      | .error error =>
          .error (.ofMishap (.refused error [path])) (session.acted session.tree) := by
  rw [Action.act_eq]
  cases removed : session.tree.unlink path (session.clock session.readings) with
  | ok tree => simp only [TreeAction.change, removed]
  | error error => simp only [TreeAction.change, removed]

theorem exists_cleanOne_of_removable
    (removable : session.tree.Removable (generator.output table directory) location) :
    ∃ after, cleanOne generator directory table session =
        .ok (some (generator.output table directory)) after ∧
      after.tree = session.tree.removeEntry location (session.clock session.readings) ∧
      after.log = session.log ++ [removalEntry (generator.output table directory)] := by
  have acted := act_unlink_eq (generator.output table directory) session
  rw [Tree.unlink_eq_ok_iff.mpr ⟨location, removable, rfl⟩] at acted
  refine ⟨(session.acted _).logged _, ?_, rfl, rfl⟩
  rw [cleanOne]
  apply tryCatch_of_ok
  rw [bind_of_ok acted]
  rfl

/-- A module that cannot be removed is passed over, and without a word if it is missing. -/
theorem cleanOne_of_refused {code : ErrorCode}
    (refused : session.tree.unlink (generator.output table directory)
      (session.clock session.readings) = .error (.code code)) :
    cleanOne generator directory table session =
      .ok none
        (if (SystemError.ofCode code (generator.output table directory).text).errorClass =
            .notFound then session.acted session.tree
        else (session.acted session.tree).logged (retentionEntry (generator.output table directory)
          (.ofCode code (generator.output table directory).text))) := by
  have acted := act_unlink_eq (generator.output table directory) session
  rw [refused] at acted
  rw [cleanOne, tryCatch_of_error (bind_of_error acted _)]
  have named : Failure.ofMishap (.refused (.code code) [generator.output table directory]) =
      .system (.ofCode code (generator.output table directory).text) := rfl
  simp only [named]
  split <;> rfl

theorem errorClass_ofCode_eq_notFound_iff {code : ErrorCode} {text : Text} :
    (SystemError.ofCode code text).errorClass = .notFound ↔ code = .noEntry := by
  change SystemErrorClass.ofCode (.integer code.number) = .notFound ↔ _
  cases code <;> decide

/-- What the log says of a module that something keeps from being removed. -/
def obstruction? (tree : Tree) (output : Path) : Option LogEntry :=
  (tree.obstacle? output).map fun code => retentionEntry output (.ofCode code output.text)

/-- A module that cannot be removed is passed over, and without a word only if it is missing. -/
theorem exists_cleanOne_of_unremovable (session : Session)
    (nullFree : (generator.output table directory).NullFree)
    (nothing : ∀ location, ¬ session.tree.Removable (generator.output table directory) location) :
    ∃ after, cleanOne generator directory table session = .ok none after ∧
      after.tree = session.tree ∧ after.log = session.log ++
        (obstruction? session.tree (generator.output table directory)).toList := by
  have unlinked := session.tree.unlink_eq (generator.output table directory)
    (session.clock session.readings)
  cases asked : session.tree.removal (generator.output table directory) with
  | ok location => exact absurd (Tree.removal_eq_ok_iff.mp asked) (nothing location)
  | error error =>
      rw [asked] at unlinked
      cases error with
      | nullByte => exact absurd unlinked (Tree.unlink_ne_nullByte nullFree)
      | code code =>
          refine ⟨_, cleanOne_of_refused unlinked, ?_, ?_⟩
          · split <;> rfl
          · simp only [errorClass_ofCode_eq_notFound_iff]
            split
            · rename_i missing
              rw [obstruction?, Tree.obstacle?, asked, missing]
              exact (List.append_nil _).symm
            · rename_i present
              rw [obstruction?, Tree.obstacle?_eq_some_iff.mpr ⟨present, asked⟩]
              rfl

/-! ## All modules -/

/--
A run over tables that is done, case by case: the session, the tables, what was removed
and what is left.
-/
inductive Clearing (generator : Generator) (directory : Path) :
    Session → List Path → List Path → Session → Prop where
  | nil (session : Session) : Clearing generator directory session [] [] session
  | removed {table : Path} {tables removed : List Path} {session middle after : Session}
      {location : Location} {time : Timestamp}
      (removable : session.tree.Removable (generator.output table directory) location)
      (tree : middle.tree = session.tree.removeEntry location time)
      (log : middle.log = session.log ++ [removalEntry (generator.output table directory)])
      (rest : Clearing generator directory middle tables removed after) :
      Clearing generator directory session (table :: tables)
        (generator.output table directory :: removed) after
  | kept {table : Path} {tables removed : List Path} {session middle after : Session}
      (nothing : ∀ location, ¬ session.tree.Removable (generator.output table directory) location)
      (tree : middle.tree = session.tree)
      (log : middle.log =
        session.log ++ (obstruction? session.tree (generator.output table directory)).toList)
      (rest : Clearing generator directory middle tables removed after) :
      Clearing generator directory session (table :: tables) removed after

theorem exists_clearing (session : Session)
    (nullFree : ∀ table ∈ tables, (generator.output table directory).NullFree) :
    ∃ removed after, cleanEach generator directory tables session = .ok removed after ∧
      Clearing generator directory session tables removed after := by
  induction tables generalizing session with
  | nil => exact ⟨[], session, rfl, .nil session⟩
  | cons table tables ih =>
      have later := fun other inside => nullFree other (List.mem_cons_of_mem table inside)
      by_cases some : ∃ location, session.tree.Removable (generator.output table directory) location
      · rcases some with ⟨location, removable⟩
        rcases exists_cleanOne_of_removable removable with ⟨middle, one, tree, log⟩
        rcases ih middle later with ⟨others, after, rest, clearing⟩
        refine ⟨_ :: others, after, ?_, .removed removable tree log clearing⟩
        rw [cleanEach, bind_of_ok one, bind_of_ok rest]
        rfl
      · rcases exists_cleanOne_of_unremovable session (nullFree table List.mem_cons_self)
          (not_exists.mp some) with ⟨middle, one, tree, log⟩
        rcases ih middle later with ⟨others, after, rest, clearing⟩
        refine ⟨others, after, ?_, .kept (not_exists.mp some) tree log clearing⟩
        rw [cleanEach, bind_of_ok one, bind_of_ok rest]
        rfl

/-- What is left of a tree is all but the modules that could be removed. -/
theorem Clearing.clears {removed : List Path} {after : Session}
    (clearing : Clearing generator directory session tables removed after)
    (linkFree : session.tree.LinkFree) :
    session.tree.Clears after.tree (HoldsRemovable generator directory tables session.tree) := by
  induction clearing with
  | nil session => exact .of_none (holdsRemovable_nil session.tree)
  | @removed table tables removed session middle after location time removable tree log rest ih =>
      have first := tree ▸ Tree.clears_removeEntry removable time
      refine (first.trans (ih (first.carries linkFree).linkFree)).congr fun key => ?_
      rw [holdsRemovable_cons]
      constructor
      · rintro (own | ⟨other, inside, also⟩)
        · exact Or.inl (Option.some.inj (own.found.symm.trans removable.found))
        · -- what the first removal has taken is not there for the others
          by_cases own : key = location
          · exact Or.inl own
          · exact Or.inr ⟨other, inside, (first.removable_iff linkFree).mpr ⟨also, own⟩⟩
      · rintro (rfl | ⟨other, inside, also⟩)
        · exact Or.inl removable
        · exact Or.inr ⟨other, inside, ((first.removable_iff linkFree).mp also).1⟩
  | @kept table tables removed session middle after nothing tree log rest ih =>
      rw [tree] at ih
      refine (ih linkFree).congr fun key => ?_
      rw [holdsRemovable_cons, or_iff_right (nothing key)]

theorem clean_of_found {source : Path}
    (found : session.findTables source generator.inputSuffix = .ok tables) :
    clean generator source directory session = cleanEach generator directory tables session := by
  rw [clean, bind_of_ok (Action.findTables_eq_ok_iff.mpr ⟨found, rfl⟩)]

theorem clean_of_not_found {source : Path} {failure : Failure}
    (refused : session.findTables source generator.inputSuffix = .error failure) :
    clean generator source directory session = .error failure session := by
  have searched := Action.findTables_eq source generator.inputSuffix session
  simp only [refused] at searched
  rw [clean, bind_of_error searched]

end Batch

end MessageTables
