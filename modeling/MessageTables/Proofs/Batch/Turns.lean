import MessageTables.Proofs.Batch.Steps
import MessageTables.Proofs.Generation.Stages

/-!
# The turn of a table

`Turn` lists the ways in which the work on one table ends, with what must have
been the case for each. Everything about runs over many tables is read off these
ways, by induction on the tables, so that no other proof looks into the work on
one of them.

Whether a table is due does not depend on what the policy says of errors. So the
turn of a table is the same under all policies that agree on forcing, up to the
moment at which an error of generating ends the run or is passed over.
-/

namespace MessageTables

namespace Batch

/-- What the log says of a module that was up to date. -/
def upToDateEntry (output : Path) : LogEntry :=
  ⟨.debug, .batch, "Up to date: " ++ output.text⟩

/-- What the log says of a table that failed. -/
def failureEntry (error : GenerationError) : LogEntry :=
  ⟨.error, .batch, error.text⟩

/-- Whether the module of a table is to be generated. -/
def IsDue (force : Bool) (tree : Tree) (table output : Path) : Prop :=
  force = true ∨ tree.isStale table output = .ok true

section Turns

variable (generator : Generator) (policy : Policy) (directory table : Path) (session : Session)

/-- The ways in which the work on a table ends. -/
inductive Turn : EStateM.Result Failure Session Outcome → Prop where
  /-- There is no saying whether the module is up to date. -/
  | unclear {failure : Failure} (lazy : policy.force = false)
      (refused : session.tree.isStale table (generator.output table directory) =
        .error failure) : Turn (.error failure session)
  | skipped (lazy : policy.force = false)
      (fresh : session.tree.isStale table (generator.output table directory) = .ok false) :
      Turn (.ok (.skipped (generator.output table directory))
        (session.logged (upToDateEntry (generator.output table directory))))
  | generated {after : Session}
      (due : IsDue policy.force session.tree table (generator.output table directory))
      (done : generator.generate table (generator.output table directory) session =
        .ok () after) : Turn (.ok (.generated (generator.output table directory)) after)
  /-- An error of generating is passed over. -/
  | failed {error : GenerationError} {after : Session}
      (due : IsDue policy.force session.tree table (generator.output table directory))
      (refused : generator.generate table (generator.output table directory) session =
        .error (.generation error) after)
      (lenient : policy.keepGoing = true) :
      Turn (.ok (.failed table error) (after.logged (failureEntry error)))
  /-- An error of generating ends the run. -/
  | stopped {error : GenerationError} {after : Session}
      (due : IsDue policy.force session.tree table (generator.output table directory))
      (refused : generator.generate table (generator.output table directory) session =
        .error (.generation error) after)
      (strict : policy.keepGoing = false) : Turn (.error (.generation error) after)
  /-- A failure that is no error of generating ends every run. -/
  | escaped {failure : Failure} {after : Session}
      (due : IsDue policy.force session.tree table (generator.output table directory))
      (refused : generator.generate table (generator.output table directory) session =
        .error failure after)
      (other : ∀ error, failure ≠ .generation error) : Turn (.error failure after)

variable {generator directory table session}

theorem generateOne_of_lazy (lazy : policy.force = false) :
    generateOne generator policy directory table session =
      match session.tree.isStale table (generator.output table directory) with
      | .ok stale =>
          generateIfDue generator policy table (generator.output table directory) stale session
      | .error failure => .error failure session := by
  have answered := Action.inspect_eq
    (·.isStale table (generator.output table directory)) session
  rw [generateOne, if_neg (by simp [lazy])]
  cases asked : session.tree.isStale table (generator.output table directory) with
  | error failure =>
      rw [asked] at answered
      exact bind_of_error answered _
  | ok stale =>
      rw [asked] at answered
      exact bind_of_ok answered _

theorem generateOne_of_unclear {failure : Failure} (lazy : policy.force = false)
    (refused : session.tree.isStale table (generator.output table directory) = .error failure) :
    generateOne generator policy directory table session = .error failure session := by
  simp only [generateOne_of_lazy policy lazy, refused]

theorem generateOne_of_fresh (lazy : policy.force = false)
    (fresh : session.tree.isStale table (generator.output table directory) = .ok false) :
    generateOne generator policy directory table session =
      .ok (.skipped (generator.output table directory))
        (session.logged (upToDateEntry (generator.output table directory))) := by
  simp only [generateOne_of_lazy policy lazy, fresh]
  rfl

section Due

variable (due : IsDue policy.force session.tree table (generator.output table directory))
  {after : Session}

include due

theorem generateOne_of_isDue :
    generateOne generator policy directory table session =
      generateIfDue generator policy table (generator.output table directory) true session := by
  cases force : policy.force with
  | true =>
      rw [generateOne, if_pos force]
      rfl
  | false =>
      rcases due with forced | stale
      · rw [force] at forced
        cases forced
      · simp only [generateOne_of_lazy policy force, stale]

theorem generateOne_of_generated
    (done : generator.generate table (generator.output table directory) session = .ok () after) :
    generateOne generator policy directory table session =
      .ok (.generated (generator.output table directory)) after := by
  rw [generateOne_of_isDue policy due, generateIfDue, if_pos rfl,
    bind_of_ok (attempt_of_ok policy done)]
  rfl

theorem generateOne_of_refused {error : GenerationError}
    (refused : generator.generate table (generator.output table directory) session =
      .error (.generation error) after) :
    generateOne generator policy directory table session =
      if policy.keepGoing then .ok (.failed table error) (after.logged (failureEntry error))
      else .error (.generation error) after := by
  have attempted := attempt_of_error policy refused
  rw [generateOne_of_isDue policy due, generateIfDue, if_pos rfl]
  cases lenient : policy.keepGoing with
  | true =>
      simp only [lenient, if_true] at attempted
      rw [bind_of_ok attempted]
      rfl
  | false =>
      simp only [lenient, Bool.false_eq_true, if_false] at attempted
      rw [bind_of_error attempted]
      rfl

theorem generateOne_of_escaped {failure : Failure}
    (refused : generator.generate table (generator.output table directory) session =
      .error failure after)
    (other : ∀ error, failure ≠ .generation error) :
    generateOne generator policy directory table session = .error failure after := by
  have attempted : attempt generator policy table (generator.output table directory) session =
      .error failure after := by
    rw [attempt_of_error policy refused]
    cases failure with
    | generation error => exact absurd rfl (other error)
    | _ => rfl
  rw [generateOne_of_isDue policy due, generateIfDue, if_pos rfl, bind_of_error attempted]

end Due

variable {policy} in
theorem turn_of_isDue
    (due : IsDue policy.force session.tree table (generator.output table directory)) :
    Turn generator policy directory table session
      (generateOne generator policy directory table session) := by
  cases run : generator.generate table (generator.output table directory) session with
  | ok _ after =>
      rw [generateOne_of_generated policy due run]
      exact .generated due run
  | error failure after =>
      by_cases generating : ∃ error, failure = .generation error
      · rcases generating with ⟨error, rfl⟩
        rw [generateOne_of_refused policy due run]
        cases lenient : policy.keepGoing with
        | true => exact .failed due run lenient
        | false => exact .stopped due run lenient
      · have other : ∀ error, failure ≠ .generation error := not_exists.mp generating
        rw [generateOne_of_escaped policy due run other]
        exact .escaped due run other

/-- The work on a table ends in one of the ways. -/
theorem turn_generateOne (generator : Generator) (policy : Policy) (directory table : Path)
    (session : Session) :
    Turn generator policy directory table session
      (generateOne generator policy directory table session) := by
  cases force : policy.force with
  | true => exact turn_of_isDue (Or.inl force)
  | false =>
      cases asked : session.tree.isStale table (generator.output table directory) with
      | error failure =>
          rw [generateOne_of_unclear policy force asked]
          exact .unclear force asked
      | ok stale =>
          cases stale with
          | true => exact turn_of_isDue (Or.inr asked)
          | false =>
              rw [generateOne_of_fresh policy force asked]
              exact .skipped force asked

end Turns

/-! ## Runs -/

variable {generator : Generator} {policy : Policy} {directory table : Path}
  {earlier later tables : List Path} {session middle after : Session} {outcomes : List Outcome}

theorem outcomesOf_cons_of_ok {outcome : Outcome}
    (one : generateOne generator policy directory table session = .ok outcome middle) :
    outcomesOf generator policy directory (table :: tables) session =
      (outcomesOf generator policy directory tables >>= fun others =>
        return outcome :: others) middle := by
  rw [outcomesOf]
  exact bind_of_ok one _

theorem outcomesOf_cons_of_error {failure : Failure}
    (one : generateOne generator policy directory table session = .error failure after) :
    outcomesOf generator policy directory (table :: tables) session = .error failure after := by
  rw [outcomesOf]
  exact bind_of_error one _

/-- A run over tables is done with the first of them before it begins with the others. -/
theorem outcomesOf_append (done : outcomesOf generator policy directory earlier session =
    .ok outcomes middle) (later : List Path) :
    outcomesOf generator policy directory (earlier ++ later) session =
      (outcomesOf generator policy directory later >>= fun others =>
        return outcomes ++ others) middle := by
  induction earlier generalizing session outcomes with
  | nil =>
      cases done
      exact congrFun (bind_pure (outcomesOf generator policy directory later)).symm middle
  | cons table earlier ih =>
      rcases outcomesOf_cons_eq_ok done with ⟨outcome, between, others, one, rest, rfl⟩
      rw [List.cons_append, outcomesOf_cons_of_ok one]
      cases run : outcomesOf generator policy directory later middle with
      | ok last after =>
          have further := ih rest
          rw [bind_of_ok run] at further
          rw [bind_of_ok further, bind_of_ok run]
          rfl
      | error failure after =>
          have further := ih rest
          rw [bind_of_error run] at further
          rw [bind_of_error further, bind_of_error run]

/-- A run that is done, turn by turn: one outcome for each table, in their order. -/
inductive Accounts (generator : Generator) (policy : Policy) (directory : Path) :
    Session → List Path → List Outcome → Session → Prop where
  | nil (session : Session) : Accounts generator policy directory session [] [] session
  | cons {table : Path} {tables : List Path} {outcome : Outcome} {others : List Outcome}
      {session middle after : Session}
      (turn : Turn generator policy directory table session (.ok outcome middle))
      (rest : Accounts generator policy directory middle tables others after) :
      Accounts generator policy directory session (table :: tables) (outcome :: others) after

theorem accounts_of_outcomesOf
    (done : outcomesOf generator policy directory tables session = .ok outcomes after) :
    Accounts generator policy directory session tables outcomes after := by
  induction tables generalizing session outcomes with
  | nil =>
      cases done
      exact .nil _
  | cons table tables ih =>
      rcases outcomesOf_cons_eq_ok done with ⟨outcome, middle, others, one, rest, rfl⟩
      have turn := turn_generateOne generator policy directory table session
      rw [one] at turn
      exact .cons turn (ih rest)

/-- A run that has failed has failed in the turn of some table. -/
theorem exists_turn_of_outcomesOf_error {failure : Failure}
    (failed : outcomesOf generator policy directory tables session = .error failure after) :
    ∃ earlier table later outcomes middle, tables = earlier ++ table :: later ∧
      outcomesOf generator policy directory earlier session = .ok outcomes middle ∧
      generateOne generator policy directory table middle = .error failure after := by
  induction tables generalizing session with
  | nil => cases failed
  | cons table tables ih =>
      cases one : generateOne generator policy directory table session with
      | error other stopped =>
          rw [outcomesOf_cons_of_error one] at failed
          cases failed
          exact ⟨[], table, tables, [], session, rfl, rfl, one⟩
      | ok outcome middle =>
          rw [outcomesOf_cons_of_ok one] at failed
          cases run : outcomesOf generator policy directory tables middle with
          | ok others last =>
              rw [bind_of_ok run] at failed
              cases failed
          | error other stopped =>
              rw [bind_of_error run] at failed
              cases failed
              rcases ih run with ⟨earlier, last, later, outcomes, between, rfl, done, stops⟩
              refine ⟨table :: earlier, last, later, outcome :: outcomes, between, rfl, ?_, stops⟩
              rw [outcomesOf_cons_of_ok one, bind_of_ok done]
              rfl

/-- A run that generates every module and fails for none has generated the first of them. -/
theorem generate_of_outcomesOf (forced : policy.force = true)
    (done : outcomesOf generator policy directory (table :: tables) session =
      .ok outcomes after)
    (succeeded : (Report.ofOutcomes outcomes).isOk = true) :
    ∃ middle others,
      generator.generate table (generator.output table directory) session = .ok () middle ∧
        outcomesOf generator policy directory tables middle = .ok others after ∧
        (Report.ofOutcomes others).isOk = true := by
  rcases outcomesOf_cons_eq_ok done with ⟨outcome, middle, others, one, rest, rfl⟩
  rcases Report.isOk_ofOutcomes_cons_iff.mp succeeded with ⟨noFailure, succeeded⟩
  have turn := turn_generateOne generator policy directory table session
  rw [one] at turn
  cases turn with
  | skipped lazy fresh =>
      rw [forced] at lazy
      cases lazy
  | generated due done => exact ⟨middle, others, done, rest, succeeded⟩
  | failed due refused lenient => exact absurd rfl (noFailure _ _)

theorem generateAll_of_found {source : Path}
    (found : session.findTables source generator.inputSuffix = .ok tables) :
    generateAll generator policy source directory session =
      (outcomesOf generator policy directory tables >>= fun outcomes =>
        return .ofOutcomes outcomes) session := by
  rw [generateAll, bind_of_ok (Action.findTables_eq_ok_iff.mpr ⟨found, rfl⟩), generateEach_eq]
  rfl

/-- A run over the tables that are found leaves what the work on them leaves. -/
theorem left_generateAll {source : Path}
    (found : session.findTables source generator.inputSuffix = .ok tables) :
    Session.left (generateAll generator policy source directory session) =
      Session.left (outcomesOf generator policy directory tables session) := by
  rw [generateAll_of_found found, Session.left_bind_pure]

theorem generateAll_of_not_found {source : Path} {failure : Failure}
    (refused : session.findTables source generator.inputSuffix = .error failure) :
    generateAll generator policy source directory session = .error failure session := by
  have searched := Action.findTables_eq source generator.inputSuffix session
  simp only [refused] at searched
  rw [generateAll, bind_of_error searched]

/-- A run fails when the search for tables does, or in the work on the tables found. -/
theorem generateAll_eq_error_iff {source : Path} {failure : Failure} :
    generateAll generator policy source directory session = .error failure after ↔
      (session.findTables source generator.inputSuffix = .error failure ∧ after = session) ∨
        ∃ tables, session.findTables source generator.inputSuffix = .ok tables ∧
          outcomesOf generator policy directory tables session = .error failure after := by
  cases search : session.findTables source generator.inputSuffix with
  | error other =>
      rw [generateAll_of_not_found search]
      simp [eq_comm]
  | ok tables =>
      rw [generateAll_of_found search]
      cases run : outcomesOf generator policy directory tables session with
      | ok outcomes last =>
          rw [bind_of_ok run]
          simp [run, pure, EStateM.pure]
      | error other last =>
          rw [bind_of_error run]
          simp [run]

end Batch

end MessageTables
