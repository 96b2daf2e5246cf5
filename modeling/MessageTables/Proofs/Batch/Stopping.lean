import MessageTables.Proofs.Batch.Turns
import MessageTables.Proofs.Generation.Failure
import MessageTables.Proofs.Glob.Tables

/-!
# Runs that stop and runs that go on

A run that stops at errors and one that goes on are the same run up to the first
table that fails. There the first ends, with the error that the second puts into
its report and in the tree that the second goes on in.

The invariant is that both have come to the same session; it is carried through
the tables by `Turn`, whose ways agree for both kinds of runs as long as no table
fails.
-/

namespace MessageTables

namespace Batch

variable {generator : Generator} {force : Bool} {directory table : Path} {tables : List Path}
  {session middle after : Session} {report : Report} {outcome : Outcome}
  {outcomes : List Outcome}

/-- A table that does not fail has the same turn in both kinds of runs. -/
theorem generateOne_of_no_failure (keepGoing : Bool)
    (one : generateOne generator ⟨force, true⟩ directory table session = .ok outcome middle)
    (noFailure : ∀ table error, outcome ≠ .failed table error) :
    generateOne generator ⟨force, keepGoing⟩ directory table session = .ok outcome middle := by
  have turn := turn_generateOne generator ⟨force, true⟩ directory table session
  rw [one] at turn
  cases turn with
  | skipped lazy fresh => exact generateOne_of_fresh ⟨force, keepGoing⟩ lazy fresh
  | generated due done => exact generateOne_of_generated ⟨force, keepGoing⟩ due done
  | failed due refused lenient => exact absurd rfl (noFailure _ _)

/-- A run up to the first table that fails in it. -/
structure FirstFailure (generator : Generator) (force : Bool) (directory : Path)
    (session : Session) (tables : List Path) where
  earlier : List Path
  table : Path
  later : List Path
  /-- What became of the tables before. -/
  report : Report
  /-- The session that the table found. -/
  before : Session
  error : GenerationError
  /-- The session that the error left. -/
  stopped : Session
  parts : tables = earlier ++ table :: later
  noFailure : report.failed = []
  reached : ∀ keepGoing,
    generateEach generator ⟨force, keepGoing⟩ directory .empty earlier session = .ok report before
  due : IsDue force before.tree table (generator.output table directory)
  refused : generator.generate table (generator.output table directory) before =
    .error (.generation error) stopped

namespace FirstFailure

/-- A run that does not go on ends in the first failure. -/
theorem outcomesOf_eq_error (first : FirstFailure generator force directory session tables) :
    outcomesOf generator ⟨force, false⟩ directory tables session =
      .error (.generation first.error) first.stopped := by
  have stops : generateOne generator ⟨force, false⟩ directory first.table first.before =
      .error (.generation first.error) first.stopped :=
    generateOne_of_refused ⟨force, false⟩ first.due first.refused
  rcases generateEach_eq_ok_iff.mp (first.reached false) with ⟨outcomes, worked, _⟩
  have run : outcomesOf generator ⟨force, false⟩ directory
      (first.earlier ++ first.table :: first.later) session =
        .error (.generation first.error) first.stopped := by
    rw [outcomesOf_append worked, bind_of_error (outcomesOf_cons_of_error stops)]
  rwa [← first.parts] at run

/-- The first failure behind a table that does not fail. -/
def behind (one : ∀ keepGoing, generateOne generator ⟨force, keepGoing⟩ directory table session =
      .ok outcome middle)
    (noFailure : ∀ table error, outcome ≠ .failed table error)
    (first : FirstFailure generator force directory middle tables) :
    FirstFailure generator force directory session (table :: tables) where
  earlier := table :: first.earlier
  table := first.table
  later := first.later
  report := Report.empty.add outcome ++ first.report
  before := first.before
  error := first.error
  stopped := first.stopped
  parts := congrArg (table :: ·) first.parts
  noFailure := by
    rw [Report.failed_append, first.noFailure, List.append_nil]
    cases outcome with
    | failed table error => exact absurd rfl (noFailure table error)
    | generated output => rfl
    | skipped output => rfl
  reached keepGoing := generateEach_cons_eq_ok (one keepGoing) (first.reached keepGoing)
  due := first.due
  refused := first.refused

end FirstFailure

/-- Without a failure, both kinds of runs are the same. -/
theorem outcomesOf_of_no_failure (keepGoing : Bool)
    (done : outcomesOf generator ⟨force, true⟩ directory tables session = .ok outcomes after)
    (succeeded : (Report.ofOutcomes outcomes).isOk = true) :
    outcomesOf generator ⟨force, keepGoing⟩ directory tables session = .ok outcomes after := by
  induction tables generalizing session outcomes with
  | nil => exact done
  | cons table tables ih =>
      rcases outcomesOf_cons_eq_ok done with ⟨outcome, middle, others, one, rest, rfl⟩
      rcases Report.isOk_ofOutcomes_cons_iff.mp succeeded with ⟨here, further⟩
      rw [outcomesOf_cons_of_ok (generateOne_of_no_failure keepGoing one here),
        bind_of_ok (ih rest further)]
      rfl

/-- The first entry of a report about failures comes from the first failure of the run. -/
theorem exists_firstFailure {error : GenerationError} {failures : List (Path × GenerationError)}
    (done : outcomesOf generator ⟨force, true⟩ directory tables session = .ok outcomes after)
    (entries : (Report.ofOutcomes outcomes).failed = (table, error) :: failures) :
    ∃ first : FirstFailure generator force directory session tables,
      first.table = table ∧ first.error = error ∧
        generateEach generator ⟨force, true⟩ directory (first.report.addFailed table error)
          first.later (first.stopped.logged (failureEntry error)) =
            .ok (.ofOutcomes outcomes) after := by
  induction tables generalizing session outcomes with
  | nil =>
      cases done
      cases entries
  | cons next tables ih =>
      rcases outcomesOf_cons_eq_ok done with ⟨outcome, middle, others, one, rest, rfl⟩
      by_cases noFailure : ∀ table error, outcome ≠ .failed table error
      · rw [Report.failed_ofOutcomes_cons noFailure] at entries
        rcases ih rest entries with ⟨first, same, equal, further⟩
        have both (keepGoing : Bool) := generateOne_of_no_failure keepGoing one noFailure
        refine ⟨first.behind both noFailure, same, equal, ?_⟩
        have onward := generateEach_append_report (Report.empty.add outcome) further
        rwa [← Report.addFailed_append] at onward
      · have turn := turn_generateOne generator ⟨force, true⟩ directory next session
        rw [one] at turn
        cases turn with
        | skipped lazy fresh => exact absurd (fun _ _ => nofun) noFailure
        | generated due ended => exact absurd (fun _ _ => nofun) noFailure
        | @failed cause stopped due refused lenient =>
            rcases Prod.mk.inj (List.cons.inj entries).1 with ⟨rfl, rfl⟩
            exact ⟨⟨[], _, tables, .empty, session, _, stopped, rfl, rfl, fun _ => rfl, due,
              refused⟩, rfl, rfl, generateEach_eq_ok_iff.mpr ⟨others, rest, rfl⟩⟩

/-- Runs that stop at errors and runs that go on agree up to the first failure. -/
theorem generateAll_stopping_of_keepGoing {source : Path}
    (done : generateAll generator ⟨force, true⟩ source directory session = .ok report after) :
    (report.failed = [] →
        generateAll generator ⟨force, false⟩ source directory session = .ok report after) ∧
      ∀ table error failures, report.failed = (table, error) :: failures →
        ∃ tables, session.findTables source generator.inputSuffix = .ok tables ∧
          ∃ first : FirstFailure generator force directory session tables,
            first.table = table ∧ first.error = error ∧
            generateAll generator ⟨force, false⟩ source directory session =
              .error (.generation error) first.stopped ∧
            generateEach generator ⟨force, true⟩ directory (first.report.addFailed table error)
              first.later (first.stopped.logged (failureEntry error)) = .ok report after ∧
            first.before.tree.Survives first.stopped.tree (generator.output table directory) := by
  rcases generateAll_eq_ok_iff.mp done with ⟨tables, outcomes, found, run, rfl⟩
  constructor
  · intro noFailure
    have same := outcomesOf_of_no_failure false run (Report.isOk_iff.mpr noFailure)
    exact generateAll_eq_ok_iff.mpr ⟨tables, outcomes, found, same, rfl⟩
  · intro table error failures entries
    rcases exists_firstFailure run entries with ⟨first, rfl, rfl, further⟩
    refine ⟨tables, found, first, rfl, rfl, ?_, further, ?_⟩
    · exact generateAll_eq_error_iff.mpr (Or.inr ⟨tables, found, first.outcomesOf_eq_error⟩)
    · exact Generator.survives_of_failed first.refused

/-- A session with a table that is no valid one between two that are. -/
def faultBetween : Session :=
  { Session.fresh 0o022 .passes fun _ => ⟨0, 0⟩ with
    tree := (((Tree.empty 0o700 ⟨0, 0⟩).addEntry [⟨"alpha.csv", by decide⟩]
      (.file "0,A,p\n".toUTF8 0o644 ⟨0, 0⟩) ⟨0, 0⟩).addEntry [⟨"beta.csv", by decide⟩]
      (.file "broken\n".toUTF8 0o644 ⟨0, 0⟩) ⟨0, 0⟩).addEntry [⟨"gamma.csv", by decide⟩]
      (.file "2,C,r\n".toUTF8 0o644 ⟨0, 0⟩) ⟨0, 0⟩ }

theorem findTables_faultBetween :
    faultBetween.findTables (.ofText ".") ".csv" =
      .ok [.ofText "alpha.csv", .ofText "beta.csv", .ofText "gamma.csv"] :=
  Tree.findTables_csv_of_select (by cbv) (by cbv) (by cbv)

/-- The run that goes on has one failure, which is where the other run ends. -/
theorem generateAll_stopping_of_keepGoing_faultBetween :
    ∃ report after table error failures,
      generateAll .messageCodes ⟨false, true⟩ (.ofText ".") (.ofText "o") faultBetween =
          .ok report after ∧
        report.failed = (table, error) :: failures ∧
        table = .ofText "beta.csv" ∧
        ∃ stopped, generateAll .messageCodes ⟨false, false⟩ (.ofText ".") (.ofText "o")
          faultBetween = .error (.generation error) stopped := by
  have run : isDoneWith (fun outcomes _ =>
      decide ((Report.ofOutcomes outcomes).failed.map Prod.fst = [Path.ofText "beta.csv"]))
      (outcomesOf .messageCodes ⟨false, true⟩ (.ofText "o")
        [.ofText "alpha.csv", .ofText "beta.csv", .ofText "gamma.csv"] faultBetween) =
          true := by
    decide +kernel
  rcases exists_of_isDoneWith run with ⟨outcomes, after, done, fails⟩
  have all : generateAll .messageCodes ⟨false, true⟩ (.ofText ".") (.ofText "o")
      faultBetween = .ok (.ofOutcomes outcomes) after :=
    generateAll_eq_ok_iff.mpr ⟨_, outcomes, findTables_faultBetween, done, rfl⟩
  cases entries : (Report.ofOutcomes outcomes).failed with
  | nil =>
      rw [entries] at fails
      exact absurd fails (by decide)
  | cons entry failures =>
      rcases (generateAll_stopping_of_keepGoing all).2 entry.1 entry.2 failures entries with
        ⟨_, _, first, _, _, stops, _⟩
      rw [entries] at fails
      have tables := of_decide_eq_true fails
      exact ⟨.ofOutcomes outcomes, after, entry.1, entry.2, failures, all, entries,
        (List.cons.inj tables).1, first.stopped, stops⟩

end Batch

end MessageTables
