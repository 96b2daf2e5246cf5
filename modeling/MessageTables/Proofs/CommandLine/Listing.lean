import MessageTables.CommandLine.Run
import MessageTables.Proofs.Batch.States
import MessageTables.Proofs.Glob.Reached

/-!
# Lists before and after a run

A list marks the modules that are not fresh. A list before a run that goes on
after errors marks those that the run generates or fails to, and a list after it
marks those that failed, so that the run reports success exactly if the list
after it marks nothing.

The list after a run finds the same tables as the one before, since the files
with the suffix of tables are the same and so are the rights to the directories
above them.
-/

namespace MessageTables

namespace Tree

variable {tree : Tree} {source target : Path} {failure : Failure}

theorem ne_generation_of_changeTime? {path : Path}
    (refused : tree.changeTime? path = .error failure) (error : GenerationError) :
    failure ≠ .generation error := by
  unfold changeTime? at refused
  split at refused
  · cases refused
  · cases refused
  · rename_i cause _ _
    cases refused
    cases cause <;> nofun

/-- Asking for the state of a module is no generating. -/
theorem ne_generation_of_isStale (refused : tree.isStale source target = .error failure)
    (error : GenerationError) : failure ≠ .generation error := by
  rw [isStale_eq] at refused
  split at refused
  · cases refused
    exact ne_generation_of_changeTime? ‹_› error
  · cases refused
  · split at refused
    · cases refused
      exact ne_generation_of_changeTime? ‹_› error
    · cases refused
    · cases refused

end Tree

namespace Batch

variable {generator : Generator} {policy : Policy} {directory : Path} {tables : List Path}
  {session after : Session}

/-- A run that goes on after errors of generating does not end in one. -/
theorem outcomesOf_ne_generation (lenient : policy.keepGoing = true) (error : GenerationError) :
    outcomesOf generator policy directory tables session ≠ .error (.generation error) after := by
  intro failed
  rcases exists_turn_of_outcomesOf_error failed with
    ⟨earlier, table, later, outcomes, middle, _, _, one⟩
  have turn := turn_generateOne generator policy directory table middle
  rw [one] at turn
  cases turn with
  | unclear lazy refused => exact Tree.ne_generation_of_isStale refused error rfl
  | stopped due refused strict =>
      rw [lenient] at strict
      cases strict
  | escaped due refused other => exact other error rfl

theorem generateAll_ne_generation {source : Path}
    (found : session.findTables source generator.inputSuffix = .ok tables)
    (lenient : policy.keepGoing = true) (error : GenerationError) :
    generateAll generator policy source directory session ≠
      .error (.generation error) after := by
  intro failed
  rcases generateAll_eq_error_iff.mp failed with ⟨refused, _⟩ | ⟨others, searched, run⟩
  · cases found.symm.trans refused
  · exact outcomesOf_ne_generation lenient error run

end Batch

namespace CommandLine

variable {source directory : Path} {tables : List Path} {session after : Session}
  {status : Nat}

/-- Whether a list marks the module of a table as out of date. -/
def marks (tree : Tree) (directory table : Path) : Bool :=
  (tree.isStale table (Generator.messageCodes.output table directory)).toOption.getD false

theorem marks_of_isStale {tree : Tree} {table : Path} {isStale : Bool}
    (answered : tree.isStale table (Generator.messageCodes.output table directory) =
      .ok isStale) : marks tree directory table = isStale := by
  rw [marks, answered]
  rfl

/-- The lines of a list that marks some of the modules. -/
def listLines (directory : Path) (marks : Path → Bool) (tables : List Path) : List Text :=
  tables.map fun table =>
    listLine table (Generator.messageCodes.output table directory) (marks table)

/-- A session with some more lines printed. -/
def withLines (session : Session) (lines : List Text) : Session :=
  { session with printed := session.printed ++ lines }

theorem print_eq (line : Text) (session : Session) :
    Action.print line session = .ok () (withLines session [line]) :=
  rfl

theorem listEach_eq_ok (listed : listEach directory tables session = .ok () after) :
    after = withLines session (listLines directory (marks session.tree directory) tables) ∧
      ∀ table ∈ tables, session.tree.isStale table
        (Generator.messageCodes.output table directory) =
          .ok (marks session.tree directory table) := by
  induction tables generalizing session with
  | nil =>
      cases listed
      refine ⟨?_, nofun⟩
      rw [listLines, List.map_nil, withLines, List.append_nil]
  | cons table tables ih =>
      rw [listEach] at listed
      rcases bind_eq_ok listed with ⟨isStale, middle, asked, printing⟩
      rcases Action.inspect_eq_ok_iff.mp asked with ⟨answered, rfl⟩
      rw [bind_of_ok (print_eq _ _)] at printing
      rcases ih printing with ⟨rfl, further⟩
      have marked := marks_of_isStale answered
      constructor
      · simp [withLines, listLines, marked]
      · intro other inside
        rcases List.mem_cons.mp inside with rfl | later
        · rw [answered, marked]
        · exact further other later

/-- A list is complete if every question has an answer. -/
theorem exists_listEach (answers : (tables.all fun table =>
    (session.tree.isStale table (Generator.messageCodes.output table directory)).isOk) = true) :
    ∃ after, listEach directory tables session = .ok () after := by
  induction tables generalizing session with
  | nil => exact ⟨session, rfl⟩
  | cons table tables ih =>
      rw [List.all_cons, Bool.and_eq_true] at answers
      rcases answers with ⟨first, rest⟩
      cases answered : session.tree.isStale table
          (Generator.messageCodes.output table directory) with
      | error failure =>
          rw [answered] at first
          cases first
      | ok isStale =>
          have inspected : Action.inspect
              (·.isStale table (Generator.messageCodes.output table directory)) session =
                .ok isStale session :=
            Action.inspect_eq_ok_iff.mpr ⟨answered, rfl⟩
          have further : ∃ after, listEach directory tables (withLines session
              [listLine table (Generator.messageCodes.output table directory) isStale]) =
                .ok () after := ih rest
          rcases further with ⟨after, done⟩
          exact ⟨after, by rw [listEach, bind_of_ok inspected, bind_of_ok (print_eq _ _), done]⟩

theorem runList_eq_ok_iff :
    runList source directory session = .ok status after ↔
      status = 0 ∧ ∃ tables, session.findTables source ".csv" = .ok tables ∧
        listEach directory tables session = .ok () after := by
  rw [runList]
  constructor
  · intro listed
    rcases bind_eq_ok listed with ⟨tables, middle, searched, listing⟩
    rcases Action.findTables_eq_ok_iff.mp searched with ⟨found, rfl⟩
    rcases bind_eq_ok listing with ⟨_, last, shown, ended⟩
    cases ended
    exact ⟨rfl, tables, found, shown⟩
  · rintro ⟨rfl, tables, found, shown⟩
    have searched : Action.findTables source Generator.messageCodes.inputSuffix session =
        .ok tables session :=
      Action.findTables_eq_ok_iff.mpr ⟨found, rfl⟩
    rw [bind_of_ok searched, bind_of_ok shown]
    rfl

theorem marks_eq_false_iff {tree : Tree} {table : Path}
    (asked : tree.isStale table (Generator.messageCodes.output table directory) =
      .ok (marks tree directory table)) :
    marks tree directory table = false ↔ tree.IsFresh directory table := by
  rw [Tree.IsFresh, asked]
  simp

/-- What the log says of a run in the end. -/
def summaryEntry (report : Report) : LogEntry :=
  ⟨.info, .commands, count report.generated.length ++ " generated, " ++
    count report.skipped.length ++ " up to date, " ++ count report.failed.length ++ " failed"⟩

/-- A run in a directory that goes on after errors reports success if nothing failed. -/
theorem runGenerate_eq_ok_iff {force : Bool}
    (isDirectory : session.tree.test Node.isDirectory source = .ok true)
    (found : session.findTables source ".csv" = .ok tables) :
    runGenerate ⟨force, true⟩ source directory session = .ok status after ↔
      ∃ report middle,
        Batch.generateAll .messageCodes ⟨force, true⟩ source directory session =
          .ok report middle ∧
        after = middle.logged (summaryEntry report) ∧
        status = if report.isOk then 0 else 1 := by
  have searched : session.findTables source Generator.messageCodes.inputSuffix = .ok tables := found
  have noError (error : GenerationError) (stopped : Session) :
      Batch.generateAll .messageCodes ⟨force, true⟩ source directory session ≠
        .error (.generation error) stopped :=
    Batch.generateAll_ne_generation searched rfl error
  rw [runGenerate, bind_of_ok (Action.ask_of_ok isDirectory), if_pos rfl]
  constructor
  · intro ran
    rcases tryCatch_eq_ok ran with done | ⟨failure, stopped, failed, handled⟩
    · rcases bind_eq_ok done with ⟨report, middle, run, reported⟩
      rcases bind_eq_ok reported with ⟨_, last, recorded, ended⟩
      cases recorded
      cases ended
      exact ⟨report, middle, run, rfl, rfl⟩
    · cases failure with
      | generation error =>
          cases run : Batch.generateAll .messageCodes ⟨force, true⟩ source directory session with
          | ok report middle =>
              rw [bind_of_ok run] at failed
              cases failed
          | error other middle =>
              rw [bind_of_error run] at failed
              cases failed
              exact absurd run (noError error _)
      | _ => cases handled
  · rintro ⟨report, middle, run, rfl, rfl⟩
    refine tryCatch_of_ok ?_ _
    rw [bind_of_ok run]
    rfl

theorem status_eq_zero_iff (report : Report) :
    (if report.isOk then 0 else 1) = 0 ↔ report.failed = [] := by
  rw [Report.isOk]
  cases report.failed <;> simp

/-- A session with a table that is no valid one and a table whose module is up to date. -/
def brokenAndFresh : Session :=
  { Session.fresh 0o022 .passes fun _ => ⟨0, 0⟩ with
    tree := (((Tree.empty 0o700 ⟨0, 0⟩).addEntry [⟨"p.csv", by decide⟩]
      (.file "no table\n".toUTF8 0o644 ⟨0, 0⟩) ⟨0, 0⟩).addEntry [⟨"q.csv", by decide⟩]
      (.file "0,Q,q\n".toUTF8 0o644 ⟨0, 0⟩) ⟨0, 0⟩).addEntry [⟨"q.py", by decide⟩]
      (.file .empty 0o644 ⟨0, 0⟩) ⟨0, 0⟩ }

theorem linkFree_brokenAndFresh : brokenAndFresh.tree.LinkFree := by
  decide +kernel

theorem findTables_brokenAndFresh (session : Session) (tree : session.tree = brokenAndFresh.tree) :
    session.findTables (.ofText ".") ".csv" = .ok [.ofText "p.csv", .ofText "q.csv"] := by
  rw [Session.findTables, tree, linkFree_brokenAndFresh.findTables_eq .passes session.links]
  exact Tree.findTables_csv_of_select (by cbv) (by cbv) (by cbv)

theorem isStale_brokenAndFresh :
    brokenAndFresh.tree.isStale (.ofText "p.csv")
        (Generator.messageCodes.output (.ofText "p.csv") (.ofText ".")) = .ok true ∧
      brokenAndFresh.tree.isStale (.ofText "q.csv")
        (Generator.messageCodes.output (.ofText "q.csv") (.ofText ".")) = .ok false :=
  ⟨by cbv, by cbv⟩

theorem runList_brokenAndFresh (session : Session)
    (tree : session.tree = brokenAndFresh.tree) :
    ∃ after, runList (.ofText ".") (.ofText ".") session = .ok 0 after ∧
      after.tree = session.tree := by
  have answers : ([Path.ofText "p.csv", .ofText "q.csv"].all fun table =>
      (session.tree.isStale table
        (Generator.messageCodes.output table (.ofText "."))).isOk) = true := by
    rw [tree, List.all_cons, List.all_cons, isStale_brokenAndFresh.1, isStale_brokenAndFresh.2]
    rfl
  rcases exists_listEach answers with ⟨after, listing⟩
  have found := findTables_brokenAndFresh session tree
  refine ⟨after, runList_eq_ok_iff.mpr ⟨rfl, _, found, listing⟩, ?_⟩
  rcases listEach_eq_ok listing with ⟨rfl, _⟩
  rfl

theorem generateAll_brokenAndFresh (session : Session)
    (tree : session.tree = brokenAndFresh.tree) :
    ∃ error after, Batch.generateAll .messageCodes ⟨false, true⟩ (.ofText ".") (.ofText ".")
        session = .ok ⟨[], [Generator.messageCodes.output (.ofText "q.csv") (.ofText ".")],
          [(.ofText "p.csv", error)]⟩ after ∧
      after.tree = session.tree := by
  have unread : ∃ error, Table.loaded brokenAndFresh.tree (.ofText "p.csv") =
      .error (.invalidTable error) := ⟨_, by cbv⟩
  rcases unread with ⟨error, unread⟩
  rcases isStale_brokenAndFresh with ⟨stale, fresh⟩
  rw [← tree] at unread stale fresh
  let problem : GenerationError := ⟨.ofText "p.csv", .invalidTable error⟩
  let noted := session.logged (Batch.failureEntry problem)
  have refused : Generator.messageCodes.generate (.ofText "p.csv")
      (Generator.messageCodes.output (.ofText "p.csv") (.ofText ".")) session =
        .error (.generation problem) session :=
    Generator.generate_of_not_loaded rfl unread
  have first : Batch.generateOne .messageCodes ⟨false, true⟩ (.ofText ".") (.ofText "p.csv")
      session = .ok (.failed (.ofText "p.csv") problem) noted := by
    have one := Batch.generateOne_of_refused ⟨false, true⟩ (Or.inr stale) refused
    rwa [if_pos rfl] at one
  have second : Batch.generateOne .messageCodes ⟨false, true⟩ (.ofText ".") (.ofText "q.csv")
      noted = .ok
        (.skipped (Generator.messageCodes.output (.ofText "q.csv") (.ofText ".")))
        (noted.logged (Batch.upToDateEntry
          (Generator.messageCodes.output (.ofText "q.csv") (.ofText ".")))) :=
    Batch.generateOne_of_fresh ⟨false, true⟩ rfl fresh
  refine ⟨problem, noted.logged (Batch.upToDateEntry
    (Generator.messageCodes.output (.ofText "q.csv") (.ofText "."))), ?_, rfl⟩
  refine Batch.generateAll_eq_ok_iff.mpr ⟨_,
    [.failed (.ofText "p.csv") problem,
      .skipped (Generator.messageCodes.output (.ofText "q.csv") (.ofText "."))],
    findTables_brokenAndFresh session tree, ?_, rfl⟩
  rw [Batch.outcomesOf_cons_of_ok first, bind_of_ok (Batch.outcomesOf_cons_of_ok second)]
  rfl

theorem notAhead_brokenAndFresh (after : Session) (table : Path)
    (inside : table ∈ [Path.ofText "p.csv", .ofText "q.csv"]) (time : Timestamp)
    (asked : brokenAndFresh.tree.changeTime? table = .ok (some time)) :
    Batch.NotAhead brokenAndFresh after time := by
  have timed : ∀ other ∈ [Path.ofText "p.csv", .ofText "q.csv"],
      brokenAndFresh.tree.changeTime? other = .ok (some ⟨0, 0⟩) :=
    List.forall_mem_cons.mpr ⟨by cbv, List.forall_mem_singleton.mpr (by cbv)⟩
  exact Batch.notAhead_of_still (fun _ => rfl) timed table inside time asked

end CommandLine

end MessageTables
