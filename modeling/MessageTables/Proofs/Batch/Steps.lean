import MessageTables.Proofs.Batch.Reports

/-!
# A run table by table

What a run over tables does with one of them, and how the runs over all tables
are made of these steps. A run that does not go on after errors ends in the first
of them; one that goes on only ends in errors that are not errors of generating.

`generateOne` is the work on one table and answers with its outcome, `outcomesOf` does
it for some tables. A run answers with the report of these outcomes: `generateEach_eq`.
-/

namespace MessageTables

namespace Action

variable {α : Type} {question : Tree → Except Failure α} {session after : Session} {answer : α}

theorem inspect_eq (question : Tree → Except Failure α) (session : Session) :
    inspect question session =
      match question session.tree with
      | .ok answer => .ok answer session
      | .error failure => .error failure session := by
  have current : (get : Action Session) session = .ok session session := rfl
  rw [inspect, bind_of_ok current]
  cases question session.tree <;> rfl

theorem inspect_eq_ok_iff :
    inspect question session = .ok answer after ↔
      question session.tree = .ok answer ∧ after = session := by
  rw [inspect_eq]
  cases question session.tree with
  | ok other => simp [eq_comm]
  | error failure => simp

theorem findTables_eq (source : Path) (suffix : String) (session : Session) :
    findTables source suffix session =
      match session.findTables source suffix with
      | .ok tables => .ok tables session
      | .error failure => .error failure session := by
  have current : (get : Action Session) session = .ok session session := rfl
  rw [findTables, bind_of_ok current, inspect_eq]
  cases session.findTables source suffix <;> rfl

theorem findTables_eq_ok_iff {source : Path} {suffix : String} {tables : List Path} :
    findTables source suffix session = .ok tables after ↔
      session.findTables source suffix = .ok tables ∧ after = session := by
  rw [findTables_eq]
  cases session.findTables source suffix with
  | ok others => simp [eq_comm]
  | error failure => simp

end Action

namespace Batch

/-- Generates the module of a table if it is due: what becomes of the table. -/
def generateIfDue (generator : Generator) (policy : Policy) (table output : Path) (due : Bool) :
    Action Outcome := do
  if due then
    match ← attempt generator policy table output with
    | some error => return .failed table error
    | none => return .generated output
  else
    Action.record .debug .batch ("Up to date: " ++ output.text)
    return .skipped output

/-- The work on one table: what becomes of it. -/
def generateOne (generator : Generator) (policy : Policy) (directory table : Path) :
    Action Outcome := do
  let output := generator.output table directory
  let due ← if policy.force then pure true else Action.inspect (·.isStale table output)
  generateIfDue generator policy table output due

/-- Works on some tables, one after the other: what becomes of each. -/
def outcomesOf (generator : Generator) (policy : Policy) (directory : Path) :
    List Path → Action (List Outcome)
  | [] => return []
  | table :: tables => do
      let outcome ← generateOne generator policy directory table
      let others ← outcomesOf generator policy directory tables
      return outcome :: others

variable {generator : Generator} {policy : Policy} {table output directory : Path}
  {tables : List Path} {session after : Session} {report : Report} {outcomes : List Outcome}

/-- What a run does with a table is one outcome more for its report. -/
theorem generateEach_cons (report : Report) (table : Path) (tables : List Path) :
    generateEach generator policy directory report (table :: tables) =
      generateOne generator policy directory table >>= fun outcome =>
        generateEach generator policy directory (report.add outcome) tables := by
  let output := generator.output table directory
  have ifDue (due : Bool) :
      (if due then do
          match ← attempt generator policy table output with
          | some error =>
              generateEach generator policy directory (report.addFailed table error) tables
          | none => generateEach generator policy directory (report.addGenerated output) tables
        else do
          Action.record .debug .batch ("Up to date: " ++ output.text)
          generateEach generator policy directory (report.addSkipped output) tables) =
        generateIfDue generator policy table output due >>= fun outcome =>
          generateEach generator policy directory (report.add outcome) tables := by
    rw [generateIfDue]
    cases due with
    | true =>
        simp only [if_true, bind_assoc]
        refine congrArg (attempt generator policy table output >>= ·) (funext fun failed => ?_)
        cases failed <;> simp only [pure_bind] <;> rfl
    | false =>
        simp only [Bool.false_eq_true, if_false, bind_assoc, pure_bind]
        rfl
  rw [generateEach, generateOne]
  split
  · simp only [pure_bind]
    exact ifDue true
  · simp only [bind_assoc]
    exact congrArg (Action.inspect (·.isStale table output) >>= ·) (funext ifDue)

/-- A run adds the report of its outcomes to the one that it is given. -/
theorem generateEach_eq (report : Report) (tables : List Path) :
    generateEach generator policy directory report tables =
      outcomesOf generator policy directory tables >>= fun outcomes =>
        return report ++ .ofOutcomes outcomes := by
  induction tables generalizing report with
  | nil =>
      rw [generateEach, outcomesOf, pure_bind, Report.ofOutcomes, Report.append_empty]
  | cons table tables ih =>
      rw [generateEach_cons, outcomesOf, bind_assoc]
      congr 1
      funext outcome
      rw [ih, bind_assoc]
      congr 1
      funext others
      rw [pure_bind, Report.ofOutcomes, Report.add_eq_append, Report.append_assoc]

theorem generateEach_eq_ok_iff {tables : List Path} {final : Report} :
    generateEach generator policy directory report tables session = .ok final after ↔
      ∃ outcomes, outcomesOf generator policy directory tables session = .ok outcomes after ∧
        final = report ++ .ofOutcomes outcomes := by
  rw [generateEach_eq]
  constructor
  · intro done
    rcases bind_eq_ok done with ⟨outcomes, middle, run, reported⟩
    cases reported
    exact ⟨outcomes, run, rfl⟩
  · rintro ⟨outcomes, run, rfl⟩
    rw [bind_of_ok run]
    rfl

/-- What a run adds to a report does not depend on what is in it already. -/
theorem generateEach_append_report {tables : List Path} {final : Report} (front : Report)
    (done : generateEach generator policy directory report tables session = .ok final after) :
    generateEach generator policy directory (front ++ report) tables session =
      .ok (front ++ final) after := by
  rcases generateEach_eq_ok_iff.mp done with ⟨outcomes, worked, rfl⟩
  exact generateEach_eq_ok_iff.mpr ⟨outcomes, worked, (Report.append_assoc ..).symm⟩

/-- What a run reports is what became of the first table and what a run over the others does. -/
theorem generateEach_cons_eq_ok {outcome : Outcome} {middle : Session}
    (one : generateOne generator policy directory table session = .ok outcome middle)
    (rest : generateEach generator policy directory .empty tables middle = .ok report after) :
    generateEach generator policy directory .empty (table :: tables) session =
      .ok (Report.empty.add outcome ++ report) after := by
  have onward := generateEach_append_report (Report.empty.add outcome) rest
  rw [Report.append_empty] at onward
  rw [generateEach_cons, bind_of_ok one, onward]

theorem attempt_of_ok (policy : Policy)
    (done : generator.generate table output session = .ok () after) :
    attempt generator policy table output session = .ok none after := by
  rw [attempt]
  apply tryCatch_of_ok
  rw [bind_of_ok done]
  rfl

/-- Only errors of generating are passed over, and only by a run that goes on after them. -/
theorem attempt_of_error {failure : Failure} (policy : Policy)
    (failed : generator.generate table output session = .error failure after) :
    attempt generator policy table output session =
      match failure with
      | .generation error =>
          if policy.keepGoing then
            .ok (some error) { after with log := after.log ++ [⟨.error, .batch, error.text⟩] }
          else .error failure after
      | failure => .error failure after := by
  rw [attempt, tryCatch_of_error (bind_of_error failed _)]
  cases failure with
  | generation error =>
      simp only
      split <;> rfl
  | system error => rfl
  | nullByte => rfl
  | invalidTable error => rfl
  | oversizedCode count => rfl
  | unencodable text => rfl
  | invalidPattern => rfl
  | notImplemented => rfl

theorem outcomesOf_cons_eq_ok
    (done : outcomesOf generator policy directory (table :: tables) session =
      .ok outcomes after) :
    ∃ outcome middle others,
      generateOne generator policy directory table session = .ok outcome middle ∧
        outcomesOf generator policy directory tables middle = .ok others after ∧
        outcomes = outcome :: others := by
  rw [outcomesOf] at done
  rcases bind_eq_ok done with ⟨outcome, middle, one, done⟩
  rcases bind_eq_ok done with ⟨others, last, rest, done⟩
  cases done
  exact ⟨outcome, middle, others, one, rest, rfl⟩

theorem generateAll_eq_ok_iff {source : Path} :
    generateAll generator policy source directory session = .ok report after ↔
      ∃ tables outcomes, session.findTables source generator.inputSuffix = .ok tables ∧
        outcomesOf generator policy directory tables session = .ok outcomes after ∧
        report = .ofOutcomes outcomes := by
  rw [generateAll]
  constructor
  · intro done
    rcases bind_eq_ok done with ⟨tables, middle, searched, run⟩
    rcases Action.findTables_eq_ok_iff.mp searched with ⟨found, rfl⟩
    rcases generateEach_eq_ok_iff.mp run with ⟨outcomes, worked, rfl⟩
    exact ⟨tables, outcomes, found, worked, rfl⟩
  · rintro ⟨tables, outcomes, found, run, rfl⟩
    rw [bind_of_ok (Action.findTables_eq_ok_iff.mpr ⟨found, rfl⟩)]
    exact generateEach_eq_ok_iff.mpr ⟨outcomes, run, rfl⟩

end Batch

end MessageTables
