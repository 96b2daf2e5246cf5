import MessageTables.Batch
import MessageTables.Proofs.Actions

/-!
# Reports and outcomes

A report tells what became of the tables in three lists, and not in which order
they were worked on. An `Outcome` is what became of one table. To add it to a report
is to add to one of the three lists, so a row of outcomes gives a report; what is
proved of runs is proved of their rows of outcomes and read off the report of them.

Reports of runs one after the other are put together list by list.
-/

namespace MessageTables

/-- What became of a table. -/
inductive Outcome where
  | generated (output : Path)
  | skipped (output : Path)
  | failed (table : Path) (error : GenerationError)
  deriving DecidableEq

namespace Report

/-- The report with one more outcome, in the list that it belongs to. -/
def add (report : Report) : Outcome → Report
  | .generated output => report.addGenerated output
  | .skipped output => report.addSkipped output
  | .failed table error => report.addFailed table error

instance : Append Report :=
  ⟨fun first second => ⟨first.generated ++ second.generated, first.skipped ++ second.skipped,
    first.failed ++ second.failed⟩⟩

/-- The report of some outcomes. -/
def ofOutcomes : List Outcome → Report
  | [] => empty
  | outcome :: outcomes => empty.add outcome ++ ofOutcomes outcomes

section Append

variable (first second third report : Report)

@[simp] theorem generated_append :
    (first ++ second).generated = first.generated ++ second.generated :=
  rfl

@[simp] theorem skipped_append : (first ++ second).skipped = first.skipped ++ second.skipped :=
  rfl

@[simp] theorem failed_append : (first ++ second).failed = first.failed ++ second.failed :=
  rfl

theorem append_assoc : first ++ second ++ third = first ++ (second ++ third) :=
  Report.mk.injEq .. |>.mpr
    ⟨List.append_assoc .., List.append_assoc .., List.append_assoc ..⟩

@[simp] theorem append_empty : report ++ empty = report :=
  Report.mk.injEq .. |>.mpr ⟨List.append_nil _, List.append_nil _, List.append_nil _⟩

theorem add_eq_append (outcome : Outcome) : report.add outcome = report ++ empty.add outcome := by
  cases outcome with
  | generated output =>
      exact Report.mk.injEq .. |>.mpr ⟨rfl, (List.append_nil _).symm, (List.append_nil _).symm⟩
  | skipped output =>
      exact Report.mk.injEq .. |>.mpr ⟨(List.append_nil _).symm, rfl, (List.append_nil _).symm⟩
  | failed table error =>
      exact Report.mk.injEq .. |>.mpr ⟨(List.append_nil _).symm, (List.append_nil _).symm, rfl⟩

theorem addFailed_append (table : Path) (error : GenerationError) :
    (first ++ second).addFailed table error = first ++ second.addFailed table error :=
  Report.mk.injEq .. |>.mpr ⟨rfl, rfl, List.append_assoc ..⟩

end Append

variable {outcome : Outcome} {outcomes others : List Outcome} {output table : Path}
  {error : GenerationError}

theorem mem_generated_iff :
    output ∈ (ofOutcomes outcomes).generated ↔ .generated output ∈ outcomes := by
  induction outcomes with
  | nil => simp [ofOutcomes, empty]
  | cons outcome outcomes ih =>
      rw [ofOutcomes, generated_append, List.mem_append, List.mem_cons, ih]
      cases outcome <;> simp [add, empty, addGenerated, addSkipped, addFailed]

theorem mem_skipped_iff : output ∈ (ofOutcomes outcomes).skipped ↔ .skipped output ∈ outcomes := by
  induction outcomes with
  | nil => simp [ofOutcomes, empty]
  | cons outcome outcomes ih =>
      rw [ofOutcomes, skipped_append, List.mem_append, List.mem_cons, ih]
      cases outcome <;> simp [add, empty, addGenerated, addSkipped, addFailed]

theorem mem_failed_iff :
    (table, error) ∈ (ofOutcomes outcomes).failed ↔ .failed table error ∈ outcomes := by
  induction outcomes with
  | nil => simp [ofOutcomes, empty]
  | cons outcome outcomes ih =>
      rw [ofOutcomes, failed_append, List.mem_append, List.mem_cons, ih]
      cases outcome <;> simp [add, empty, addGenerated, addSkipped, addFailed]

theorem failed_ofOutcomes_cons (noFailure : ∀ table error, outcome ≠ .failed table error)
    (outcomes : List Outcome) :
    (ofOutcomes (outcome :: outcomes)).failed = (ofOutcomes outcomes).failed := by
  cases outcome with
  | failed table error => exact absurd rfl (noFailure table error)
  | generated output => rfl
  | skipped output => rfl

theorem ofOutcomes_map_skipped (outputs : List Path) :
    ofOutcomes (outputs.map .skipped) = ⟨[], outputs, []⟩ := by
  induction outputs with
  | nil => rfl
  | cons output outputs ih =>
      rw [List.map_cons, ofOutcomes, ih]
      rfl

theorem failed_eq_nil_iff : (ofOutcomes outcomes).failed = [] ↔
    ∀ outcome ∈ outcomes, ∀ table error, outcome ≠ .failed table error := by
  rw [List.eq_nil_iff_forall_not_mem]
  constructor
  · rintro none outcome inside table error rfl
    exact none (table, error) (mem_failed_iff.mpr inside)
  · rintro none ⟨table, error⟩ inside
    exact none _ (mem_failed_iff.mp inside) table error rfl

theorem isOk_iff {report : Report} : report.isOk = true ↔ report.failed = [] :=
  List.isEmpty_iff

theorem isOk_ofOutcomes_cons_iff : (ofOutcomes (outcome :: outcomes)).isOk = true ↔
    (∀ table error, outcome ≠ .failed table error) ∧ (ofOutcomes outcomes).isOk = true := by
  simp only [isOk_iff, failed_eq_nil_iff, List.forall_mem_cons]

end Report

end MessageTables
