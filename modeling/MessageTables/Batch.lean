import MessageTables.Freshness
import MessageTables.Generation
import MessageTables.Glob.Search

/-!
# Runs over many tables

`generateAll` generates the modules that are missing or out of date for all
tables below a directory, and `clean` removes the modules of all of them. Tables
are worked on one after the other in path order, each in the tree that the ones
before it left.

A report has three lists, and what became of a table is added to one of them when
its turn is over.
-/

namespace MessageTables

/-- What became of the tables. -/
structure Report where
  /-- The modules that were written. -/
  generated : List Path
  /-- The modules that were up to date. -/
  skipped : List Path
  /-- The tables that failed, with their errors. -/
  failed : List (Path × GenerationError)
  deriving DecidableEq

namespace Report

/-- The report before the first table. -/
def empty : Report :=
  ⟨[], [], []⟩

/-- The report with one more module that was written. -/
def addGenerated (report : Report) (output : Path) : Report :=
  { report with generated := report.generated ++ [output] }

/-- The report with one more module that was up to date. -/
def addSkipped (report : Report) (output : Path) : Report :=
  { report with skipped := report.skipped ++ [output] }

/-- The report with one more table that failed. -/
def addFailed (report : Report) (table : Path) (error : GenerationError) : Report :=
  { report with failed := report.failed ++ [(table, error)] }

/-- Whether no table failed. -/
def isOk (report : Report) : Bool :=
  report.failed.isEmpty

end Report

namespace Action

/-- Asks the tree something that names the path concerned in its failures. -/
def inspect (question : Tree → Except Failure α) : Action α := do
  match question (← get).tree with
  | .ok answer => return answer
  | .error failure => throw failure

/-- Searches for the tables below a directory. -/
def findTables (source : Path) (suffix : String) : Action (List Path) := do
  let session ← get
  inspect fun _ => session.findTables source suffix

end Action

/-- How modules are generated: all or only stale ones, stopping at an error or going on. -/
structure Policy where
  force : Bool
  keepGoing : Bool
  deriving DecidableEq, Repr

namespace Batch

/-- Generates a module: the error, if it fails with one of generating and the policy is to go on. -/
def attempt (generator : Generator) (policy : Policy) (table output : Path) :
    Action (Option GenerationError) :=
  tryCatch (do
      generator.generate table output
      return none)
    fun failure => do
      match failure with
      | .generation error =>
          if policy.keepGoing then
            Action.record .error .batch error.text
            return some error
          else throw failure
      | failure => throw failure

/--
Generates the modules of some tables that are due, one after the other, and adds what became
of each to a report.
-/
def generateEach (generator : Generator) (policy : Policy) (directory : Path) :
    Report → List Path → Action Report
  | report, [] => return report
  | report, table :: tables => do
      let output := generator.output table directory
      let due ← if policy.force then pure true else Action.inspect (·.isStale table output)
      if due then
        match ← attempt generator policy table output with
        | some error =>
            generateEach generator policy directory (report.addFailed table error) tables
        | none => generateEach generator policy directory (report.addGenerated output) tables
      else
        Action.record .debug .batch ("Up to date: " ++ output.text)
        generateEach generator policy directory (report.addSkipped output) tables

/-- Generates the modules of all tables below a directory. -/
def generateAll (generator : Generator) (policy : Policy) (source directory : Path) :
    Action Report := do
  let tables ← Action.findTables source generator.inputSuffix
  generateEach generator policy directory .empty tables

/--
Removes the module of a table: whether it was removed. A module that is not there is passed
over, other errors are logged.
-/
def cleanOne (generator : Generator) (directory table : Path) : Action (Option Path) :=
  let output := generator.output table directory
  tryCatch (do
      Action.act fun time => TreeAction.change [output] (·.unlink output time)
      Action.record .info .batch ("Removed " ++ output.text)
      return some output)
    fun failure => do
      match failure with
      | .system error =>
          if error.errorClass = .notFound then return none
          else
            Action.record .error .batch
              ("Failed to delete " ++ output.text ++ ": " ++ error.text)
            return none
      | failure => throw failure

/-- Removes the modules of some tables: those that were removed. -/
def cleanEach (generator : Generator) (directory : Path) : List Path → Action (List Path)
  | [] => return []
  | table :: tables => do
      let removed ← cleanOne generator directory table
      let others ← cleanEach generator directory tables
      return removed.toList ++ others

/-- Removes the modules of all tables below a directory: those that were removed. -/
def clean (generator : Generator) (source directory : Path) : Action (List Path) := do
  let tables ← Action.findTables source generator.inputSuffix
  cleanEach generator directory tables

end Batch

end MessageTables
