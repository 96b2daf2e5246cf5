import MessageTables.Proofs.Batch.Effects
import MessageTables.Proofs.Batch.Stopping

/-!
# Every table is accounted for

A run that goes on after errors adds each table to one of the three lists of its report:
the modules that were written, those that were up to date, and the tables that failed.
It has one outcome for each table, in the order of the tables, and the report is that of
these outcomes. So the tables are the three lists put together again.

The files that such a run changes in a tree without links are those that the written
modules are at. A turn that fails or passes a table over leaves all files alone, and
one that writes a module leaves all others alone; the entry that a path is about stays
the same, so what one turn has written is still there to be named at the end.
-/

namespace MessageTables

/-- Whether the last of four lists is made of the three others, each in its own order. -/
inductive Interleaves {α : Type} : List α → List α → List α → List α → Prop where
  | nil : Interleaves [] [] [] []
  | first {element : α} {firsts seconds thirds whole : List α}
      (rest : Interleaves firsts seconds thirds whole) :
      Interleaves (element :: firsts) seconds thirds (element :: whole)
  | second {element : α} {firsts seconds thirds whole : List α}
      (rest : Interleaves firsts seconds thirds whole) :
      Interleaves firsts (element :: seconds) thirds (element :: whole)
  | third {element : α} {firsts seconds thirds whole : List α}
      (rest : Interleaves firsts seconds thirds whole) :
      Interleaves firsts seconds (element :: thirds) (element :: whole)

namespace Tree

variable {before middle after : Tree} {paths : List Path} {replaced more : Location → Prop}
  {location : Location}

/-- Whether a location is that of the entry that one of some paths is about. -/
def IsNamedBy (tree : Tree) (paths : List Path) (location : Location) : Prop :=
  ∃ path ∈ paths, tree.entryLocation? path = some location

theorem IsNamedBy.later (named : before.IsNamedBy paths location)
    (carries : before.Carries after replaced) (linkFree : before.LinkFree) :
    after.IsNamedBy paths location := by
  rcases named with ⟨path, inside, found⟩
  exact ⟨path, inside, carries.entryLocation? linkFree found⟩

theorem IsNamedBy.weaken {others : List Path} (named : before.IsNamedBy paths location)
    (wider : paths ⊆ others) : before.IsNamedBy others location := by
  rcases named with ⟨path, inside, found⟩
  exact ⟨path, wider inside, found⟩

/-- Everything is carried, and the files at other locations are those that were there. -/
structure Rewrites (before after : Tree) (replaced : Location → Prop) : Prop where
  carries : before.Carries after replaced
  old : ∀ location node, node.isDirectory = false → ¬ replaced location →
    after.node? location = some node → before.node? location = some node

namespace Rewrites

theorem refl {tree : Tree} (linkFree : tree.LinkFree) (replaced : Location → Prop) :
    tree.Rewrites tree replaced :=
  ⟨.refl linkFree replaced, fun _ _ _ _ found => found⟩

theorem weaken (rewrites : before.Rewrites after replaced)
    (wider : ∀ location, replaced location → more location) : before.Rewrites after more :=
  ⟨rewrites.carries.weaken wider, fun location node noDirectory apart =>
    rewrites.old location node noDirectory fun hit => apart (wider location hit)⟩

theorem trans (first : before.Rewrites middle replaced) (second : middle.Rewrites after more) :
    before.Rewrites after fun location => replaced location ∨ more location := by
  refine ⟨first.carries.trans second.carries, ?_⟩
  intro location node noDirectory apart found
  exact first.old location node noDirectory (fun hit => apart (Or.inl hit))
    (second.old location node noDirectory (fun hit => apart (Or.inr hit)) found)

/-- The files at other locations are the same before and after. -/
theorem node?_eq_some_iff (rewrites : before.Rewrites after replaced) {node : Node}
    (noDirectory : node.isDirectory = false) (apart : ¬ replaced location) :
    before.node? location = some node ↔ after.node? location = some node := by
  constructor
  · intro found
    rw [node?_eq_some_iff_view noDirectory] at found ⊢
    exact rewrites.carries.others location node apart found
  · exact rewrites.old location node noDirectory apart

end Rewrites

end Tree

namespace Generator

variable {table output : Path} {session after : Session} {failure : Failure}

theorem rewrites_of_generate (linkFree : session.tree.LinkFree)
    (done : messageCodes.generate table output session = .ok () after) :
    session.tree.Rewrites after.tree (after.tree.IsNamedBy [output]) := by
  rcases exists_loaded_of_generate rfl done with ⟨records, _, written⟩
  rcases TreeAction.carries_of_replaceFile linkFree written with ⟨_, target, _, carries, found, _⟩
  have named : after.tree.IsNamedBy [output] target :=
    ⟨output, List.mem_singleton_self output, found⟩
  refine ⟨carries.weaken fun location same => by rwa [same], ?_⟩
  intro location node noDirectory apart there
  refine TreeAction.old_of_replaceFile linkFree written found ?_ noDirectory there
  rintro rfl
  exact apart named

theorem rewrites_of_generate_error (linkFree : session.tree.LinkFree)
    (failed : messageCodes.generate table output session = .error failure after)
    (replaced : Location → Prop) : session.tree.Rewrites after.tree replaced := by
  have survives := survives_of_failed failed
  exact ⟨survives.carries linkFree replaced, fun _ _ noDirectory _ found =>
    survives.old noDirectory found⟩

end Generator

namespace Batch

section Sorting

variable {generator : Generator} {policy : Policy} {directory table : Path} {tables : List Path}
  {session after : Session} {report : Report} {outcomes : List Outcome}
  {error : GenerationError}

/-- How a report sorts the tables of a run. -/
structure Sorts (generator : Generator) (directory : Path) (report : Report)
    (tables written fresh broken : List Path) : Prop where
  parts : Interleaves written fresh broken tables
  generated : report.generated = written.map (generator.output · directory)
  skipped : report.skipped = fresh.map (generator.output · directory)
  failed : report.failed.map Prod.fst = broken

theorem Accounts.exists_sorts
    (accounts : Accounts generator policy directory session tables outcomes after) :
    ∃ written fresh broken,
      Sorts generator directory (.ofOutcomes outcomes) tables written fresh broken := by
  induction accounts with
  | nil session => exact ⟨[], [], [], .nil, rfl, rfl, rfl⟩
  | @cons table tables outcome others session middle after turn rest ih =>
      rcases ih with ⟨written, fresh, broken, parts, generated, skipped, failed⟩
      cases turn with
      | skipped lazy upToDate =>
          exact ⟨written, table :: fresh, broken, .second parts, generated,
            congrArg (generator.output table directory :: ·) skipped, failed⟩
      | generated due done =>
          exact ⟨table :: written, fresh, broken, .first parts,
            congrArg (generator.output table directory :: ·) generated, skipped, failed⟩
      | failed due refused lenient =>
          exact ⟨written, fresh, table :: broken, .third parts, generated, skipped,
            congrArg (table :: ·) failed⟩

/-- No module is passed over by a run that generates all of them. -/
theorem Accounts.skipped_eq_nil
    (accounts : Accounts generator policy directory session tables outcomes after)
    (forced : policy.force = true) : (Report.ofOutcomes outcomes).skipped = [] := by
  induction accounts with
  | nil session => rfl
  | cons turn rest ih =>
      cases turn with
      | skipped lazy upToDate =>
          rw [forced] at lazy
          cases lazy
      | generated due done => exact ih
      | failed due refused lenient => exact ih

/-- What the turn of a table has raised in a run over tables. -/
def Raises (generator : Generator) (policy : Policy) (directory : Path) (session : Session)
    (tables : List Path) (table : Path) (error : GenerationError) : Prop :=
  ∃ earlier later report middle stopped, tables = earlier ++ table :: later ∧
    generateEach generator policy directory .empty earlier session = .ok report middle ∧
    generator.generate table (generator.output table directory) middle =
      .error (.generation error) stopped

theorem Raises.behind {first : Path} {outcome : Outcome} {middle : Session}
    (one : generateOne generator policy directory first session = .ok outcome middle)
    (raises : Raises generator policy directory middle tables table error) :
    Raises generator policy directory session (first :: tables) table error := by
  rcases raises with ⟨earlier, later, report, reached, stopped, rfl, done, refused⟩
  exact ⟨first :: earlier, later, Report.empty.add outcome ++ report, reached, stopped, rfl,
    generateEach_cons_eq_ok one done, refused⟩

/-- An error in a report was raised when the turn of its table came. -/
theorem raises_of_mem_failed
    (done : outcomesOf generator policy directory tables session = .ok outcomes after)
    (inside : (table, error) ∈ (Report.ofOutcomes outcomes).failed) :
    Raises generator policy directory session tables table error := by
  induction tables generalizing session outcomes with
  | nil =>
      cases done
      cases inside
  | cons first tables ih =>
      rcases outcomesOf_cons_eq_ok done with ⟨outcome, middle, others, one, rest, rfl⟩
      have turn := turn_generateOne generator policy directory first session
      rw [one] at turn
      cases turn with
      | skipped lazy upToDate => exact (ih rest inside).behind one
      | generated due ended => exact (ih rest inside).behind one
      | @failed cause stopped due refused lenient =>
          rcases List.mem_cons.mp inside with same | later
          · cases same
            exact ⟨[], tables, .empty, session, stopped, rfl, rfl, refused⟩
          · exact (ih rest later).behind one

end Sorting

variable {policy : Policy} {source directory table : Path} {tables : List Path}
  {session after : Session} {outcome : Outcome} {outcomes : List Outcome} {report : Report}

theorem Turn.rewrites
    (turn : Turn .messageCodes policy directory table session (.ok outcome after))
    (linkFree : session.tree.LinkFree) :
    session.tree.Rewrites after.tree
      (after.tree.IsNamedBy (Report.empty.add outcome).generated) := by
  cases turn with
  | skipped lazy fresh => exact .refl linkFree _
  | generated due done => exact Generator.rewrites_of_generate linkFree done
  | @failed error stopped due refused lenient =>
      have rewrites := Generator.rewrites_of_generate_error linkFree refused
      exact rewrites (stopped.tree.IsNamedBy [])

/-- A run changes no files but those that its report names as written. -/
theorem Accounts.rewrites
    (accounts : Accounts .messageCodes policy directory session tables outcomes after)
    (linkFree : session.tree.LinkFree) :
    session.tree.Rewrites after.tree
      (after.tree.IsNamedBy (Report.ofOutcomes outcomes).generated) := by
  induction accounts with
  | nil session => exact .refl linkFree _
  | @cons table tables outcome others session middle after turn rest ih =>
      have first := turn.rewrites linkFree
      have onward := ih first.carries.linkFree
      rw [Report.ofOutcomes, Report.generated_append]
      apply (first.trans onward).weaken
      rintro location (named | named)
      · exact (named.later onward.carries first.carries.linkFree).weaken
          (List.subset_append_left _ _)
      · exact named.weaken (List.subset_append_right _ _)

/--
A report that a run over all tables comes back with accounts for every one of them, and
for every file that the run has changed.
-/
theorem generateAll_accounts {force : Bool}
    (done : generateAll .messageCodes ⟨force, true⟩ source directory session =
      .ok report after) :
    ∃ tables written fresh broken,
      session.findTables source ".csv" = .ok tables ∧
      Sorts .messageCodes directory report tables written fresh broken ∧
      (force = true → report.skipped = []) ∧
      (∀ table error, (table, error) ∈ report.failed → error.table = table ∧
        Raises .messageCodes ⟨force, true⟩ directory session tables table error) ∧
      (session.tree.LinkFree → ∀ location node, node.isDirectory = false →
        ¬ after.tree.IsNamedBy report.generated location →
          (session.tree.node? location = some node ↔
            after.tree.node? location = some node)) := by
  rcases generateAll_eq_ok_iff.mp done with ⟨tables, outcomes, found, run, rfl⟩
  have accounts := accounts_of_outcomesOf run
  rcases accounts.exists_sorts with ⟨written, fresh, broken, sorts⟩
  refine ⟨tables, written, fresh, broken, found, sorts, accounts.skipped_eq_nil, ?_, ?_⟩
  · intro table error inside
    have raises := raises_of_mem_failed run inside
    refine ⟨?_, raises⟩
    rcases raises with ⟨_, _, _, _, _, _, _, refused⟩
    exact Generator.table_eq_of_generate_error refused
  · intro linkFree location node noDirectory apart
    exact (accounts.rewrites linkFree).node?_eq_some_iff noDirectory apart

/-- A session with a table whose module is up to date, one that is no valid table and a new one. -/
def oneOfEach : Session :=
  { Session.fresh 0o022 .passes fun _ => ⟨0, 0⟩ with
    tree := ((((Tree.empty 0o700 ⟨0, 0⟩).addEntry [⟨"a.csv", by decide⟩]
      (.file "0,A,p\n".toUTF8 0o644 ⟨0, 0⟩) ⟨0, 0⟩).addEntry [⟨"a.py", by decide⟩]
      (.file .empty 0o644 ⟨0, 0⟩) ⟨0, 0⟩).addEntry [⟨"b.csv", by decide⟩]
      (.file "broken\n".toUTF8 0o644 ⟨0, 0⟩) ⟨0, 0⟩).addEntry [⟨"c.csv", by decide⟩]
      (.file "2,C,r\n".toUTF8 0o644 ⟨0, 0⟩) ⟨0, 0⟩ }

theorem findTables_oneOfEach :
    oneOfEach.findTables (.ofText ".") ".csv" =
      .ok [.ofText "a.csv", .ofText "b.csv", .ofText "c.csv"] :=
  Tree.findTables_csv_of_select (by cbv) (by cbv) (by cbv)

/-- Each of the three tables is in a part of its own, and the fresh module is not touched. -/
theorem generateAll_accounts_oneOfEach :
    ∃ report after error, generateAll .messageCodes ⟨false, true⟩ (.ofText ".") (.ofText ".")
        oneOfEach = .ok report after ∧
      report.generated = [.ofText "c.py"] ∧ report.skipped = [.ofText "a.py"] ∧
      report.failed = [(.ofText "b.csv", error)] ∧ error.table = .ofText "b.csv" ∧
      (∃ written fresh, Interleaves written fresh [Path.ofText "b.csv"]
        [.ofText "a.csv", .ofText "b.csv", .ofText "c.csv"]) ∧
      after.tree.node? [⟨"a.py", by decide⟩] = some (.file .empty 0o644 ⟨0, 0⟩) := by
  have run : isDoneWith (fun outcomes after =>
      decide ((Report.ofOutcomes outcomes).generated = [.ofText "c.py"] ∧
        (Report.ofOutcomes outcomes).skipped = [.ofText "a.py"] ∧
        (Report.ofOutcomes outcomes).failed.map Prod.fst = [.ofText "b.csv"] ∧
        after.tree.entryLocation? (.ofText "c.py") = some [⟨"c.py", by decide⟩]))
      (outcomesOf .messageCodes ⟨false, true⟩ (.ofText ".")
        [.ofText "a.csv", .ofText "b.csv", .ofText "c.csv"] oneOfEach) = true := by
    decide +kernel
  rcases exists_of_isDoneWith run with ⟨outcomes, after, each, shape⟩
  rcases of_decide_eq_true shape with ⟨generated, skipped, failed, found⟩
  have done : generateAll .messageCodes ⟨false, true⟩ (.ofText ".") (.ofText ".")
      oneOfEach = .ok (.ofOutcomes outcomes) after :=
    generateAll_eq_ok_iff.mpr ⟨_, outcomes, findTables_oneOfEach, each, rfl⟩
  rcases generateAll_accounts done with
    ⟨tables, written, fresh, broken, search, sorts, _, raised, frame⟩
  rw [findTables_oneOfEach] at search
  cases search
  have linkFree : oneOfEach.tree.LinkFree := by decide +kernel
  have same : broken = [.ofText "b.csv"] := sorts.failed.symm.trans failed
  rcases List.map_eq_singleton_iff.mp failed with ⟨⟨table, error⟩, entries, rfl⟩
  have about := (raised (.ofText "b.csv") error (by rw [entries]; exact List.mem_cons_self)).1
  have parts := sorts.parts
  rw [same] at parts
  refine ⟨.ofOutcomes outcomes, after, error, done, generated, skipped, entries, about,
    ⟨written, fresh, parts⟩, (frame linkFree _ _ rfl ?_).mp (by cbv)⟩
  rintro ⟨path, inside, named⟩
  rw [generated, List.mem_singleton] at inside
  rw [inside, found] at named
  exact absurd named (by decide)

end Batch

end MessageTables
