import MessageTables.Proofs.Batch.Cleaning
import MessageTables.Proofs.Batch.Containment
import MessageTables.Proofs.Batch.Installation

/-!
# Removing what was generated

Removing the modules after a run, whether the run was done or stopped, leaves the
files that removing them without the run would have left. Only directories on the way
to the modules may have been made by the run, and they stay.

What carries this is that a run and a removal agree on what a module is: every module
that was written can be removed, and of what was there before the same can be removed
as without the run. The tables are found again, but for one case: where no module was
written and the output directory was not there, the search may come upon a new
directory that it cannot enter, and then there is nothing to be removed either way.
-/

namespace MessageTables

namespace Session

/-- The session after generating the modules of all tables, whether that is done or fails. -/
def afterGenerating (policy : Policy) (source directory : Path) (session : Session) : Session :=
  left (Batch.generateAll .messageCodes policy source directory session)

/-- The session after removing the modules of all tables, whether that is done or fails. -/
def afterCleaning (source directory : Path) (session : Session) : Session :=
  left (Batch.clean .messageCodes source directory session)

end Session

namespace Tree

/--
Whether a tree has the files and directories of another, and besides them only directories
on a way.
-/
structure DiffersByDirectories (fewer more : Tree) (directory : Path) : Prop where
  files : ∀ location node, node.isDirectory = false →
    (fewer.node? location = some node ↔ more.node? location = some node)
  directories : ∀ location node, node.isDirectory = true →
    fewer.view location = some node → more.view location = some node
  added : ∀ location, fewer.node? location = none → (more.node? location).isSome = true →
    more.isDirectory location = true ∧ location <:+ directory.destination

theorem DiffersByDirectories.refl (tree : Tree) (directory : Path) :
    tree.DiffersByDirectories tree directory where
  files _ _ _ := Iff.rfl
  directories _ _ _ seen := seen
  added location absent present := by
    rw [absent] at present
    cases present

namespace Installs

open Batch (HoldsRemovable)

variable {before after alone cleaned : Tree} {directory : Path} {tables written : List Path}
  {location : Location} {node : Node}

theorem holdsRemovable_of_mem_outputs (installs : before.Installs after directory written)
    (among : written ⊆ tables) (output : location ∈ outputs directory written) :
    HoldsRemovable .messageCodes directory tables after location := by
  rcases List.mem_map.mp output with ⟨table, inside, rfl⟩
  exact ⟨table, among inside, installs.modules table inside⟩

/-- What is there after a run and cannot be removed is what was there before and could not be. -/
theorem unremovable_iff (installs : before.Installs after directory written)
    (linkFree : before.LinkFree) (descends : directory.Descends) (among : written ⊆ tables)
    (noDirectory : node.isDirectory = false) :
    (after.node? location = some node ∧
        ¬ HoldsRemovable .messageCodes directory tables after location) ↔
      before.node? location = some node ∧
        ¬ HoldsRemovable .messageCodes directory tables before location := by
  constructor
  · rintro ⟨there, kept⟩
    have apart : location ∉ outputs directory written := fun output =>
      kept (installs.holdsRemovable_of_mem_outputs among output)
    refine ⟨installs.old noDirectory apart there, ?_⟩
    rintro ⟨table, inside, removable⟩
    exact kept ⟨table, inside, installs.removable linkFree removable⟩
  · rintro ⟨there, kept⟩
    have still : ¬ HoldsRemovable .messageCodes directory tables after location := by
      rintro ⟨table, inside, removable⟩
      exact kept ⟨table, inside,
        installs.removable_of_after linkFree descends removable there noDirectory⟩
    refine ⟨?_, still⟩
    rw [node?_eq_some_iff_view noDirectory] at there ⊢
    apply installs.carries.others location node _ there
    exact fun output => still (installs.holdsRemovable_of_mem_outputs among output)

/-- Without what can be removed, the trees before and after a run differ by directories only. -/
theorem undone (installs : before.Installs after directory written)
    (linkFree : before.LinkFree) (descends : directory.Descends) (among : written ⊆ tables)
    (first : before.Clears alone (HoldsRemovable .messageCodes directory tables before))
    (second : after.Clears cleaned (HoldsRemovable .messageCodes directory tables after)) :
    alone.DiffersByDirectories cleaned directory := by
  have files : ∀ location node, node.isDirectory = false →
      (alone.node? location = some node ↔ cleaned.node? location = some node) := by
    intro location node noDirectory
    rw [first.found_iff noDirectory, second.found_iff noDirectory]
    exact (installs.unremovable_iff linkFree descends among noDirectory).symm
  refine ⟨files, ?_, ?_⟩
  · intro location node isDirectory seen
    have early := first.keptIn location node seen
    apply (second.carries installs.carries.linkFree).directories location node isDirectory
    exact installs.carries.directories location node isDirectory early
  · intro location absent present
    rcases Option.isSome_iff_exists.mp present with ⟨node, there⟩
    cases directory : node.isDirectory with
    | false =>
        rw [(files location node directory).mpr there] at absent
        cases absent
    | true =>
        -- removing keeps directories, so one that only this tree has is of the run
        have isDirectory := isDirectory_iff.mpr ⟨node, there, directory⟩
        have made : before.isDirectory location = false := by
          cases old : before.isDirectory location with
          | false => rfl
          | true =>
              have held := (first.carries linkFree).isDirectory old
              rw [isDirectory_eq_false_of_node?_eq_none absent] at held
              cases held
        exact ⟨isDirectory,
          (installs.new_directory made (second.keptIn.isDirectory isDirectory)).2⟩

/-- In a directory that was not there, nothing can be removed if no module was written into it. -/
theorem not_holdsRemovable (installs : before.Installs after directory [])
    (descends : directory.Descends) (unmade : before.isDirectory directory.destination = false)
    (location : Location) : ¬ HoldsRemovable .messageCodes directory tables after location := by
  rintro ⟨table, _, removable⟩
  rcases Generator.exists_name_of_entryLocation?_output installs.carries.linkFree descends
    removable.found with ⟨name, rfl, _⟩
  rcases removable.there with ⟨node, there, noDirectory⟩
  have held := installs.old noDirectory List.not_mem_nil there
  have made : before.isDirectory directory.destination = true :=
    isDirectory_of_node? (by rw [held]; rfl)
  rw [unmade] at made
  cases made

end Installs

end Tree

namespace Batch

variable {source directory : Path} {tables written : List Path} {session after : Session}

/-- What is left after removing modules is all but the modules that could be removed. -/
theorem clears_afterCleaning (linkFree : session.tree.LinkFree) (sourceFree : source.NullFree)
    (directoryFree : directory.NullFree)
    (found : session.findTables source ".csv" = .ok tables) :
    session.tree.Clears (session.afterCleaning source directory).tree
      (HoldsRemovable .messageCodes directory tables session.tree) := by
  have cleans : clean .messageCodes source directory session =
      cleanEach .messageCodes directory tables session := clean_of_found found
  rcases exists_clearing session fun table inside =>
    Generator.nullFree_output (nullFree_of_mem_findTables sourceFree found inside) directoryFree
    with ⟨removed, last, run, clearing⟩
  rw [Session.afterCleaning, cleans, run]
  exact clearing.clears linkFree

/-- After a run, too, what is left is all but the modules that can be removed. -/
theorem clears_afterCleaning_of_installs (linkFree : session.tree.LinkFree)
    (sourceDescends : source.Descends) (descends : directory.Descends)
    (sourceFree : source.NullFree) (directoryFree : directory.NullFree)
    (found : session.findTables source ".csv" = .ok tables) (nonempty : tables ≠ [])
    (installs : session.tree.Installs after.tree directory written) :
    after.tree.Clears (after.afterCleaning source directory).tree
      (HoldsRemovable .messageCodes directory tables after.tree) := by
  have afterFree := installs.carries.linkFree
  cases again : after.findTables source ".csv" with
  | ok others =>
      rw [← installs.findTables_eq linkFree sourceDescends found nonempty again]
      exact clears_afterCleaning afterFree sourceFree directoryFree again
  | error failure =>
      -- the search ends at a new directory only where nothing was written below it
      have stays : clean .messageCodes source directory after = .error failure after :=
        clean_of_not_found again
      have noWay : ¬ (session.tree.isDirectory directory.destination = true ∨ written ≠ []) := by
        intro way
        have still : after.findTables source ".csv" = .ok tables :=
          installs.findTables_again linkFree descends sourceDescends found nonempty way
        rw [still] at again
        cases again
      rcases not_or.mp noWay with ⟨unmade, none⟩
      cases not_ne_iff.mp none
      rw [Session.afterCleaning, stays]
      exact .of_none (installs.not_holdsRemovable descends (by simpa using unmade))

/--
Removing the modules undoes a run, whether it is done or stopped: what is left is what
removing them alone would have left, but for directories on the way to the modules. If
there were no modules, it is what was there before the run.
-/
theorem clean_undoes_generateAll (policy : Policy) (linkFree : session.tree.LinkFree)
    (sourceDescends : source.Descends) (descends : directory.Descends)
    (sourceFree : source.NullFree) (directoryFree : directory.NullFree) :
    (session.afterCleaning source directory).tree.DiffersByDirectories
        ((session.afterGenerating policy source directory).afterCleaning source directory).tree
        directory ∧
      ((∀ tables, session.findTables source ".csv" = .ok tables → ∀ table ∈ tables,
          session.tree.node? (Generator.messageCodes.output table directory).destination = none) →
        session.tree.DiffersByDirectories
          ((session.afterGenerating policy source directory).afterCleaning source directory).tree
          directory) := by
  cases found : session.findTables source ".csv" with
  | error failure =>
      have runs : generateAll .messageCodes policy source directory session =
          .error failure session := generateAll_of_not_found found
      have cleans : clean .messageCodes source directory session = .error failure session :=
        clean_of_not_found found
      rw [Session.afterGenerating, runs, Session.left, Session.afterCleaning, cleans]
      exact ⟨.refl session.tree directory, fun _ => .refl session.tree directory⟩
  | ok tables =>
      have runs : Session.left (generateAll .messageCodes policy source directory session) =
          Session.left (outcomesOf .messageCodes policy directory tables session) :=
        left_generateAll found
      rcases installs_of_outcomesOf policy tables linkFree descends with
        ⟨written, among, installs⟩
      rw [← runs] at installs
      have second : (session.afterGenerating policy source directory).tree.Clears
          ((session.afterGenerating policy source directory).afterCleaning source directory).tree
          (HoldsRemovable .messageCodes directory tables
            (session.afterGenerating policy source directory).tree) := by
        cases tables with
        | nil =>
            rw [Session.afterGenerating, runs]
            exact clears_afterCleaning linkFree sourceFree directoryFree found
        | cons table tables =>
            exact clears_afterCleaning_of_installs linkFree sourceDescends descends sourceFree
              directoryFree found (List.cons_ne_nil table tables) installs
      constructor
      · have first := clears_afterCleaning linkFree sourceFree directoryFree found
        exact installs.undone linkFree descends among first second
      · intro absent
        refine installs.undone linkFree descends among (.of_none ?_) second
        rintro location ⟨table, inside, removable⟩
        rcases Generator.exists_name_of_entryLocation?_output linkFree descends removable.found with
          ⟨_, _, own⟩
        rcases removable.there with ⟨node, there, _⟩
        have missing := absent tables rfl table inside
        rw [own, there] at missing
        cases missing

/-- Of a module that two tables share only its directory is left. -/
theorem clean_undoes_generateAll_twins :
    ∃ report after,
      generateAll .messageCodes ⟨true, false⟩ (.ofText ".") (.ofText "o") twins =
          .ok report after ∧ report.isOk = true ∧
        twins.tree.DiffersByDirectories
          (after.afterCleaning (.ofText ".") (.ofText "o")).tree (.ofText "o") := by
  rcases generateAll_twins with ⟨report, after, done, succeeded⟩
  have linkFree : twins.tree.LinkFree := by decide +kernel
  have absent : ∀ table ∈ [Path.ofText "a/x.csv", .ofText "b/x.csv"],
      twins.tree.node? (Generator.messageCodes.output table (.ofText "o")).destination = none :=
    by decide +kernel
  have sourceDescends : (Path.ofText ".").Descends := by decide
  have descends : (Path.ofText "o").Descends := by decide
  have undone := clean_undoes_generateAll ⟨true, false⟩ linkFree sourceDescends descends
    (by decide) (by decide)
  rw [Session.afterGenerating, done] at undone
  refine ⟨report, after, done, succeeded, undone.2 ?_⟩
  intro tables found
  rw [findTables_twins] at found
  cases found
  exact absent

end Batch

end MessageTables
