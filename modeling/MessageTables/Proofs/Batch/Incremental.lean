import MessageTables.Proofs.Batch.Effects
import MessageTables.Proofs.FileSystem.Likeness
import MessageTables.Proofs.Generation.Yield
import MessageTables.Proofs.Glob.Reached

/-!
# Generating only what is due

A run that skips the modules that are up to date ends with the same files as one
that generates all modules, if the modules that are up to date already hold the
renderings of their tables.

The invariant is that the trees of both runs are alike, while each of them has
come from the same tree by work on other tables only. A table that is due is due
in both runs, and generating it has the same result in trees that are alike. A
table that is skipped by one run has a module with its rendering; generating that
module again, or failing to, makes no difference.
-/

namespace MessageTables

namespace Tree

variable {before after : Tree} {name : Name} {above : Location} {replaced : Location → Prop}

/-- What is above something there are directories, which are kept. -/
theorem Carries.alike (carries : before.Carries after replaced)
    (present : (before.node? (name :: above)).isSome = true)
    (beside : ∀ key, ¬ key <:+ above → after.contents key = before.contents key) :
    before.Alike after := by
  funext key
  by_cases within : key <:+ above
  · have differs : key ≠ name :: above := ne_cons_of_suffix name within
    have directory : before.isDirectory key = true :=
      isDirectory_of_below present (within.trans (List.suffix_cons name above)) differs
    rw [contents_eq_view, contents_eq_view, carries.view_eq directory]
  · exact (beside key within).symm

end Tree

namespace Generator

variable {table directory : Path} {first second session after : Session} {name : Name}
  {above : Location}

/-- What a run comes to can be told from what is alike. -/
theorem yield_eq_of_alike {output : Path} {mode : Nat} (alike : first.tree.Alike second.tree)
    (some : output.parts ≠ [])
    (same : Table.loaded second.tree table = Table.loaded first.tree table) :
    messageCodes.yield table output mode second.tree =
      messageCodes.yield table output mode first.tree := by
  rcases Tree.exists_directoryPath_eq some with ⟨part, above, shape⟩
  have deliveries (text : Text) : second.tree.delivery mode output text =
      first.tree.delivery mode output text := by
    rw [shape]
    exact alike.delivery_eq output.anchor part above text
  simp only [yield, same, deliveries]

/-- In trees that are alike, generating a module leaves trees that are alike. -/
theorem alike_generate (alike : first.tree.Alike second.tree) (linkFree : first.tree.LinkFree)
    (otherLinkFree : second.tree.LinkFree) (descends : directory.Descends)
    (umask : second.umask = first.umask)
    (same : Table.loaded second.tree table = Table.loaded first.tree table) :
    (Session.left (messageCodes.generate table
        (messageCodes.output table directory) first)).tree.Alike
      (Session.left (messageCodes.generate table
        (messageCodes.output table directory) second)).tree := by
  have outputDescends := Tree.descends_output descends table
  have some : (messageCodes.output table directory).parts ≠ [] := by
    rw [output_eq_child]
    exact List.append_ne_nil_of_right_ne_nil _ (List.cons_ne_nil _ _)
  have modes : Action.newDirectoryMode second = Action.newDirectoryMode first := by
    rw [Action.newDirectoryMode, Action.newDirectoryMode, umask]
  rcases messageCodes.generate_yields table linkFree outputDescends some with ⟨_, leaves, _⟩
  rcases messageCodes.generate_yields table otherLinkFree outputDescends some with
    ⟨_, otherLeaves, _⟩
  rw [modes, yield_eq_of_alike alike some same] at otherLeaves
  exact alike.of_leaves leaves otherLeaves rfl

/--
Generating a module makes no difference where it holds the rendering already, or where it
fails.
-/
theorem alike_generate_again (linkFree : session.tree.LinkFree) (descends : directory.Descends)
    (plain : directory = .plain directory.anchor above) (file : moduleFile table = name.part)
    (present : (session.tree.node? (name :: above)).isSome = true)
    (holds : ∀ records bytes, Table.loaded session.tree table = .ok records →
      (messageCodes.render table records).encode? = some bytes →
        ∃ mode time, session.tree.node? (name :: above) = some (.file bytes mode time)) :
    session.tree.Alike (Session.left
      (messageCodes.generate table (messageCodes.output table directory) session)).tree := by
  cases run : messageCodes.generate table (messageCodes.output table directory) session with
  | error failure after =>
      apply (effect_of_generate_error linkFree run).carries.alike present
      intro key outside
      rw [Tree.contents, Tree.contents, beside_of_generate_error linkFree run plain outside]
  | ok _ after =>
      rcases exists_location_of_generate linkFree descends run with
        ⟨other, outer, records, bytes, part, named, loaded, encodes, written, there⟩
      have here : other :: outer = name :: above := by
        rw [Path.plain_inj (named.symm.trans plain), Name.part_injective (part.symm.trans file)]
      rw [here] at written there
      rcases holds records bytes loaded encodes with ⟨mode, time, held⟩
      apply (effect_of_generate linkFree descends run).carries.alike present
      intro key outside
      by_cases own : key = name :: above
      · rw [own, Tree.contents, Tree.contents, there, held]
        rfl
      · rw [Tree.contents, Tree.contents, written.beside]
        intro within
        rcases List.suffix_cons_iff.mp within with same | inside
        · exact own same
        · exact outside inside

end Generator

namespace Batch

variable {generator : Generator} {policy : Policy} {initial : Tree} {directory table : Path}
  {tables earlier : List Path} {session after first second : Session} {outcome : Outcome}
  {location : Location} {node : Node}

theorem Turn.tree_cases
    (turn : Turn generator policy directory table session (.ok outcome after)) :
    (policy.force = false ∧
        session.tree.isStale table (generator.output table directory) = .ok false ∧
        after.tree = session.tree) ∨
      after.tree = (Session.left
        (generator.generate table (generator.output table directory) session)).tree := by
  cases turn with
  | skipped lazy fresh => exact Or.inl ⟨lazy, fresh, rfl⟩
  | generated due done =>
      right
      rw [done]
      rfl
  | failed due refused lenient =>
      right
      rw [refused]
      rfl

/-- Whether the module of a table holds the rendering of the table, if one can be written. -/
def HoldsRendering (session : Session) (directory table : Path) : Prop :=
  ∀ records bytes, Table.load table session = .ok records session →
    (Generator.messageCodes.render table records).encode? = some bytes →
      ∃ mode time, session.tree.nodeAt (Generator.messageCodes.output table directory) =
        .ok (.file bytes mode time)

/-- Two runs that have come past the same tables from the same session, to trees that are alike. -/
structure Abreast (initial : Session) (directory : Path) (earlier : List Path)
    (first second : Session) : Prop where
  alike : first.tree.Alike second.tree
  umask : second.umask = first.umask
  one : initial.tree.Effect first.tree directory earlier
  two : initial.tree.Effect second.tree directory earlier

section Abreast

variable {initial firstAfter secondAfter : Session} {other : Outcome}
  {outcomes others : List Outcome}
  (linkFree : initial.tree.LinkFree) (descends : directory.Descends)

include linkFree descends

/-- A module that one run skips makes no difference to the other. -/
theorem Abreast.alike_of_fresh (abreast : Abreast initial directory earlier first second)
    (holds : initial.tree.HoldsTable table location node)
    (apart : ∀ other ∈ earlier, Generator.moduleFile other ≠ Generator.moduleFile table)
    (fresh : initial.tree.isStale table (Generator.messageCodes.output table directory) =
      .ok false)
    (rendered : HoldsRendering initial directory table) :
    second.tree.Alike (Session.left (Generator.messageCodes.generate table
      (Generator.messageCodes.output table directory) second)).tree := by
  rcases holds.exists_changeTime? linkFree with ⟨time, _, asked⟩
  rcases (Tree.isStale_eq_false_iff asked).mp fresh with ⟨changed, answered, _⟩
  rcases Tree.changeTime?_eq_some_iff.mp answered with ⟨place, held, located, found, _⟩
  have whole := Tree.plain_of_locate linkFree (Tree.descends_output descends table) located
  have same := abreast.two.sameAt_output apart place whole
  rw [Generator.output_eq_child] at whole
  rcases Path.exists_of_child_eq_plain whole with ⟨name, above, rfl, file, plain⟩
  apply Generator.alike_generate_again abreast.two.carries.linkFree descends plain file
  · rw [same, found]
    rfl
  · intro records bytes read encodes
    rw [abreast.two.loaded_eq linkFree holds] at read
    rcases rendered records bytes (Table.load_of_loaded read) encodes with
      ⟨mode, changed, there⟩
    rcases Tree.nodeAt_eq_ok_iff.mp there with ⟨_, again, there⟩
    rw [located] at again
    cases again
    exact ⟨mode, changed, by rw [same, there]⟩

theorem Abreast.turn (abreast : Abreast initial directory earlier first second)
    (holds : initial.tree.HoldsTable table location node)
    (apart : ∀ other ∈ earlier, Generator.moduleFile other ≠ Generator.moduleFile table)
    (rendered : initial.tree.isStale table (Generator.messageCodes.output table directory) =
      .ok false → HoldsRendering initial directory table)
    (lazy : Turn .messageCodes ⟨false, true⟩ directory table first (.ok outcome firstAfter))
    (full : Turn .messageCodes ⟨true, true⟩ directory table second (.ok other secondAfter)) :
    Abreast initial directory (earlier ++ [table]) firstAfter secondAfter := by
  have oneFree := abreast.one.carries.linkFree
  have twoFree := abreast.two.carries.linkFree
  refine ⟨?_, ?_,
    abreast.one.trans ((lazy.effect oneFree descends).weaken (outcome.written_subset table)),
    abreast.two.trans ((full.effect twoFree descends).weaken (other.written_subset table))⟩
  · rcases full.tree_cases with ⟨impossible, _, _⟩ | fully
    · cases impossible
    · rw [fully]
      rcases lazy.tree_cases with ⟨_, fresh, kept⟩ | lazily
      · have settled := (abreast.one.isStale_eq_false_iff linkFree descends holds apart).mp fresh
        rw [kept]
        exact abreast.alike.trans
          (abreast.alike_of_fresh linkFree descends holds apart settled (rendered settled))
      · have loaded : Table.loaded second.tree table = Table.loaded first.tree table := by
          rw [abreast.one.loaded_eq linkFree holds, abreast.two.loaded_eq linkFree holds]
        rw [lazily]
        exact Generator.alike_generate abreast.alike oneFree twoFree descends abreast.umask loaded
  · rw [full.continues.umask, lazy.continues.umask, abreast.umask]

theorem Abreast.accounts (abreast : Abreast initial directory earlier first second)
    (holds : ∀ table ∈ tables, ∃ location node, initial.tree.HoldsTable table location node)
    (distinct : ((earlier ++ tables).map Generator.moduleFile).Nodup)
    (rendered : ∀ table ∈ tables,
      initial.tree.isStale table (Generator.messageCodes.output table directory) = .ok false →
        HoldsRendering initial directory table)
    (lazy : Accounts .messageCodes ⟨false, true⟩ directory first tables outcomes firstAfter)
    (full : Accounts .messageCodes ⟨true, true⟩ directory second tables others secondAfter) :
    Abreast initial directory (earlier ++ tables) firstAfter secondAfter := by
  induction lazy generalizing earlier second others with
  | nil first =>
      cases full
      rwa [List.append_nil]
  | @cons table tables outcome rest first middle firstAfter turn further ih =>
      cases full with
      | cons fullTurn fullFurther =>
          rcases holds table List.mem_cons_self with ⟨location, node, held⟩
          have next := abreast.turn linkFree descends held (Tree.apart_of_nodup distinct).1
            (rendered table List.mem_cons_self) turn fullTurn
          have regrouped : earlier ++ table :: tables = (earlier ++ [table]) ++ tables := by
            rw [List.append_assoc, List.singleton_append]
          rw [regrouped] at distinct ⊢
          exact ih next (fun other inside => holds other (List.mem_cons_of_mem table inside))
            distinct (fun other inside => rendered other (List.mem_cons_of_mem table inside))
            fullFurther

end Abreast

/-- A run that skips what is up to date ends with the same files as one that skips nothing. -/
theorem alike_of_generateAll {source : Path} {firstAfter secondAfter : Session}
    {report others : Report} (tree : second.tree = first.tree) (umask : second.umask = first.umask)
    (linkFree : first.tree.LinkFree) (descends : directory.Descends)
    (found : first.findTables source ".csv" = .ok tables)
    (distinct : (tables.map Path.name).Nodup)
    (rendered : ∀ table ∈ tables,
      first.tree.isStale table (Generator.messageCodes.output table directory) = .ok false →
        HoldsRendering first directory table)
    (lazy : generateAll .messageCodes ⟨false, true⟩ source directory first =
      .ok report firstAfter)
    (full : generateAll .messageCodes ⟨true, true⟩ source directory second =
      .ok others secondAfter) : firstAfter.tree.Alike secondAfter.tree := by
  rcases generateAll_eq_ok_iff.mp lazy with ⟨some, _, searched, lazyRun, _⟩
  rcases generateAll_eq_ok_iff.mp full with ⟨same, _, searchedAgain, fullRun, _⟩
  -- the runs may treat links in different ways, but there are none
  have alsoFound : second.findTables source ".csv" = .ok tables := by
    rw [Session.findTables, tree]
    exact (linkFree.findTables_eq first.links second.links ".csv").trans found
  cases found.symm.trans searched
  cases alsoFound.symm.trans searchedAgain
  have begun : Abreast first directory [] first second := by
    refine ⟨?_, umask, Tree.Effect.refl linkFree directory [], ?_⟩
    · rw [tree]
      exact Tree.Alike.refl _
    · rw [tree]
      exact Tree.Effect.refl linkFree directory []
  exact (begun.accounts linkFree descends
    (fun table inside => Tree.exists_holdsTable linkFree found inside)
    (Tree.nodup_moduleFile found distinct) rendered
    (accounts_of_outcomesOf lazyRun) (accounts_of_outcomesOf fullRun)).alike

/-- A session with a table whose module has the given content and one that has no module. -/
def halfDone (content : ByteArray) : Session :=
  { Session.fresh 0o022 .passes fun _ => ⟨0, 0⟩ with
    tree := (((Tree.empty 0o700 ⟨0, 0⟩).addEntry [⟨"kept.csv", by decide⟩]
      (.file "7,K,k\n".toUTF8 0o644 ⟨0, 0⟩) ⟨0, 0⟩).addEntry [⟨"kept.py", by decide⟩]
      (.file content 0o644 ⟨0, 0⟩) ⟨0, 0⟩).addEntry [⟨"new.csv", by decide⟩]
      (.file "8,N,n\n".toUTF8 0o644 ⟨0, 0⟩) ⟨0, 0⟩ }

theorem findTables_halfDone (content : ByteArray) :
    (halfDone content).findTables (.ofText ".") ".csv" =
      .ok [.ofText "kept.csv", .ofText "new.csv"] :=
  Tree.findTables_csv_of_select (by cbv) (by cbv) (by cbv)

/-- The session in which the module that is there holds the rendering of its table. -/
def halfDoneWell : Session :=
  halfDone (Generator.messageCodes.render (.ofText "kept.csv") [⟨7, "K", "k_pb"⟩]).bytes

theorem holdsRendering_halfDoneWell (table : Path)
    (inside : table ∈ [Path.ofText "kept.csv", .ofText "new.csv"])
    (fresh : halfDoneWell.tree.isStale table
      (Generator.messageCodes.output table (.ofText ".")) = .ok false) :
    HoldsRendering halfDoneWell (.ofText ".") table := by
  have stale (content : ByteArray) : (halfDone content).tree.isStale (.ofText "new.csv")
      (Generator.messageCodes.output (.ofText "new.csv") (.ofText ".")) = .ok true := by
    cbv
  have held (content : ByteArray) : (halfDone content).tree.nodeAt
      (Generator.messageCodes.output (.ofText "kept.csv") (.ofText ".")) =
        .ok (.file content 0o644 ⟨0, 0⟩) := by
    cbv
  rcases List.mem_pair.mp inside with rfl | rfl
  · intro records bytes loaded encodes
    have run : isDoneWith (fun records _ => decide (records = [⟨7, "K", "k_pb"⟩]))
        (Table.load (.ofText "kept.csv") halfDoneWell) = true := by
      decide +kernel
    rw [loaded] at run
    rw [of_decide_eq_true run] at encodes
    rw [Text.eq_bytes_of_encode? encodes]
    exact ⟨0o644, ⟨0, 0⟩, held _⟩
  · rw [halfDoneWell, stale] at fresh
    cases fresh

/-- One run skips the first table, the other generates its module again. -/
theorem alike_of_generateAll_halfDoneWell :
    ∃ report others after otherAfter,
      generateAll .messageCodes ⟨false, true⟩ (.ofText ".") (.ofText ".") halfDoneWell =
          .ok report after ∧
        generateAll .messageCodes ⟨true, true⟩ (.ofText ".") (.ofText ".") halfDoneWell =
          .ok others otherAfter ∧
        report.skipped = [.ofText "kept.py"] ∧ others.skipped = [] ∧
        after.tree.Alike otherAfter.tree := by
  have lazy : isDoneWith (fun outcomes _ =>
      decide ((Report.ofOutcomes outcomes).skipped = [Path.ofText "kept.py"]))
      (outcomesOf .messageCodes ⟨false, true⟩ (.ofText ".")
        [.ofText "kept.csv", .ofText "new.csv"] halfDoneWell) = true := by
    decide +kernel
  have full : isDoneWith (fun outcomes _ => decide ((Report.ofOutcomes outcomes).skipped = []))
      (outcomesOf .messageCodes ⟨true, true⟩ (.ofText ".")
        [.ofText "kept.csv", .ofText "new.csv"] halfDoneWell) = true := by
    decide +kernel
  have found : halfDoneWell.findTables (.ofText ".") ".csv" =
      .ok [.ofText "kept.csv", .ofText "new.csv"] :=
    findTables_halfDone _
  have linkFree : halfDoneWell.tree.LinkFree := by decide +kernel
  rcases exists_of_isDoneWith lazy with ⟨outcomes, after, done, skips⟩
  rcases exists_of_isDoneWith full with ⟨others, otherAfter, otherDone, skipsNone⟩
  have lazyAll : generateAll .messageCodes ⟨false, true⟩ (.ofText ".") (.ofText ".")
      halfDoneWell = .ok (.ofOutcomes outcomes) after :=
    generateAll_eq_ok_iff.mpr ⟨_, outcomes, found, done, rfl⟩
  have fullAll : generateAll .messageCodes ⟨true, true⟩ (.ofText ".") (.ofText ".")
      halfDoneWell = .ok (.ofOutcomes others) otherAfter :=
    generateAll_eq_ok_iff.mpr ⟨_, others, found, otherDone, rfl⟩
  have alike : after.tree.Alike otherAfter.tree :=
    alike_of_generateAll rfl rfl linkFree (by decide) found (by decide)
      holdsRendering_halfDoneWell lazyAll fullAll
  exact ⟨.ofOutcomes outcomes, .ofOutcomes others, after, otherAfter, lazyAll, fullAll,
    of_decide_eq_true skips, of_decide_eq_true skipsNone, alike⟩

end Batch

end MessageTables
