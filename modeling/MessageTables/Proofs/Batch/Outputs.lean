import MessageTables.Proofs.Batch.Turns
import MessageTables.Proofs.FileSystem.Carrying
import MessageTables.Proofs.Generation.Naming
import MessageTables.Proofs.Generation.Stages
import MessageTables.Proofs.Glob.Tables
import MessageTables.Proofs.LookupModule.Recovery
import MessageTables.Proofs.Text.Spelling

/-!
# The modules of all tables

All modules go into one directory, under names that end differently from those
of tables. So no table is changed while modules are written, and a module stays
as it was written until one of the same name replaces it: each is that of the
last table with its file name.
-/

namespace MessageTables

/-! ## Tables stay as they are -/

namespace Tree

/-- A table in a tree: the entry that its path is about, with the file there. -/
structure HoldsTable (tree : Tree) (table : Path) (location : Location) (node : Node) : Prop where
  found : tree.entryLocation? table = some location
  there : tree.node? location = some node
  isFile : node.isFile = true
  ending : ∃ name parent, location = name :: parent ∧ (".csv" : Text).toList <:+ name.text.toList

/-- Whether a location ends in the name of the module of one of some tables. -/
def NamesModule (tables : List Path) (location : Location) : Prop :=
  ∃ table ∈ tables, ∃ name parent,
    location = name :: parent ∧ name.text = (Generator.moduleFile table).text

variable {tree after : Tree} {links : LinkRule} {table directory : Path} {tables : List Path}
  {location : Location} {node : Node}

theorem exists_holdsTable (linkFree : tree.LinkFree)
    (found : tree.findTables links directory ".csv" = .ok tables) (inside : table ∈ tables) :
    ∃ location node, tree.HoldsTable table location node := by
  rcases exists_name_of_mem_findTables found inside with ⟨folder, name, rfl, ending, tested⟩
  rcases exists_nodeAt_of_test tested with ⟨node, asked, isFile⟩
  rcases nodeAt_eq_ok_iff.mp asked with ⟨location, located, there⟩
  have entry := entryLocation?_of_locate linkFree (Step.ofText_name name) located
  rcases exists_name_of_entryLocation?_child entry with ⟨last, parent, rfl, same⟩
  refine ⟨_, node, entry, there, isFile, last, parent, rfl, ?_⟩
  rw [same]
  exact ending

/-- No module is named as tables are. -/
theorem not_namesModule_of_suffix {name : Name}
    (ending : (".csv" : Text).toList <:+ name.text.toList)
    (above : Location) (tables : List Path) : ¬ NamesModule tables (name :: above) := by
  rintro ⟨other, _, last, parent, shape, same⟩
  cases shape
  rcases ending with ⟨front, whole⟩
  have texts : front ++ (".csv" : Text).toList =
      (Generator.messageCodes.moduleName other).toList ++ (".py" : Text).toList := by
    rw [whole, same, ← Text.toList_append]
    rfl
  have lasts := congrArg List.getLast? texts
  rw [List.getLast?_append, List.getLast?_append] at lasts
  have characters : some (Symbol.char 'v') = some (Symbol.char 'y') := lasts
  exact absurd characters (by decide)

theorem not_namesModule (holds : tree.HoldsTable table location node) (tables : List Path) :
    ¬ NamesModule tables location := by
  rcases holds.ending with ⟨name, parent, rfl, ending⟩
  exact not_namesModule_of_suffix ending parent tables

theorem HoldsTable.later (holds : tree.HoldsTable table location node)
    (linkFree : tree.LinkFree) (carries : tree.Carries after (NamesModule tables)) :
    after.HoldsTable table location node := by
  have noDirectory := Node.isDirectory_eq_false_of_isFile holds.isFile
  refine ⟨carries.entryLocation? linkFree holds.found, ?_, holds.isFile, holds.ending⟩
  rw [node?_eq_some_iff_view noDirectory]
  apply carries.others location node (not_namesModule holds tables)
  exact (node?_eq_some_iff_view noDirectory).mp holds.there

theorem HoldsTable.loaded_eq (holds : tree.HoldsTable table location node)
    (linkFree : tree.LinkFree) (later : after.HoldsTable table location node)
    (laterLinkFree : after.LinkFree) : Table.loaded after table = Table.loaded tree table := by
  have first := nodeAt_of_entryLocation? linkFree holds.found holds.there
  have second := nodeAt_of_entryLocation? laterLinkFree later.found later.there
  simp only [Table.loaded, read, first, second]

end Tree

namespace Generator

/-- A module is the one entry with something new. -/
theorem carries_of_generate {table directory : Path} {session after : Session}
    (linkFree : session.tree.LinkFree)
    (done : messageCodes.generate table (messageCodes.output table directory) session =
      .ok () after) :
    ∃ target records bytes, session.tree.Carries after.tree (Tree.NamesModule [table]) ∧
      after.tree.entryLocation? (messageCodes.output table directory) = some target ∧
      Table.loaded session.tree table = .ok records ∧
      (messageCodes.render table records).encode? = some bytes ∧
      after.tree.node? target =
        some (.file bytes 0o644 (session.clock session.readings)) := by
  rcases exists_loaded_of_generate rfl done with ⟨records, loaded, written⟩
  rcases TreeAction.carries_of_replaceFile linkFree written with
    ⟨bytes, target, encodes, carries, found, there⟩
  refine ⟨target, records, bytes, ?_, found, loaded, encodes, there⟩
  apply carries.weaken
  rintro location rfl
  rw [output_eq_child] at found
  rcases Tree.exists_name_of_entryLocation?_child found with ⟨name, parent, rfl, same⟩
  exact ⟨table, List.mem_singleton_self table, name, parent, rfl, same⟩

end Generator

/-! ## Runs -/

namespace Batch

variable {directory : Path} {keepGoing : Bool} {session after : Session}
  {outcomes : List Outcome}

/-- A run over tables replaces nothing but their modules. -/
theorem carries_of_outcomesOf {tables : List Path} (linkFree : session.tree.LinkFree)
    (done : outcomesOf .messageCodes ⟨true, keepGoing⟩ directory tables session =
      .ok outcomes after)
    (succeeded : (Report.ofOutcomes outcomes).isOk = true) :
    session.tree.Carries after.tree (Tree.NamesModule tables) := by
  induction tables generalizing session outcomes with
  | nil =>
      cases done
      exact Tree.Carries.refl linkFree _
  | cons table tables ih =>
      rcases generate_of_outcomesOf rfl done succeeded with
        ⟨middle, others, generated, rest, othersSucceeded⟩
      rcases Generator.carries_of_generate linkFree generated with ⟨_, _, _, first, _⟩
      have second := ih first.linkFree rest othersSucceeded
      apply (first.trans second).weaken
      rintro location (⟨other, here, named⟩ | ⟨other, later, named⟩)
      · rw [List.mem_singleton.mp here] at named
        exact ⟨table, List.mem_cons_self, named⟩
      · exact ⟨other, List.mem_cons_of_mem table later, named⟩

/-- A module holds the rendering of its table unless a later table has a module of that name. -/
theorem exists_module_of_outcomesOf {earlier later : List Path} {table : Path}
    {location : Location} {node : Node} (linkFree : session.tree.LinkFree)
    (holds : session.tree.HoldsTable table location node)
    (done : outcomesOf .messageCodes ⟨true, keepGoing⟩ directory (earlier ++ table :: later)
      session = .ok outcomes after)
    (succeeded : (Report.ofOutcomes outcomes).isOk = true)
    (last : ∀ other ∈ later, Generator.moduleFile other ≠ Generator.moduleFile table) :
    ∃ records bytes time, Table.loaded session.tree table = .ok records ∧
      (Generator.messageCodes.render table records).encode? = some bytes ∧
      after.tree.nodeAt (Generator.messageCodes.output table directory) =
        .ok (.file bytes 0o644 time) := by
  induction earlier generalizing session outcomes with
  | nil =>
      rcases generate_of_outcomesOf rfl done succeeded with
        ⟨middle, others, generated, rest, othersSucceeded⟩
      rcases Generator.carries_of_generate linkFree generated with
        ⟨target, records, bytes, first, found, loaded, encodes, there⟩
      have second := carries_of_outcomesOf first.linkFree rest othersSucceeded
      refine ⟨records, bytes, session.clock session.readings, loaded, encodes, ?_⟩
      apply Tree.nodeAt_of_entryLocation? second.linkFree
        (second.entryLocation? first.linkFree found)
      rw [Tree.node?_eq_some_iff_view rfl] at there ⊢
      apply second.others target _ _ there
      rintro ⟨other, inside, name, parent, rfl, same⟩
      rw [Generator.output_eq_child] at found
      rcases Tree.exists_name_of_entryLocation?_child found with ⟨own, above, shape, text⟩
      cases shape
      exact last other inside (Part.ext (same.symm.trans text))
  | cons first earlier ih =>
      rcases generate_of_outcomesOf rfl done succeeded with
        ⟨middle, others, generated, rest, othersSucceeded⟩
      rcases Generator.carries_of_generate linkFree generated with ⟨_, _, _, carries, _⟩
      have kept := holds.later linkFree carries
      rw [← holds.loaded_eq linkFree kept carries.linkFree]
      exact ih carries.linkFree kept rest othersSucceeded

/-- Whether the module of a table holds the rendering of the table after a run. -/
def HoldsModule (before after : Session) (directory table : Path) : Prop :=
  ∃ records bytes time, Table.load table before = .ok records before ∧
    (Generator.messageCodes.render table records).encode? = some bytes ∧
    after.tree.nodeAt (Generator.messageCodes.output table directory) =
      .ok (.file bytes 0o644 time)

/-- After a run without failures, every module is that of the last table it belongs to. -/
theorem holdsModule_of_generateAll {source : Path} {report : Report}
    (linkFree : session.tree.LinkFree)
    (done : generateAll .messageCodes ⟨true, keepGoing⟩ source directory session =
      .ok report after)
    (succeeded : report.isOk = true) :
    ∃ tables, session.findTables source ".csv" = .ok tables ∧
      ∀ earlier table later, tables = earlier ++ table :: later →
        (∀ other ∈ later, Generator.messageCodes.output other directory ≠
          Generator.messageCodes.output table directory) →
        HoldsModule session after directory table := by
  rcases generateAll_eq_ok_iff.mp done with ⟨tables, outcomes, found, run, rfl⟩
  refine ⟨tables, found, ?_⟩
  rintro earlier table later rfl apart
  have inside : table ∈ earlier ++ table :: later := by simp
  rcases Tree.exists_holdsTable linkFree found inside with ⟨location, node, holds⟩
  have last : ∀ other ∈ later, Generator.moduleFile other ≠ Generator.moduleFile table := by
    intro other among same
    exact apart other among (Generator.output_eq_output_iff.mpr same)
  rcases exists_module_of_outcomesOf linkFree holds run succeeded last with
    ⟨records, bytes, time, loaded, written⟩
  exact ⟨records, bytes, time, Table.load_of_loaded loaded, written⟩

/-- A session with tables of the same name in two directories. -/
def twins : Session :=
  { Session.fresh 0o022 .passes fun _ => ⟨0, 0⟩ with
    tree := ((((Tree.empty 0o700 ⟨0, 0⟩).addEntry [⟨"a", by decide⟩]
      (.directory 0o755 ⟨0, 0⟩) ⟨0, 0⟩).addEntry [⟨"b", by decide⟩]
      (.directory 0o755 ⟨0, 0⟩) ⟨0, 0⟩).addEntry [⟨"x.csv", by decide⟩, ⟨"a", by decide⟩]
      (.file "0,A,p\n".toUTF8 0o644 ⟨0, 0⟩) ⟨0, 0⟩).addEntry
      [⟨"x.csv", by decide⟩, ⟨"b", by decide⟩] (.file "1,B,q\n".toUTF8 0o644 ⟨0, 0⟩) ⟨0, 0⟩ }

theorem findTables_twins :
    twins.findTables (.ofText ".") ".csv" =
      .ok [.ofText "a/x.csv", .ofText "b/x.csv"] :=
  Tree.findTables_csv_of_select (by cbv) (by cbv) (by cbv)

theorem generateAll_twins :
    ∃ report after, generateAll .messageCodes ⟨true, false⟩ (.ofText ".") (.ofText "o")
      twins = .ok report after ∧ report.isOk = true := by
  have run : isDoneWith (fun outcomes _ => (Report.ofOutcomes outcomes).isOk)
      (outcomesOf .messageCodes ⟨true, false⟩ (.ofText "o")
        [.ofText "a/x.csv", .ofText "b/x.csv"] twins) = true := by
    decide +kernel
  rcases exists_of_isDoneWith run with ⟨outcomes, after, done, succeeded⟩
  exact ⟨.ofOutcomes outcomes, after,
    generateAll_eq_ok_iff.mpr ⟨_, outcomes, findTables_twins, done, rfl⟩, succeeded⟩

/-- The module of both tables is that of the second. -/
theorem holdsModule_of_generateAll_twins :
    ∃ report after, generateAll .messageCodes ⟨true, false⟩ (.ofText ".") (.ofText "o")
        twins = .ok report after ∧
      HoldsModule twins after (.ofText "o") (.ofText "b/x.csv") := by
  rcases generateAll_twins with ⟨report, after, done, succeeded⟩
  have linkFree : twins.tree.LinkFree := by decide +kernel
  rcases holdsModule_of_generateAll linkFree done succeeded with ⟨tables, found, modules⟩
  rw [findTables_twins] at found
  cases found
  refine ⟨report, after, done, modules [.ofText "a/x.csv"] (.ofText "b/x.csv") [] rfl ?_⟩
  intro other inside
  cases inside

/-- The module of a table is lost when a table of the same name comes later. -/
theorem not_holdsModule_of_generateAll :
    ¬ ∀ (session after : Session) (source directory : Path) (report : Report)
        (tables : List Path),
      session.tree.LinkFree →
        session.findTables source ".csv" = .ok tables →
          generateAll .messageCodes ⟨true, false⟩ source directory session = .ok report after →
            report.isOk = true →
              ∀ table ∈ tables, HoldsModule session after directory table := by
  intro every
  rcases generateAll_twins with ⟨report, after, done, succeeded⟩
  have linkFree : twins.tree.LinkFree := by decide +kernel
  have modules := every twins after _ _ report _ linkFree findTables_twins done succeeded
  rcases modules (.ofText "a/x.csv") (by simp) with ⟨records, bytes, time, _, written, first⟩
  rcases modules (.ofText "b/x.csv") (by simp) with ⟨others, rest, later, _, rewritten, second⟩
  have same : Generator.messageCodes.output (.ofText "a/x.csv") (.ofText "o") =
      Generator.messageCodes.output (.ofText "b/x.csv") (.ofText "o") := by decide +kernel
  rw [same, second] at first
  cases (Node.file.inj (Except.ok.inj first)).1
  have origins := (LookupModule.render_injective (Text.eq_of_encode? written rewritten)).2.2
  exact absurd origins (by decide +kernel)

end Batch

end MessageTables
