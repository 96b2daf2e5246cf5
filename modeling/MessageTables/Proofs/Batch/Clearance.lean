import MessageTables.Proofs.Batch.Cleaning
import MessageTables.Proofs.Batch.Containment
import MessageTables.Proofs.Batch.Outputs

/-!
# What removing the modules comes to

All modules are removed from one directory, and there the removal of one changes nothing
for the others. So what becomes of a table is known from the tree before the run: its
module is removed if an earlier table has not had it removed, or is reported for what is
in the way, or is not there.

Nothing that a search for tables asks for is changed, so a second run finds the same
tables. It has nothing to remove.
-/

namespace MessageTables

theorem Path.Nameable.below {path : Path} (nameable : path.Nameable) (names : List Name) :
    (path.below names).Nameable := by
  intro part among differs
  rcases List.mem_append.mp among with inside | named
  · exact nameable part inside differs
  · rcases List.mem_map.mp named with ⟨name, _, rfl⟩
    exact name.isName

namespace Generator

variable {table : Path}

theorem isName_moduleFile (nullFree : table.NullFree) (short : table.name.byteSize ≤ 255)
    (ending : (".csv" : Text).toList <:+ table.name.toList) : IsName (moduleFile table).text := by
  have sizes := congrArg Text.byteSize (moduleName_append ending)
  rw [Text.byteSize_append, show (".csv" : Text).byteSize = 4 from rfl] at sizes
  refine ⟨(moduleFile table).isPart, fun same => moduleFile_ne_up table (Part.ext same),
    null_not_mem_moduleFile nullFree, ?_⟩
  rw [moduleFile, Text.byteSize_append, show (".py" : Text).byteSize = 3 from rfl]
  omega

end Generator

namespace Batch

variable {source directory table : Path} {tables removed : List Path} {session after : Session}
  {location : Location}

/-- The modules of tables that can be removed, each once, in the order of their first tables. -/
def removals (directory : Path) (tables : List Path) (tree : Tree) : List Path :=
  ((tables.map (Generator.messageCodes.output · directory)).filter tree.isRemovable).eraseDups

/-- What the log says of the modules of some tables that something keeps from being removed. -/
def obstructions (directory : Path) (tables : List Path) (tree : Tree) : List LogEntry :=
  tables.filterMap fun table => obstruction? tree (Generator.messageCodes.output table directory)

/-! ## One module -/

section Removed

variable {middle : Tree} {time : Timestamp}
  (linkFree : session.tree.LinkFree)
  (removable : session.tree.Removable (Generator.messageCodes.output table directory) location)

include linkFree removable

theorem removal_output_removeEntry (other : Path) (time : Timestamp) :
    (session.tree.removeEntry location time).removal
        (Generator.messageCodes.output other directory) =
      if Generator.messageCodes.output other directory =
          Generator.messageCodes.output table directory then .error (.code .noEntry)
      else session.tree.removal (Generator.messageCodes.output other directory) := by
  rw [Generator.output_eq_child] at removable
  have apart := Tree.removal_removeEntry linkFree removable (Generator.moduleFile_ne_up table)
    (Generator.moduleFile_ne_up other) time
  rw [← Generator.output_eq_child] at apart
  rw [apart]
  exact if_congr Generator.output_eq_output_iff.symm rfl rfl

theorem removals_cons_of_removable :
    removals directory (table :: tables) session.tree =
      Generator.messageCodes.output table directory ::
        removals directory tables (session.tree.removeEntry location time) := by
  have own := Tree.isRemovable_iff.mpr ⟨location, removable⟩
  have others : ∀ output ∈ tables.map (Generator.messageCodes.output · directory),
      (!output == Generator.messageCodes.output table directory &&
        session.tree.isRemovable output) =
        (session.tree.removeEntry location time).isRemovable output := by
    intro output among
    rcases List.mem_map.mp among with ⟨other, _, rfl⟩
    have asked := removal_output_removeEntry linkFree removable other time
    rw [Tree.isRemovable, Tree.isRemovable, asked]
    by_cases same : Generator.messageCodes.output other directory =
        Generator.messageCodes.output table directory
    · rw [if_pos same, beq_iff_eq.mpr same, Bool.not_true, Bool.false_and]
      rfl
    · rw [if_neg same, beq_eq_false_iff_ne.mpr same, Bool.not_false, Bool.true_and]
  rw [removals, List.map_cons, List.filter_cons_of_pos own, List.eraseDups_cons, List.filter_filter,
    List.filter_congr others, removals]

theorem obstruction?_removeEntry (other : Path) (time : Timestamp) :
    obstruction? (session.tree.removeEntry location time)
        (Generator.messageCodes.output other directory) =
      obstruction? session.tree (Generator.messageCodes.output other directory) := by
  have asked := removal_output_removeEntry linkFree removable other time
  rw [obstruction?, obstruction?]
  by_cases same : Generator.messageCodes.output other directory =
      Generator.messageCodes.output table directory
  · rw [if_pos same] at asked
    rw [same] at asked ⊢
    rw [Tree.obstacle?_eq_none_of_removable removable, Tree.obstacle?, asked]
  · rw [if_neg same] at asked
    rw [Tree.obstacle?, Tree.obstacle?, asked]

end Removed

theorem removals_cons_of_unremovable
    (nothing : ∀ location, ¬ session.tree.Removable
      (Generator.messageCodes.output table directory) location) :
    removals directory (table :: tables) session.tree = removals directory tables session.tree := by
  rw [removals, List.map_cons, List.filter_cons_of_neg, removals]
  rw [Tree.isRemovable_iff]
  rintro ⟨location, removable⟩
  exact nothing location removable

/-! ## All modules -/

/-- Whether the log of a session goes on from that of another, with some errors and others. -/
def Logs (before after : Session) (errors others : List LogEntry) : Prop :=
  ∃ entries, after.log = before.log ++ entries ∧
    entries.filter (·.level = .error) = errors ∧ entries.filter (·.level ≠ .error) = others

theorem level_of_obstruction? {tree : Tree} {output : Path} {entry : LogEntry}
    (noted : entry ∈ (obstruction? tree output).toList) : entry.level = .error := by
  rcases Option.map_eq_some_iff.mp (Option.mem_toList.mp noted) with ⟨code, _, rfl⟩
  rfl

namespace Clearing

theorem removed_eq (linkFree : session.tree.LinkFree)
    (clearing : Clearing .messageCodes directory session tables removed after) :
    removed = removals directory tables session.tree := by
  induction clearing with
  | nil session => rfl
  | @removed table tables removed session middle after location time removable tree log rest ih =>
      have carries := (Tree.clears_removeEntry removable time).carries linkFree
      rw [tree] at ih
      rw [removals_cons_of_removable linkFree removable, ← ih carries.linkFree]
  | @kept table tables removed session middle after nothing tree log rest ih =>
      rw [tree] at ih
      rw [removals_cons_of_unremovable nothing, ih linkFree]

theorem logs (linkFree : session.tree.LinkFree)
    (clearing : Clearing .messageCodes directory session tables removed after) :
    Logs session after (obstructions directory tables session.tree) (removed.map removalEntry) := by
  induction clearing with
  | nil session => exact ⟨[], (List.append_nil _).symm, rfl, rfl⟩
  | @removed table tables removed session middle after location time removable tree log rest ih =>
      have carries := (Tree.clears_removeEntry removable time).carries linkFree
      rw [tree] at ih
      rcases ih carries.linkFree with ⟨entries, later, errors, others⟩
      refine ⟨removalEntry (Generator.messageCodes.output table directory) :: entries, ?_, ?_, ?_⟩
      · rw [later, log, List.append_assoc, List.singleton_append]
      · rw [List.filter_cons_of_neg (by simp [removalEntry]), errors, obstructions,
          obstructions, List.filterMap_cons_none]
        · exact List.filterMap_congr fun other _ =>
            obstruction?_removeEntry linkFree removable other time
        · rw [obstruction?, Tree.obstacle?_eq_none_of_removable removable]
          rfl
      · rw [List.filter_cons_of_pos (by simp [removalEntry]), others]
        rfl
  | @kept table tables removed session middle after nothing tree log rest ih =>
      rw [tree] at ih
      rcases ih linkFree with ⟨entries, later, errors, others⟩
      refine ⟨(obstruction? session.tree (Generator.messageCodes.output table directory)).toList ++
        entries, ?_, ?_, ?_⟩
      · rw [later, log, List.append_assoc]
      · rw [List.filter_append, errors, List.filter_eq_self.mpr]
        · rw [obstructions, obstructions, List.filterMap_cons]
          cases obstruction? session.tree (Generator.messageCodes.output table directory) <;> rfl
        · intro entry noted
          exact decide_eq_true (level_of_obstruction? noted)
      · rw [List.filter_append, others, List.filter_eq_nil_iff.mpr, List.nil_append]
        intro entry noted
        simp [level_of_obstruction? noted]

theorem keepsOthers (linkFree : session.tree.LinkFree)
    (clearing : Clearing .messageCodes directory session tables removed after) :
    session.tree.KeepsOthers after.tree
      (HoldsRemovable .messageCodes directory tables session.tree) := by
  induction clearing with
  | nil session => exact fun _ _ _ => rfl
  | @removed table tables removed session middle after location time removable tree log rest ih =>
      have clears := Tree.clears_removeEntry removable time
      rw [tree] at ih
      apply ((Tree.keepsOthers_removeEntry removable time).trans
        (ih (clears.carries linkFree).linkFree)).weaken
      rintro key (rfl | ⟨other, inside, also⟩)
      · exact holdsRemovable_cons.mpr (Or.inl removable)
      · exact holdsRemovable_cons.mpr
          (Or.inr ⟨other, inside, ((clears.removable_iff linkFree).mp also).1⟩)
  | @kept table tables removed session middle after nothing tree log rest ih =>
      rw [tree] at ih
      exact (ih linkFree).weaken fun key gone => holdsRemovable_cons.mpr (Or.inr gone)

/-- Where nothing can be removed, nothing is changed. -/
theorem unchanged (clearing : Clearing .messageCodes directory session tables removed after)
    (nothing : ∀ location, ¬ HoldsRemovable .messageCodes directory tables session.tree location) :
    removed = [] ∧ after.tree = session.tree := by
  induction clearing with
  | nil session => exact ⟨rfl, rfl⟩
  | @removed table tables removed session middle after location time removable tree log rest ih =>
      exact absurd (holdsRemovable_cons.mpr (Or.inl removable)) (nothing location)
  | @kept table tables removed session middle after own tree log rest ih =>
      rw [tree] at ih
      exact ih fun location gone => nothing location (holdsRemovable_cons.mpr (Or.inr gone))

end Clearing

/-! ## Tables -/

/-- Files that could be removed are named as modules are. -/
theorem namesModule_of_holdsRemovable {tree : Tree}
    (gone : HoldsRemovable .messageCodes directory tables tree location) :
    Tree.NamesModule tables location := by
  rcases gone with ⟨table, inside, removable⟩
  have found := removable.found
  rw [Generator.output_eq_child] at found
  rcases Tree.exists_name_of_entryLocation?_child found with ⟨name, above, rfl, same⟩
  exact ⟨table, inside, name, above, rfl, same⟩

theorem nodeAt_table_of_clears (linkFree : session.tree.LinkFree)
    (found : session.findTables source ".csv" = .ok tables)
    (clears : session.tree.Clears after.tree
      (HoldsRemovable .messageCodes directory tables session.tree)) (inside : table ∈ tables) :
    after.tree.nodeAt table = session.tree.nodeAt table := by
  rcases Tree.exists_holdsTable linkFree found inside with ⟨location, node, holds⟩
  have carries := (clears.carries linkFree).weaken fun _ => namesModule_of_holdsRemovable
  have later := holds.later linkFree carries
  rw [Tree.nodeAt_of_entryLocation? linkFree holds.found holds.there,
    Tree.nodeAt_of_entryLocation? carries.linkFree later.found later.there]

/-- The tables are found again. -/
theorem findTables_of_clears {root : Location} (linkFree : session.tree.LinkFree)
    (sourceFree : source.NullFree)
    (located : session.tree.locate source = .ok root)
    (rooted : session.tree.isDirectory root = true)
    (found : session.findTables source ".csv" = .ok tables)
    (clears : session.tree.Clears after.tree
      (HoldsRemovable .messageCodes directory tables session.tree)) :
    after.findTables source ".csv" = .ok tables := by
  refine (clears.carries linkFree).findTables_again linkFree sourceFree located rooted ?_ ?_ found
  · intro names absent present
    rw [clears.keptIn.isDirectory present] at absent
    cases absent
  · intro name above node ending isFile
    have kept : ¬ HoldsRemovable .messageCodes directory tables session.tree (name :: above) :=
      fun gone => Tree.not_namesModule_of_suffix ending above tables
        (namesModule_of_holdsRemovable gone)
    rw [clears.found_iff (Node.isDirectory_eq_false_of_isFile isFile), and_iff_left kept]

/-- What removing the modules of some tables has come to. -/
structure Cleared (directory : Path) (tables : List Path) (before : Session) (removed : List Path)
    (after : Session) : Prop where
  inOrder : removed = removals directory tables before.tree
  removable : ∀ table ∈ tables,
    before.tree.isRemovable (Generator.messageCodes.output table directory) = true ↔
      ∃ location, before.tree.LeadsToFile (Generator.messageCodes.output table directory) location
  clears : before.tree.Clears after.tree fun location => ∃ table ∈ tables,
    before.tree.LeadsToFile (Generator.messageCodes.output table directory) location
  keepsOthers : before.tree.KeepsOthers after.tree fun location => ∃ table ∈ tables,
    before.tree.LeadsToFile (Generator.messageCodes.output table directory) location
  keepsTables : ∀ table ∈ tables, after.tree.nodeAt table = before.tree.nodeAt table
  logs : Logs before after (obstructions directory tables before.tree) (removed.map removalEntry)
  obstructed : ∀ table ∈ tables,
    (∃ code, before.tree.obstacle? (Generator.messageCodes.output table directory) = some code) ↔
      before.tree.IsObstructed (Generator.messageCodes.output table directory)

section Short

variable (linkFree : session.tree.LinkFree) (sourceFree : source.NullFree)
  (directoryFree : directory.NullFree)

include linkFree sourceFree

/-- What a search is refused is a path that is too long, or one that a right is missing for. -/
theorem exists_refused_of_short (short : ∀ part ∈ source.parts, part.text.byteSize ≤ 255)
    {failure : Failure} (refused : session.findTables source ".csv" = .error failure) :
    ∃ path code text, session.tree.Asks session.links source path ∧
      failure = .system (.ofCode code text) ∧
      (code = .denied ∧ session.tree.nodeAt path = .error (.code .denied) ∨
        code = .nameTooLong ∧ Tree.pathLimit < path.text.byteSize) := by
  rcases Tree.exists_refused_of_findTables refused with
    ⟨path, code, text, asks, same, refusal, asked⟩
  refine ⟨path, code, text, asks, same, ?_⟩
  have nameable := Path.nameable_of_short sourceFree short
  rcases refusal with rfl | rfl
  · right
    have located := Tree.locate_of_nodeAt_refused (Or.inl rfl) asked
    cases asks with
    | itself => exact ⟨rfl, Tree.long_of_locate linkFree nameable located⟩
    | below root looks => exact ⟨rfl, Tree.long_of_locate linkFree (nameable.below _) located⟩
  · exact Or.inl ⟨rfl, asked⟩

include directoryFree

theorem exists_cleared (short : ∀ part ∈ directory.parts, part.text.byteSize ≤ 255)
    (found : session.findTables source ".csv" = .ok tables) :
    ∃ removed after, clean .messageCodes source directory session = .ok removed after ∧
      Cleared directory tables session removed after := by
  have nullFree {table : Path} (inside : table ∈ tables) : table.NullFree :=
    nullFree_of_mem_findTables sourceFree found inside
  have isName (table : Path) (inside : table ∈ tables) :
      IsName (Generator.moduleFile table).text := by
    rcases Tree.exists_name_of_mem_findTables found inside with ⟨names, name, rfl, ending, _⟩
    apply Generator.isName_moduleFile (nullFree inside)
    · rw [Path.name_child]
      exact name.isName.2.2.2
    · rw [Path.name_child]
      exact ending
  have leads (table : Path) (inside : table ∈ tables) (location : Location) :
      session.tree.Removable (Generator.messageCodes.output table directory) location ↔
        session.tree.LeadsToFile (Generator.messageCodes.output table directory) location := by
    rw [Generator.output_eq_child]
    exact Tree.removable_child_iff linkFree (isName table inside)
  have gone (location : Location) : (∃ table ∈ tables,
      session.tree.LeadsToFile (Generator.messageCodes.output table directory) location) ↔
        HoldsRemovable .messageCodes directory tables session.tree location :=
    exists_congr fun table => and_congr_right fun inside => (leads table inside location).symm
  rcases exists_clearing session fun table inside =>
    Generator.nullFree_output (nullFree inside) directoryFree with ⟨removed, after, run, clearing⟩
  have clears := clearing.clears linkFree
  have cleans : clean .messageCodes source directory session =
      cleanEach .messageCodes directory tables session := clean_of_found found
  refine ⟨removed, after, cleans.trans run, clearing.removed_eq linkFree, ?_,
    clears.congr gone, (clearing.keepsOthers linkFree).weaken fun location => (gone location).mpr,
    fun table => nodeAt_table_of_clears linkFree found clears, clearing.logs linkFree, ?_⟩
  · intro table inside
    rw [Tree.isRemovable_iff]
    exact exists_congr (leads table inside)
  · intro table inside
    rw [Generator.output_eq_child]
    exact Tree.exists_obstacle_iff linkFree (isName table inside)
      (Path.nameable_of_short directoryFree short) directoryFree

/-- A second run removes nothing and changes nothing. -/
theorem exists_clean_again (found : session.findTables source ".csv" = .ok tables)
    (done : clean .messageCodes source directory session = .ok removed after) :
    ∃ again, clean .messageCodes source directory after = .ok [] again ∧
      again.tree = after.tree := by
  have nullFree (table : Path) (inside : table ∈ tables) :
      (Generator.messageCodes.output table directory).NullFree :=
    Generator.nullFree_output (nullFree_of_mem_findTables sourceFree found inside) directoryFree
  have cleans : clean .messageCodes source directory session =
      cleanEach .messageCodes directory tables session := clean_of_found found
  rw [cleans] at done
  cases tested : session.tree.test Node.isDirectory source with
  | error error =>
      rw [Session.findTables, Tree.findTables, tested] at found
      cases found
  | ok isDirectory =>
      cases isDirectory with
      | false =>
          -- there are no tables, and nothing has been done
          rw [Session.findTables, Tree.findTables, tested] at found
          cases found
          cases done
          exact ⟨session, cleans, rfl⟩
      | true =>
          rcases Tree.exists_locate_of_test tested with ⟨root, located, rooted⟩
          rcases exists_clearing session nullFree with ⟨_, _, run, clearing⟩
          rw [done] at run
          cases run
          have clears := clearing.clears linkFree
          have refound := findTables_of_clears linkFree sourceFree located rooted found clears
          have recleans : clean .messageCodes source directory after =
              cleanEach .messageCodes directory tables after := clean_of_found refound
          rcases exists_clearing after nullFree with ⟨others, again, rerun, reclearing⟩
          have nothing (location : Location) :
              ¬ HoldsRemovable .messageCodes directory tables after.tree location := by
            rintro ⟨table, inside, removable⟩
            rcases (clears.removable_iff linkFree).mp removable with ⟨early, left⟩
            exact left ⟨table, inside, early⟩
          rcases reclearing.unchanged nothing with ⟨rfl, unchanged⟩
          exact ⟨again, recleans.trans rerun, unchanged⟩

end Short

/--
Removing the modules of all tables fails only where the search for the tables is refused a
path, and before anything is done. Otherwise all modules that are files in a directory
that may be written to are removed and nothing else, what is in the way of any other is
logged, and a second run changes nothing.
-/
theorem clean_clears (linkFree : session.tree.LinkFree) (sourceFree : source.NullFree)
    (directoryFree : directory.NullFree)
    (sourceShort : ∀ part ∈ source.parts, part.text.byteSize ≤ 255)
    (directoryShort : ∀ part ∈ directory.parts, part.text.byteSize ≤ 255) :
    (∀ failure, session.findTables source ".csv" = .error failure →
        clean .messageCodes source directory session = .error failure session ∧
          ∃ path code text, session.tree.Asks session.links source path ∧
            failure = .system (.ofCode code text) ∧
            (code = .denied ∧ session.tree.nodeAt path = .error (.code .denied) ∨
              code = .nameTooLong ∧ Tree.pathLimit < path.text.byteSize)) ∧
      ∀ tables, session.findTables source ".csv" = .ok tables →
        ∃ removed after, clean .messageCodes source directory session = .ok removed after ∧
          Cleared directory tables session removed after ∧
          ∃ again, clean .messageCodes source directory after = .ok [] again ∧
            again.tree = after.tree := by
  refine ⟨fun failure refused => ⟨clean_of_not_found refused, ?_⟩, fun tables found => ?_⟩
  · exact exists_refused_of_short linkFree sourceFree sourceShort refused
  · rcases exists_cleared linkFree sourceFree directoryFree directoryShort found with
      ⟨removed, after, done, cleared⟩
    exact ⟨removed, after, done, cleared,
      exists_clean_again linkFree sourceFree directoryFree found done⟩

/-- Two tables of one name and their module, and a directory at the path of another module. -/
def sharedAndBlocked : Session :=
  { Session.fresh 0o022 .passes fun _ => ⟨0, 0⟩ with
    tree := ((((((Tree.empty 0o700 ⟨0, 0⟩).addEntry [⟨"g.csv", by decide⟩]
      (.file "0,A,p\n".toUTF8 0o644 ⟨0, 0⟩) ⟨0, 0⟩).addEntry [⟨"g.py", by decide⟩]
      (.file .empty 0o644 ⟨0, 0⟩) ⟨0, 0⟩).addEntry [⟨"h.csv", by decide⟩]
      (.file "1,B,q\n".toUTF8 0o644 ⟨0, 0⟩) ⟨0, 0⟩).addEntry [⟨"h.py", by decide⟩]
      (.directory 0o755 ⟨0, 0⟩) ⟨0, 0⟩).addEntry [⟨"i", by decide⟩]
      (.directory 0o755 ⟨0, 0⟩) ⟨0, 0⟩).addEntry [⟨"g.csv", by decide⟩, ⟨"i", by decide⟩]
      (.file "2,C,r\n".toUTF8 0o644 ⟨0, 0⟩) ⟨0, 0⟩ }

theorem findTables_sharedAndBlocked :
    sharedAndBlocked.findTables (.ofText ".") ".csv" =
      .ok [.ofText "g.csv", .ofText "h.csv", .ofText "i/g.csv"] :=
  Tree.findTables_csv_of_select (by cbv) (by cbv) (by cbv)

/-- The module of both tables is removed once, and the directory is left alone and reported. -/
theorem clean_clears_sharedAndBlocked :
    ∃ after, clean .messageCodes (.ofText ".") (.ofText ".") sharedAndBlocked =
        .ok [.ofText "g.py"] after ∧
      after.tree.node? [⟨"g.py", by decide⟩] = none ∧
      after.tree.node? [⟨"h.py", by decide⟩] = some (.directory 0o755 ⟨0, 0⟩) ∧
      after.log.filter (·.level = .error) =
        [retentionEntry (.ofText "h.py") (.ofCode .isDirectory "h.py")] ∧
      ∃ again, clean .messageCodes (.ofText ".") (.ofText ".") after = .ok [] again ∧
        again.tree = after.tree := by
  have linkFree : sharedAndBlocked.tree.LinkFree := by decide +kernel
  have free : (Path.ofText ".").NullFree := by decide
  have short : ∀ part ∈ (Path.ofText ".").parts, part.text.byteSize ≤ 255 := by decide
  rcases (clean_clears linkFree free free short short).2 _ findTables_sharedAndBlocked with
    ⟨removed, after, done, cleared, rerun⟩
  have listed : removals (.ofText ".")
      [.ofText "g.csv", .ofText "h.csv", .ofText "i/g.csv"] sharedAndBlocked.tree =
        [.ofText "g.py"] := by decide +kernel
  have noted : obstructions (.ofText ".")
      [.ofText "g.csv", .ofText "h.csv", .ofText "i/g.csv"] sharedAndBlocked.tree =
        [retentionEntry (.ofText "h.py") (.ofCode .isDirectory "h.py")] := by decide +kernel
  have leads : sharedAndBlocked.tree.LeadsToFile
      (Generator.messageCodes.output (.ofText "g.csv") (.ofText ".")) [⟨"g.py", by decide⟩] :=
    ⟨by cbv, ⟨.file .empty 0o644 ⟨0, 0⟩, by cbv, rfl⟩, by cbv⟩
  have directory : sharedAndBlocked.tree.node? [⟨"h.py", by decide⟩] =
      some (.directory 0o755 ⟨0, 0⟩) := by decide +kernel
  rw [cleared.inOrder, listed] at done
  refine ⟨after, done, cleared.clears.removed _ ⟨_, List.mem_cons_self, leads⟩, ?_, ?_, rerun⟩
  · rw [cleared.keepsOthers, directory]
    · rintro ⟨table, inside, located, ⟨node, there, isFile⟩, granted⟩
      rw [directory] at there
      cases there
      cases isFile
    · have empty : ∀ entry ∈ sharedAndBlocked.tree.entries,
          entry.1.tail ≠ [⟨"h.py", by decide⟩] := by decide +kernel
      rintro name ⟨table, inside, located, ⟨node, there, isFile⟩, granted⟩
      exact empty _ (Tree.mem_entries.mpr there) rfl
  · rcases cleared.logs with ⟨entries, later, errors, _⟩
    rw [later, show sharedAndBlocked.log = [] from rfl, List.nil_append, errors, noted]

/-! ## Long ways to a directory -/

/-- The path that leads into a directory, then out of it and into it again a number of times. -/
def windingPath (part : Part) (count : Nat) : Path :=
  ⟨.relative, (part :: (List.replicate count [Part.up, part]).flatten).reverse⟩

theorem mem_windingPath {part other : Part} {count : Nat}
    (among : other ∈ (windingPath part count).parts) : other = part ∨ other = Part.up := by
  rcases List.mem_cons.mp (List.mem_reverse.mp among) with same | inside
  · exact Or.inl same
  · rcases List.mem_flatten.mp inside with ⟨turn, listed, within⟩
    rw [List.eq_of_mem_replicate listed] at within
    simpa [or_comm] using within

theorem size_windingPath (part : Part) (count : Nat) :
    (windingPath part count).text.byteSize =
      count * (part.text.byteSize + 4) + part.text.byteSize := by
  have up : Part.up.text.byteSize = 2 := rfl
  have none : Anchor.relative.text.byteSize = 0 := rfl
  rw [windingPath, Path.size_text, none]
  induction count with
  | zero => simp
  | succ count ih =>
      rw [List.replicate_succ, List.flatten_cons, List.cons_append, List.singleton_append,
        List.map_cons, List.map_cons, List.sum_cons, List.sum_cons, up]
      rw [Nat.succ_mul]
      omega

/-- Where the way to the directory with the tables is too long, the run fails. -/
theorem not_clean_succeeds :
    ¬ ∀ (session : Session) (source directory : Path), session.tree.LinkFree →
        source.NullFree → directory.NullFree →
          (∀ part ∈ source.parts, part.text.byteSize ≤ 255) →
            (∀ part ∈ directory.parts, part.text.byteSize ≤ 255) →
              ∃ removed after,
                clean .messageCodes source directory session = .ok removed after := by
  intro every
  have linkFree : twins.tree.LinkFree := by decide +kernel
  have parts {other : Part} (among : other ∈ (windingPath ⟨"a", by decide⟩ 820).parts) :
      Symbol.char '\x00' ∉ other.text.toList ∧ other.text.byteSize ≤ 255 := by
    rcases mem_windingPath among with rfl | rfl <;> decide
  have long : Tree.pathLimit < (windingPath ⟨"a", by decide⟩ 820).text.byteSize := by
    rw [size_windingPath]
    decide
  have nullFree : (windingPath ⟨"a", by decide⟩ 820).NullFree := fun other among => (parts among).1
  rcases every twins (windingPath ⟨"a", by decide⟩ 820) (.ofText "o") linkFree nullFree
    (by decide) (fun other among => (parts among).2) (by decide) with ⟨removed, after, done⟩
  have refused : twins.tree.nodeAt (windingPath ⟨"a", by decide⟩ 820) =
      .error (.code .nameTooLong) := by
    apply Tree.nodeAt_of_locate_error
    rcases Tree.checkPath_cases nullFree with valid | refused
    · exact absurd (Path.checkPath_eq_ok_iff.mp valid).2 (Nat.not_le.mpr long)
    · rw [Tree.locate, Tree.place, refused]
      rfl
  have fails : clean .messageCodes (windingPath ⟨"a", by decide⟩ 820) (.ofText "o") twins = _ :=
    clean_of_not_found (Tree.findTables_of_refused (Or.inl rfl) refused)
  rw [fails] at done
  cases done

end Batch

end MessageTables
