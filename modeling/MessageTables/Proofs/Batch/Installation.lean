import MessageTables.Proofs.Batch.Effects
import MessageTables.Proofs.FileSystem.Removal
import MessageTables.Proofs.Glob.Repeated

/-!
# What a run installs

A run changes a tree in three ways only: modules are written into the output
directory, that directory and those above it are made where they are missing, and
times of directories change. `Installs` says so and keeps what the writing of a module
proves of it: it is there, and it can be removed again.

A step that is refused installs as well, namely directories without a module. So a
run installs something whether it is done or stopped, and no case is left out.
-/

namespace MessageTables

namespace Path

theorem destination_child (path : Path) (name : Name) :
    (path.child name.part).destination = name :: path.destination := by
  have named : Name.ofText? name.part.text = some name := Name.ofText?_text name
  simp [destination, child, named]

theorem destination_suffix {path other : Path} (within : path.parts <+: other.parts) :
    path.destination <:+ other.destination := by
  rw [destination, destination, List.reverse_suffix]
  exact within.filterMap _

end Path

namespace Tree

/-- Where the modules of some tables go. -/
def outputs (directory : Path) (tables : List Path) : List Location :=
  tables.map fun table => (Generator.messageCodes.output table directory).destination

/-- What the work on tables leaves, if the modules of some were written into a directory. -/
structure Installs (before after : Tree) (directory : Path) (written : List Path) : Prop where
  carries : before.Carries after (· ∈ outputs directory written)
  /-- What is new is a module or a directory on the way to the modules. -/
  added : ∀ location, before.node? location = none → (after.node? location).isSome = true →
    location ∈ outputs directory written ∨
      after.isDirectory location = true ∧ location <:+ directory.destination
  /-- A module that was written is there and can be removed. -/
  modules : ∀ table ∈ written, after.Removable (Generator.messageCodes.output table directory)
    (Generator.messageCodes.output table directory).destination

variable {before middle after : Tree} {directory path : Path} {written more : List Path}
  {location : Location} {node : Node}

namespace Installs

theorem refl {tree : Tree} (linkFree : tree.LinkFree) (directory : Path) :
    tree.Installs tree directory [] where
  carries := Carries.refl linkFree _
  added location absent present := by
    rw [absent] at present
    cases present
  modules _ inside := absurd inside List.not_mem_nil

theorem exists_node_of_mem (installs : before.Installs after directory written)
    (output : location ∈ outputs directory written) :
    ∃ node, after.node? location = some node ∧ node.isDirectory = false := by
  rcases List.mem_map.mp output with ⟨table, inside, rfl⟩
  exact (installs.modules table inside).there

/-- What is no directory is a module that was written, or was there before. -/
theorem old (installs : before.Installs after directory written)
    (noDirectory : node.isDirectory = false) (apart : location ∉ outputs directory written)
    (found : after.node? location = some node) : before.node? location = some node := by
  cases held : before.node? location with
  | none =>
      rcases installs.added location held (by rw [found]; rfl) with output | ⟨directory, _⟩
      · exact absurd output apart
      · rw [isDirectory_eq_of_node? found, noDirectory] at directory
        cases directory
  | some other =>
      have seen := view_of_node? held
      have kept := installs.carries.others location _ apart seen
      rw [(node?_eq_some_iff_view noDirectory).mp found] at kept
      rw [← held, node?_eq_some_iff_view noDirectory, seen, kept]

/-- What could be removed can still be removed, though it may have been replaced. -/
theorem removable (installs : before.Installs after directory written)
    (linkFree : before.LinkFree) (removable : before.Removable path location) :
    after.Removable path location := by
  rcases removable with ⟨found, ⟨node, there, noDirectory⟩, granted⟩
  refine ⟨installs.carries.entryLocation? linkFree found, ?_, ?_⟩
  · by_cases output : location ∈ outputs directory written
    · exact installs.exists_node_of_mem output
    · refine ⟨node, ?_, noDirectory⟩
      rw [node?_eq_some_iff_view noDirectory] at there ⊢
      exact installs.carries.others location node output there
  · rcases List.exists_cons_of_ne_nil (entryLocation?_ne_nil found) with ⟨name, above, rfl⟩
    exact installs.carries.grants (isDirectory_of_entryLocation? found) granted

/-- A module that can be removed could be removed before, if it was there. -/
theorem removable_of_after (installs : before.Installs after directory written)
    (linkFree : before.LinkFree) (descends : directory.Descends) {table : Path}
    (removable : after.Removable (Generator.messageCodes.output table directory) location)
    (there : before.node? location = some node) (noDirectory : node.isDirectory = false) :
    before.Removable (Generator.messageCodes.output table directory) location := by
  have carries := installs.carries
  have present : (before.node? location).isSome = true := by
    rw [there]
    rfl
  rcases removable with ⟨found, ⟨_, laterThere, _⟩, granted⟩
  have located := carries.locate_of_after linkFree (descends_output descends table)
    (locate_of_node? carries.linkFree found laterThere) present
  rw [Generator.output_eq_child] at located ⊢
  have entered := Step.ofText_part (Generator.moduleFile_ne_up table)
  have early := entryLocation?_of_locate linkFree entered located
  rcases List.exists_cons_of_ne_nil (entryLocation?_ne_nil early) with ⟨name, above, rfl⟩
  refine ⟨early, ⟨node, there, noDirectory⟩, ?_⟩
  exact (carries.grants_eq (isDirectory_of_entryLocation? early)).trans granted

theorem trans (first : before.Installs middle directory written)
    (second : middle.Installs after directory more) :
    before.Installs after directory (written ++ more) := by
  have both : outputs directory (written ++ more) =
      outputs directory written ++ outputs directory more := List.map_append
  refine ⟨?_, ?_, ?_⟩
  · rw [both]
    exact (first.carries.trans second.carries).weaken fun location => List.mem_append.mpr
  · rw [both]
    intro location absent present
    cases held : middle.node? location with
    | none =>
        apply (second.added location held present).imp_left
        exact List.mem_append_right _
    | some node =>
        rcases first.added location absent (by rw [held]; rfl) with output | ⟨isDirectory, within⟩
        · exact Or.inl (List.mem_append_left _ output)
        · exact Or.inr ⟨second.carries.isDirectory isDirectory, within⟩
  · intro table inside
    rcases List.mem_append.mp inside with early | late
    · exact second.removable first.carries.linkFree (first.modules table early)
    · exact second.modules table late

/-- What has become a directory was nothing before, and is on the way to the modules. -/
theorem new_directory (installs : before.Installs after directory written)
    (old : before.isDirectory location = false) (isDirectory : after.isDirectory location = true) :
    before.node? location = none ∧ location <:+ directory.destination := by
  have apart : location ∉ outputs directory written := by
    intro output
    rcases installs.exists_node_of_mem output with ⟨node, there, noDirectory⟩
    rw [isDirectory_eq_of_node? there, noDirectory] at isDirectory
    cases isDirectory
  have absent : before.node? location = none := by
    cases held : before.node? location with
    | none => rfl
    | some node =>
        have kept := installs.carries.others location node.lasting apart (view_of_node? held)
        rw [isDirectory_eq_view, kept, Option.any_some, Node.isDirectory_lasting] at isDirectory
        rw [isDirectory_eq_of_node? held, isDirectory] at old
        cases old
  refine ⟨absent, ?_⟩
  rcases installs.added location absent (isSome_of_isDirectory isDirectory) with
    output | ⟨_, within⟩
  · exact absurd output apart
  · exact within

/-- Modules are not named as tables are. -/
theorem namesModule (installs : before.Installs after directory written)
    (output : location ∈ outputs directory written) : NamesModule written location := by
  rcases List.mem_map.mp output with ⟨table, inside, rfl⟩
  have found := (installs.modules table inside).found
  rw [Generator.output_eq_child] at found
  rcases exists_name_of_entryLocation?_child found with ⟨name, above, shape, same⟩
  exact ⟨table, inside, name, above, by rw [Generator.output_eq_child, shape], same⟩

/-- The files with the suffix of tables are the same. -/
theorem tables_iff (installs : before.Installs after directory written) (name : Name)
    (above : Location) (node : Node) (ending : (".csv" : Text).toList <:+ name.text.toList)
    (isFile : node.isFile = true) :
    before.node? (name :: above) = some node ↔ after.node? (name :: above) = some node := by
  have noDirectory := Node.isDirectory_eq_false_of_isFile isFile
  have apart : name :: above ∉ outputs directory written := fun output =>
    not_namesModule_of_suffix ending above written (installs.namesModule output)
  constructor
  · intro found
    rw [node?_eq_some_iff_view noDirectory] at found ⊢
    exact installs.carries.others _ node apart found
  · exact installs.old noDirectory apart

end Installs

/-! ## Searching again -/

section Again

variable {links rule : LinkRule} {source : Path} {tables others : List Path} {root : Location}

theorem exists_root_of_findTables (linkFree : before.LinkFree) (descends : source.Descends)
    (found : before.findTables links source ".csv" = .ok tables) (nonempty : tables ≠ []) :
    ∃ root, source = .plain source.anchor root ∧ before.locate source = .ok root ∧
      before.isDirectory root = true := by
  rcases findTables_csv_eq_ok_iff.mp found with ⟨_, none⟩ | ⟨tested, _⟩
  · exact absurd none nonempty
  · rcases exists_nodeAt_of_test tested with ⟨node, asked, isDirectory⟩
    rcases nodeAt_eq_ok_iff.mp asked with ⟨root, located, there⟩
    exact ⟨root, plain_of_locate linkFree descends located, located,
      isDirectory_iff.mpr ⟨node, there, isDirectory⟩⟩

/-- New directories are within reach of a search if a module went there. -/
theorem Installs.reach (installs : before.Installs after directory written)
    (descends : directory.Descends) (nonempty : written ≠ []) (anchor : Anchor)
    (within : location <:+ directory.destination) :
    checkPath (.plain anchor location) = .ok () ∧
      ∀ inner, inner <:+ location → after.grants inner .enter = true := by
  rcases List.exists_mem_of_ne_nil written nonempty with ⟨table, inside⟩
  have found := (installs.modules table inside).found
  rw [Generator.output_eq_child] at found
  rcases exists_plain_of_entryLocation? installs.carries.linkFree descends found with
    ⟨name, above, _, file, plain⟩
  rw [file, plain, ← Path.plain_cons] at found
  rw [plain, Path.destination_plain] at within
  have long : 2 ≤ name.text.byteSize := by
    have texts : name.text = Generator.messageCodes.moduleName table ++ ".py" :=
      (congrArg Part.text file).symm
    have ending : (".py" : Text).byteSize = 3 := rfl
    rw [texts, Text.byteSize_append, ending]
    omega
  constructor
  · rcases entryLocation?_eq_some_iff.mp found with ⟨_, _, _, entered, _⟩
    have fits := (Path.checkPath_eq_ok_iff.mp (entry_eq_ok_iff.mp entered).1).2
    have shorter := Path.size_text_plain_le_of_suffix anchor within
    have further := Path.size_text_plain_le_of_anchor anchor directory.anchor above long
    exact Path.checkPath_plain (shorter.trans (further.trans fits))
  · intro inner higher
    exact enterable_of_entryLocation? installs.carries.linkFree found inner (higher.trans within)

/-- What is found again are the same tables. -/
theorem Installs.findTables_eq (installs : before.Installs after directory written)
    (linkFree : before.LinkFree) (descends : source.Descends)
    (found : before.findTables links source ".csv" = .ok tables) (nonempty : tables ≠ [])
    (again : after.findTables rule source ".csv" = .ok others) : others = tables := by
  rcases exists_root_of_findTables linkFree descends found nonempty with ⟨root, _, located, rooted⟩
  exact installs.carries.findTables_eq linkFree (test_isDirectory_of_locate located rooted)
    installs.tables_iff found again

/-- Tables are found again if the output directory was there or a module was written into it. -/
theorem Installs.findTables_again (installs : before.Installs after directory written)
    (linkFree : before.LinkFree) (descends : directory.Descends) (sourceDescends : source.Descends)
    (found : before.findTables links source ".csv" = .ok tables) (nonempty : tables ≠ [])
    (way : before.isDirectory directory.destination = true ∨ written ≠ []) :
    after.findTables rule source ".csv" = .ok tables := by
  rcases exists_root_of_findTables linkFree sourceDescends found nonempty with
    ⟨root, plain, located, rooted⟩
  have nullFree : source.NullFree := by
    rw [plain]
    exact Path.nullFree_plain _ _
  refine installs.carries.findTables_again linkFree nullFree located rooted ?_ installs.tables_iff
    found
  -- new directories are on the way to the modules, and a module was found there
  intro names old isDirectory
  rcases installs.new_directory old isDirectory with ⟨absent, within⟩
  have made : written ≠ [] := by
    refine way.resolve_left fun there => ?_
    have above : before.isDirectory (names ++ root) = true := by
      by_cases own : names ++ root = directory.destination
      · rw [own, there]
      · exact isDirectory_of_below (isSome_of_isDirectory there) within own
    rw [old] at above
    cases above
  have below : source.below names = .plain source.anchor (names ++ root) := by
    rw [plain]
    simp [Path.below, Path.plain]
  rw [below]
  rcases installs.reach descends made source.anchor within with ⟨short, enterable⟩
  exact ⟨short, fun inner higher _ =>
    enterable (inner ++ root) (List.suffix_append_self_iff.mpr higher)⟩

end Again

end Tree

/-! ## What one table installs -/

namespace Generator

variable {tree : Tree} {table directory : Path} {session after : Session} {failure : Failure}
  {location : Location}

/-- A path to a module is about the entry of that name in the directory. -/
theorem exists_name_of_entryLocation?_output (linkFree : tree.LinkFree)
    (descends : directory.Descends)
    (found : tree.entryLocation? (messageCodes.output table directory) = some location) :
    ∃ name, location = name :: directory.destination ∧
      (messageCodes.output table directory).destination = location := by
  rw [output_eq_child] at found ⊢
  rcases Tree.exists_plain_of_entryLocation? linkFree descends found with
    ⟨name, above, rfl, file, plain⟩
  have outer : directory.destination = above := by rw [plain, Path.destination_plain]
  exact ⟨name, by rw [outer], by rw [file, Path.destination_child, outer]⟩

theorem installs_of_generate (linkFree : session.tree.LinkFree) (descends : directory.Descends)
    (done : messageCodes.generate table (messageCodes.output table directory) session =
      .ok () after) : session.tree.Installs after.tree directory [table] := by
  rcases exists_location_of_generate linkFree descends done with
    ⟨name, above, _, _, file, plain, _, _, written, there⟩
  rcases exists_loaded_of_generate rfl done with ⟨_, _, replaces⟩
  rcases TreeAction.carries_of_replaceFile linkFree replaces with ⟨_, target, _, carries, found, _⟩
  have granted := TreeAction.granted_of_replaceFile linkFree replaces found
  rcases exists_name_of_entryLocation?_output carries.linkFree descends found with ⟨_, _, own⟩
  have location : (messageCodes.output table directory).destination = name :: above := by
    rw [output_eq_child, file, Path.destination_child, plain, Path.destination_plain]
  obtain rfl : target = name :: above := own.symm.trans location
  have only : Tree.outputs directory [table] = [name :: above] := congrArg (· :: []) location
  refine ⟨?_, ?_, ?_⟩
  · rw [only]
    exact carries.weaken fun location => List.mem_singleton.mpr
  · rw [only, plain, Path.destination_plain]
    intro key absent present
    have within : key <:+ name :: above := by
      by_contra outside
      rw [written.beside key outside, absent] at present
      cases present
    rcases List.suffix_cons_iff.mp within with rfl | higher
    · exact Or.inl (List.mem_singleton_self _)
    · exact Or.inr ⟨Tree.isDirectory_of_below (by rw [there]; rfl) within
        (Tree.ne_cons_of_suffix name higher), higher⟩
  · intro other inside
    rw [List.mem_singleton.mp inside, location]
    exact ⟨found, ⟨_, there, rfl⟩, granted⟩

theorem installs_of_generate_error (linkFree : session.tree.LinkFree)
    (descends : directory.Descends)
    (failed : messageCodes.generate table (messageCodes.output table directory) session =
      .error failure after) : session.tree.Installs after.tree directory [] := by
  have survives := survives_of_failed failed
  have carries := survives.carries linkFree (· ∈ Tree.outputs directory [])
  refine ⟨carries, ?_, fun _ inside => absurd inside List.not_mem_nil⟩
  intro location absent present
  rcases Option.isSome_iff_exists.mp present with ⟨node, found⟩
  rcases survives.added location node absent found with
    ⟨isDirectory, ancestor, _, within, located⟩
  rw [output_eq_child, Path.parent_child] at within
  have ancestorDescends : ancestor.Descends := fun up => descends (within.subset up)
  have plain := Tree.plain_of_locate carries.linkFree ancestorDescends located
  have suffix := Path.destination_suffix within
  rw [plain, Path.destination_plain] at suffix
  exact Or.inr ⟨Tree.isDirectory_iff.mpr ⟨node, found, isDirectory⟩, suffix⟩

end Generator

/-! ## What a run installs -/

namespace Batch

variable {policy : Policy} {directory table : Path} {tables : List Path} {session : Session}
  {result : EStateM.Result Failure Session Outcome}

theorem Turn.installs (turn : Turn .messageCodes policy directory table session result)
    (linkFree : session.tree.LinkFree) (descends : directory.Descends) :
    ∃ written, written ⊆ [table] ∧
      session.tree.Installs (Session.left result).tree directory written := by
  have nothing : [] ⊆ [table] := List.nil_subset _
  cases turn with
  | unclear => exact ⟨[], nothing, .refl linkFree directory⟩
  | skipped => exact ⟨[], nothing, .refl linkFree directory⟩
  | generated _ done =>
      exact ⟨[table], List.Subset.refl _, Generator.installs_of_generate linkFree descends done⟩
  | failed _ refused _ =>
      have installs := Generator.installs_of_generate_error linkFree descends refused
      exact ⟨[], nothing, installs⟩
  | stopped _ refused _ =>
      exact ⟨[], nothing, Generator.installs_of_generate_error linkFree descends refused⟩
  | escaped _ refused _ =>
      exact ⟨[], nothing, Generator.installs_of_generate_error linkFree descends refused⟩

/-- A run over some tables installs modules of these tables, whether it is done or stopped. -/
theorem installs_of_outcomesOf (policy : Policy) (tables : List Path)
    (linkFree : session.tree.LinkFree) (descends : directory.Descends) :
    ∃ written, written ⊆ tables ∧ session.tree.Installs
      (Session.left (outcomesOf .messageCodes policy directory tables session)).tree
        directory written := by
  induction tables generalizing session with
  | nil => exact ⟨[], List.nil_subset _, .refl linkFree directory⟩
  | cons table tables ih =>
      rcases (turn_generateOne .messageCodes policy directory table session).installs linkFree
        descends with ⟨written, among, first⟩
      cases one : generateOne .messageCodes policy directory table session with
      | error failure after =>
          rw [one] at first
          rw [outcomesOf_cons_of_error one]
          exact ⟨written, List.Subset.trans among (by simp), first⟩
      | ok outcome middle =>
          rw [one] at first
          rcases ih first.carries.linkFree with ⟨more, amongMore, further⟩
          rw [outcomesOf_cons_of_ok one, Session.left_bind_pure]
          refine ⟨written ++ more, ?_, first.trans further⟩
          exact List.append_subset.mpr ⟨List.Subset.trans among (by simp),
            List.subset_cons_of_subset table amongMore⟩

end Batch

end MessageTables
