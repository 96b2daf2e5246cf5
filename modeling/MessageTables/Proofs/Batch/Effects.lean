import MessageTables.Proofs.Batch.Outputs
import MessageTables.Proofs.Batch.Turns
import MessageTables.Proofs.FileSystem.Frames
import MessageTables.Proofs.Freshness
import MessageTables.Proofs.Generation.Failure

/-!
# What the work on some tables leaves alone

The modules of some tables go into one directory. Whatever becomes of the tables,
directories stay what they are, tables are not touched, and neither is what is in
that directory under the name of another module. So the work on a table does not
change what the others find, and what has become of a table stays.
-/

namespace MessageTables

namespace Path

variable {path : Path} {part : Part} {anchor : Anchor} {location other : Location}

theorem plain_inj (same : plain anchor location = plain anchor other) : location = other := by
  rw [← destination_plain anchor location, same, destination_plain]

theorem exists_of_child_eq_plain (same : path.child part = plain anchor location) :
    ∃ name above, location = name :: above ∧ part = name.part ∧ path = plain anchor above := by
  cases location with
  | nil =>
      have parts := congrArg Path.parts same
      simp [child, plain] at parts
  | cons name above =>
      rw [plain_cons] at same
      refine ⟨name, above, rfl, ?_, ?_⟩
      · have lasts := congrArg (fun path => path.parts.getLast?) same
        simpa [child] using lasts
      · rw [← parent_child path part, same, parent_child]

end Path

namespace Tree

variable {before middle after : Tree} {directory output : Path} {written more : List Path}

theorem Survives.old (survives : before.Survives after output) {location : Location} {node : Node}
    (noDirectory : node.isDirectory = false) (found : after.node? location = some node) :
    before.node? location = some node := by
  cases held : before.node? location with
  | none =>
      have added := (survives.added location node held found).1
      rw [noDirectory] at added
      cases added
  | some other =>
      cases other with
      | directory mode time =>
          rcases survives.directories location mode time held with ⟨later, there⟩
          rw [found] at there
          cases there
          cases noDirectory
      | file bytes mode time =>
          rw [← found, survives.kept location _ rfl held]
      | link target =>
          rw [← found, survives.kept location _ rfl held]

theorem Survives.carries (survives : before.Survives after output) (linkFree : before.LinkFree)
    (replaced : Location → Prop) : before.Carries after replaced := by
  have kept : ∀ location node, before.view location = some node →
      after.view location = some node := by
    intro location node seen
    rcases Option.map_eq_some_iff.mp seen with ⟨held, found, rfl⟩
    cases directory : held.isDirectory with
    | false => exact view_of_node? (survives.kept location held directory found)
    | true =>
        cases held with
        | directory mode time =>
            rcases survives.directories location mode time found with ⟨later, there⟩
            rw [view, there]
            rfl
        | file bytes mode time => cases directory
        | link target => cases directory
  refine ⟨fun location node _ => kept location node, fun location node _ => kept location node, ?_⟩
  rw [linkFree_iff_view] at linkFree ⊢
  intro location node seen
  cases old : before.view location with
  | some held =>
      have same := kept location held old
      rw [seen] at same
      cases same
      exact linkFree location node old
  | none =>
      rcases Option.map_eq_some_iff.mp seen with ⟨held, found, rfl⟩
      have isDirectory := (survives.added location held (view_eq_none_iff.mp old) found).1
      cases held with
      | link target => cases isDirectory
      | file bytes mode time => rfl
      | directory mode time => rfl

theorem NamesModule.weaken {location : Location} (named : NamesModule written location)
    (wider : written ⊆ more) : NamesModule more location := by
  rcases named with ⟨table, inside, rest⟩
  exact ⟨table, wider inside, rest⟩

/-- What the work on tables leaves, if the modules of some were written into a directory. -/
structure Effect (before after : Tree) (directory : Path) (written : List Path) : Prop where
  carries : before.Carries after (NamesModule written)
  /-- What is new is a directory or a module. -/
  old : ∀ location node, node.isDirectory = false → ¬ NamesModule written location →
    after.node? location = some node → before.node? location = some node
  /-- What is in the directory under another name stays as it is, with all times. -/
  beside : ∀ part, (∀ table ∈ written, Generator.moduleFile table ≠ part) →
    before.SameAt after (directory.child part)

namespace Effect

theorem refl {tree : Tree} (linkFree : tree.LinkFree) (directory : Path) (written : List Path) :
    tree.Effect tree directory written :=
  ⟨Carries.refl linkFree _, fun _ _ _ _ found => found, fun _ _ => SameAt.refl tree _⟩

theorem trans (first : before.Effect middle directory written)
    (second : middle.Effect after directory more) :
    before.Effect after directory (written ++ more) := by
  refine ⟨?_, ?_, ?_⟩
  · apply (first.carries.trans second.carries).weaken
    rintro location (named | named)
    · exact named.weaken (List.subset_append_left written more)
    · exact named.weaken (List.subset_append_right written more)
  · intro location node noDirectory apart found
    have middleFound := second.old location node noDirectory
      (fun named => apart (named.weaken (List.subset_append_right written more))) found
    exact first.old location node noDirectory
      (fun named => apart (named.weaken (List.subset_append_left written more))) middleFound
  · intro part apart
    have beside := first.beside part fun table inside =>
      apart table (List.mem_append_left more inside)
    exact beside.trans
      (second.beside part fun table inside => apart table (List.mem_append_right written inside))

theorem weaken (effect : before.Effect after directory written) (wider : written ⊆ more) :
    before.Effect after directory more := by
  refine ⟨effect.carries.weaken fun location named => named.weaken wider, ?_, ?_⟩
  · intro location node noDirectory apart
    exact effect.old location node noDirectory fun named => apart (named.weaken wider)
  · intro part apart
    exact effect.beside part fun table inside => apart table (wider inside)

end Effect

/-! ## What a table finds -/

variable {tree : Tree} {links : LinkRule} {table : Path} {location : Location} {node : Node}

/-- Tables with distinct file names have distinct modules. -/
theorem nodup_moduleFile {source : Path} {tables : List Path}
    (found : tree.findTables links source ".csv" = .ok tables)
    (distinct : (tables.map Path.name).Nodup) : (tables.map Generator.moduleFile).Nodup := by
  refine List.Nodup.map_on ?_ (List.Nodup.of_map Path.name distinct)
  intro table inside other among same
  exact List.inj_on_of_nodup_map distinct inside among
    (Generator.name_eq_of_moduleFile_eq (suffix_name_of_mem_findTables found inside)
      (suffix_name_of_mem_findTables found among) same)

theorem apart_of_nodup {earlier later : List Path}
    (distinct : ((earlier ++ table :: later).map Generator.moduleFile).Nodup) :
    (∀ other ∈ earlier, Generator.moduleFile other ≠ Generator.moduleFile table) ∧
      ∀ other ∈ later, Generator.moduleFile other ≠ Generator.moduleFile table := by
  rw [List.map_append, List.map_cons] at distinct
  rcases List.nodup_append.mp distinct with ⟨_, rest, apart⟩
  constructor
  · intro other inside
    exact apart _ (List.mem_map_of_mem inside) _ List.mem_cons_self
  · intro other inside same
    rw [← same] at rest
    exact (List.nodup_cons.mp rest).1 (List.mem_map_of_mem inside)

theorem HoldsTable.exists_changeTime? (holds : tree.HoldsTable table location node)
    (linkFree : tree.LinkFree) :
    ∃ time, node.time? = some time ∧ tree.changeTime? table = .ok (some time) := by
  cases node with
  | directory mode time => cases holds.isFile
  | link target => cases holds.isFile
  | file bytes mode time =>
      have asked := nodeAt_of_entryLocation? linkFree holds.found holds.there
      rcases nodeAt_eq_ok_iff.mp asked with ⟨place, located, there⟩
      exact ⟨time, rfl, changeTime?_eq_some_iff.mpr ⟨place, _, located, there, rfl⟩⟩

theorem Effect.holdsTable (effect : before.Effect after directory written)
    (linkFree : before.LinkFree) (holds : before.HoldsTable table location node) :
    after.HoldsTable table location node :=
  holds.later linkFree effect.carries

theorem Effect.loaded_eq (effect : before.Effect after directory written)
    (linkFree : before.LinkFree) (holds : before.HoldsTable table location node) :
    Table.loaded after table = Table.loaded before table :=
  holds.loaded_eq linkFree (effect.holdsTable linkFree holds) effect.carries.linkFree

/-- The files with the suffix of tables are the same. -/
theorem Effect.tables_iff (effect : before.Effect after directory written) (name : Name)
    (above : Location) (node : Node) (ending : (".csv" : Text).toList <:+ name.text.toList)
    (isFile : node.isFile = true) :
    before.node? (name :: above) = some node ↔ after.node? (name :: above) = some node := by
  have noDirectory := Node.isDirectory_eq_false_of_isFile isFile
  have apart := not_namesModule_of_suffix ending above written
  constructor
  · intro found
    rw [node?_eq_some_iff_view noDirectory] at found ⊢
    exact effect.carries.others _ node apart found
  · exact effect.old _ node noDirectory apart

theorem Effect.sameAt_output (effect : before.Effect after directory written)
    (apart : ∀ other ∈ written, Generator.moduleFile other ≠ Generator.moduleFile table) :
    before.SameAt after (Generator.messageCodes.output table directory) := by
  rw [Generator.output_eq_child]
  exact effect.beside (Generator.moduleFile table) apart

theorem descends_output (descends : directory.Descends) (table : Path) :
    (Generator.messageCodes.output table directory).Descends := by
  rw [Generator.output_eq_child]
  exact descends.child (Generator.moduleFile_ne_up table)

/-- The work on other tables leaves a module as fresh as it was. -/
theorem Effect.isStale_eq_false_iff (effect : before.Effect after directory written)
    (linkFree : before.LinkFree) (descends : directory.Descends)
    (holds : before.HoldsTable table location node)
    (apart : ∀ other ∈ written, Generator.moduleFile other ≠ Generator.moduleFile table) :
    after.isStale table (Generator.messageCodes.output table directory) = .ok false ↔
      before.isStale table (Generator.messageCodes.output table directory) = .ok false := by
  rcases holds.exists_changeTime? linkFree with ⟨time, timed, asked⟩
  rcases (effect.holdsTable linkFree holds).exists_changeTime? effect.carries.linkFree with
    ⟨later, laterTimed, laterAsked⟩
  rw [timed] at laterTimed
  cases laterTimed
  have answers (other : Timestamp) :
      after.changeTime? (Generator.messageCodes.output table directory) = .ok (some other) ↔
        before.changeTime? (Generator.messageCodes.output table directory) = .ok (some other) :=
    (effect.sameAt_output apart).changeTime?_eq_some_iff (descends_output descends table) linkFree
      effect.carries
  rw [Tree.isStale_eq_false_iff laterAsked, Tree.isStale_eq_false_iff asked]
  simp only [answers]

end Tree

namespace Session

/-- What a later session has in common with an earlier one, the tree and the log aside. -/
structure Continues (before after : Session) : Prop where
  umask : after.umask = before.umask
  links : after.links = before.links
  draws : after.draws = before.draws
  clock : after.clock = before.clock
  printed : after.printed = before.printed
  readings : before.readings ≤ after.readings

theorem Continues.refl (session : Session) : session.Continues session :=
  ⟨rfl, rfl, rfl, rfl, rfl, Nat.le_refl _⟩

theorem Continues.trans {before middle after : Session} (first : before.Continues middle)
    (second : middle.Continues after) : before.Continues after :=
  ⟨second.umask.trans first.umask, second.links.trans first.links,
    second.draws.trans first.draws, second.clock.trans first.clock,
    second.printed.trans first.printed, first.readings.trans second.readings⟩

end Session

namespace Generator

variable {table directory output : Path} {session after : Session} {failure : Failure}

/-- A module that was generated is at a location that its path names. -/
theorem exists_location_of_generate (linkFree : session.tree.LinkFree)
    (descends : directory.Descends)
    (done : messageCodes.generate table (messageCodes.output table directory) session =
      .ok () after) :
    ∃ name above records bytes, moduleFile table = name.part ∧
      directory = .plain directory.anchor above ∧
      Table.loaded session.tree table = .ok records ∧
      (messageCodes.render table records).encode? = some bytes ∧
      session.tree.Written after.tree (name :: above) bytes (Action.newDirectoryMode session) ∧
      after.tree.node? (name :: above) =
        some (.file bytes 0o644 (session.clock session.readings)) := by
  rcases carries_of_generate linkFree done with
    ⟨target, records, bytes, carries, found, loaded, encodes, there⟩
  rcases exists_loaded_of_generate rfl done with ⟨_, read, written⟩
  rw [loaded] at read
  cases read
  rw [output_eq_child] at found written
  rcases Tree.exists_plain_of_entryLocation? carries.linkFree descends found with
    ⟨name, above, rfl, file, plain⟩
  rw [file, plain, ← Path.plain_cons] at written
  rcases (TreeAction.written_of_replaceFile linkFree written).1 with ⟨_, same, rewritten⟩
  cases Option.some.inj (encodes.symm.trans same)
  exact ⟨name, above, records, bytes, file, plain, loaded, encodes, rewritten, there⟩

theorem effect_of_generate (linkFree : session.tree.LinkFree) (descends : directory.Descends)
    (done : messageCodes.generate table (messageCodes.output table directory) session =
      .ok () after) : session.tree.Effect after.tree directory [table] := by
  rcases carries_of_generate linkFree done with ⟨_, _, _, carries, _⟩
  rcases exists_location_of_generate linkFree descends done with
    ⟨name, above, _, _, file, plain, _, _, written, there⟩
  refine ⟨carries, ?_, ?_⟩
  · intro location node noDirectory apart found
    rw [← written.beside location, found]
    intro within
    rcases List.suffix_cons_iff.mp within with rfl | higher
    · exact apart ⟨table, List.mem_singleton_self table, name, above, rfl, by rw [file]; rfl⟩
    · have differs : location ≠ name :: above := Tree.ne_cons_of_suffix name higher
      have directory := Tree.isDirectory_of_below (by rw [there]; rfl) within differs
      rw [Tree.isDirectory_eq_of_node? found, noDirectory] at directory
      cases directory
  · intro part apart location named
    rcases Path.exists_of_child_eq_plain named with ⟨other, outer, rfl, rfl, same⟩
    have here : outer = above := Path.plain_inj (same.symm.trans plain)
    subst here
    apply written.beside
    intro within
    have equal := within.eq_of_length rfl
    exact apart table (List.mem_singleton_self table)
      (by rw [file, (List.cons.inj equal).1])

/-- A failure leaves all but the directories above the output as they were. -/
theorem beside_of_generate_error {above key : Location} (linkFree : session.tree.LinkFree)
    (failed : messageCodes.generate table (messageCodes.output table directory) session =
      .error failure after)
    (plain : directory = .plain directory.anchor above) (outside : ¬ key <:+ above) :
    after.tree.node? key = session.tree.node? key := by
  rcases tree_of_generate_error failed with same | ⟨records, error, _, written⟩
  · rw [same]
  · rw [output_eq_child, plain] at written
    exact TreeAction.beside_of_replaceFile_error linkFree written outside

theorem effect_of_generate_error (linkFree : session.tree.LinkFree)
    (failed : messageCodes.generate table (messageCodes.output table directory) session =
      .error failure after) : session.tree.Effect after.tree directory [] := by
  have survives := survives_of_failed failed
  refine ⟨survives.carries linkFree _, ?_, ?_⟩
  · intro location node noDirectory _ found
    exact survives.old noDirectory found
  · intro part _ location named
    rcases Path.exists_of_child_eq_plain named with ⟨name, above, rfl, rfl, plain⟩
    exact beside_of_generate_error linkFree failed plain (Tree.not_cons_suffix name above)

theorem continues_of_generate
    (done : messageCodes.generate table output session = .ok () after) :
    session.Continues after ∧ session.readings < after.readings := by
  rcases generate_cases messageCodes rfl table _ session with
    ⟨_, _, ended⟩ | ⟨_, _, _, _, ended⟩ | ⟨_, _, _, _, _, ended⟩
  · rw [ended] at done
    cases done
  · rw [ended] at done
    cases done
    exact ⟨⟨rfl, rfl, rfl, rfl, rfl, Nat.le_succ _⟩, Nat.lt_succ_self _⟩
  · rw [ended] at done
    cases done

theorem continues_of_generate_error
    (failed : messageCodes.generate table output session = .error failure after) :
    session.Continues after := by
  rcases generate_cases messageCodes rfl table _ session with
    ⟨_, _, ended⟩ | ⟨_, _, _, _, ended⟩ | ⟨_, _, _, _, _, ended⟩
  · rw [ended] at failed
    cases failed
    exact .refl session
  · rw [ended] at failed
    cases failed
  · rw [ended] at failed
    cases failed
    exact ⟨rfl, rfl, rfl, rfl, rfl, Nat.le_succ _⟩

end Generator

namespace Outcome

/-- The table whose module was written, if the outcome says so. -/
def written (table : Path) : Outcome → List Path
  | .generated _ => [table]
  | _ => []

theorem written_subset (table : Path) (outcome : Outcome) : outcome.written table ⊆ [table] := by
  cases outcome <;> simp [written]

end Outcome

namespace Batch

variable {policy : Policy} {directory table : Path} {session after : Session}
  {outcome : Outcome}

theorem Turn.effect
    (turn : Turn .messageCodes policy directory table session (.ok outcome after))
    (linkFree : session.tree.LinkFree) (descends : directory.Descends) :
    session.tree.Effect after.tree directory (outcome.written table) := by
  cases turn with
  | skipped lazy fresh => exact Tree.Effect.refl linkFree directory _
  | generated due done => exact Generator.effect_of_generate linkFree descends done
  | @failed error stopped due refused lenient =>
      have effect : session.tree.Effect stopped.tree directory [] :=
        Generator.effect_of_generate_error linkFree refused
      exact effect

theorem Turn.continues
    (turn : Turn .messageCodes policy directory table session (.ok outcome after)) :
    session.Continues after := by
  cases turn with
  | skipped lazy fresh => exact ⟨rfl, rfl, rfl, rfl, rfl, Nat.le_refl _⟩
  | generated due done => exact (Generator.continues_of_generate done).1
  | failed due refused lenient =>
      have continued := Generator.continues_of_generate_error refused
      exact ⟨continued.umask, continued.links, continued.draws, continued.clock,
        continued.printed, continued.readings⟩

theorem Accounts.effect {tables : List Path} {outcomes : List Outcome}
    (accounts : Accounts .messageCodes policy directory session tables outcomes after)
    (linkFree : session.tree.LinkFree) (descends : directory.Descends) :
    session.tree.Effect after.tree directory tables := by
  induction accounts with
  | nil session => exact Tree.Effect.refl linkFree directory _
  | @cons table tables outcome others session middle after turn rest ih =>
      have first := (turn.effect linkFree descends).weaken (outcome.written_subset table)
      exact first.trans (ih first.carries.linkFree)

theorem Accounts.continues {tables : List Path} {outcomes : List Outcome}
    (accounts : Accounts .messageCodes policy directory session tables outcomes after) :
    session.Continues after := by
  induction accounts with
  | nil session => exact .refl session
  | cons turn rest ih => exact turn.continues.trans ih

end Batch

end MessageTables
