import MessageTables.Proofs.Batch.Turns
import MessageTables.Proofs.Freshness
import MessageTables.Proofs.Generation.Classification
import MessageTables.Proofs.Generation.Naming
import MessageTables.Proofs.Glob.Found

/-!
# What a run does not contain

Errors of generating a module are kept in the report of a run that goes on after
them. Four things are not: an error of the search for tables, an error of asking
whether a module is up to date, a code with too many digits, and a table's path that
cannot be written into its module. `Obstruction` lists them, with the moment at which
each occurs; where none of them does, every table has its outcome, and only a run that
does not go on ends early.

Null characters are left aside, so that every refusal of the file system is an
error of the system.
-/

namespace MessageTables

namespace Failure

variable {error : AccessError}

theorem exists_system_of_ofAccess (path : Text) (coded : error ≠ .nullByte) :
    ∃ cause, ofAccess path error = .system cause := by
  cases error with
  | code code => exact ⟨_, rfl⟩
  | nullByte => exact absurd rfl coded

end Failure

namespace Tree

variable {tree : Tree} {path directory : Path} {failure : Failure}

/-! ## Failures of the check -/

theorem exists_system_of_isStale {source target : Path} (sourceFree : source.NullFree)
    (targetFree : target.NullFree) (refused : tree.isStale source target = .error failure) :
    ∃ cause, failure = .system cause := by
  rcases exists_access_of_isStale refused with ⟨path, error, named, asked, rfl⟩
  have nullFree : path.NullFree := by
    rcases named with rfl | rfl
    · exact sourceFree
    · exact targetFree
  apply Failure.exists_system_of_ofAccess
  rintro rfl
  exact changeTime_ne_nullByte nullFree asked

end Tree

/-! ## Failures of generating -/

namespace Generator

variable {table directory output : Path} {session after : Session} {failure : Failure}

theorem null_not_mem_moduleFile (nullFree : table.NullFree) :
    Symbol.char '\x00' ∉ (moduleFile table).text.toList := by
  rw [moduleFile, Text.toList_append, List.mem_append, not_or]
  exact ⟨fun inside => nullFree.name (mem_name_of_mem_moduleName inside), by decide⟩

theorem nullFree_output (tableFree : table.NullFree) (directoryFree : directory.NullFree) :
    (messageCodes.output table directory).NullFree := by
  rw [output_eq_child]
  exact directoryFree.child (null_not_mem_moduleFile tableFree)

/-- Whether writing a module comes to a text that cannot be encoded: to the path of its table. -/
structure IsUnencodable (table output : Path) (session : Session) (records : List Record) :
    Prop where
  loaded : Table.loaded session.tree table = .ok records
  staged : TreeAction.IsStaged output (Action.newDirectoryMode session)
    (session.draws session.readings) (session.clock session.readings) session.tree
  noSpelling : table.text.encode? = none

/--
A module that is not generated is an error about its table, unless a code is oversized or
the table's path cannot be encoded.
-/
theorem generate_error_cases (tableFree : table.NullFree) (outputFree : output.NullFree)
    (refused : messageCodes.generate table output session = .error failure after) :
    (∃ error, failure = .generation error ∧ error.table = table) ∨
      (∃ count, failure = .oversizedCode count ∧
        Table.loaded session.tree table = .error (.oversizedCode count)) ∨
      ∃ records, failure = .unencodable (messageCodes.render table records) ∧
        IsUnencodable table output session records := by
  cases failsWith_of_generate tableFree outputFree refused with
  | unread => exact Or.inl ⟨_, rfl, rfl⟩
  | rejected => exact Or.inl ⟨_, rfl, rfl⟩
  | oversized read fault shape isNumber long =>
      exact Or.inr (Or.inl ⟨_, rfl, loaded_of_oversized read fault shape isNumber long⟩)
  | unwritten => exact Or.inl ⟨_, rfl, rfl⟩
  | unencodable read parsed unwritten noSpelling =>
      have staged := (TreeAction.eq_of_replaceFile_unencodable unwritten).2.2
      exact Or.inr (Or.inr
        ⟨_, rfl, Table.loaded_of_parsed read parsed, staged, noSpelling⟩)

theorem generate_of_oversizedCode {count : Nat}
    (oversized : Table.loaded session.tree table = .error (.oversizedCode count)) :
    messageCodes.generate table output session = .error (.oversizedCode count) session :=
  generate_of_not_loaded rfl oversized

theorem IsUnencodable.exists_generate {records : List Record}
    (unencodable : IsUnencodable table output session records) :
    ∃ after, messageCodes.generate table output session =
      .error (.unencodable (messageCodes.render table records)) after := by
  have stray : (messageCodes.render table records).encode? = none :=
    (LookupModule.encode?_render_eq_none_iff _ _ _).mpr unencodable.noSpelling
  rcases TreeAction.exists_replaceFile_of_unencodable unencodable.staged stray with
    ⟨left, unwritten⟩
  exact ⟨_, generate_of_not_written rfl unencodable.loaded unwritten⟩

end Generator

/-! ## Runs -/

namespace Batch

variable {policy : Policy} {source directory : Path} {session after : Session}
  {failure : Failure} {report : Report} {outcomes : List Outcome}

/-- What ends a run over tables, whatever its policy says of errors. -/
inductive Obstruction (policy : Policy) (source directory : Path) (session : Session) :
    Failure → Prop where
  /-- The search for tables is refused. -/
  | search {error : SystemError}
      (refused : session.findTables source ".csv" = .error (.system error)) :
      Obstruction policy source directory session (.system error)
  /-- When a table's turn comes, asking whether its module is up to date is refused. -/
  | check {earlier later : List Path} {table : Path} {report : Report} {middle : Session}
      {error : SystemError}
      (found : session.findTables source ".csv" = .ok (earlier ++ table :: later))
      (reached : generateEach .messageCodes policy directory .empty earlier session =
        .ok report middle)
      (lazy : policy.force = false)
      (refused : middle.tree.isStale table (Generator.messageCodes.output table directory) =
        .error (.system error)) :
      Obstruction policy source directory session (.system error)
  /-- When a table's turn comes, its module is due and the table has a code with too many digits. -/
  | digits {earlier later : List Path} {table : Path} {report : Report} {middle : Session}
      {count : Nat}
      (found : session.findTables source ".csv" = .ok (earlier ++ table :: later))
      (reached : generateEach .messageCodes policy directory .empty earlier session =
        .ok report middle)
      (due : IsDue policy.force middle.tree table (Generator.messageCodes.output table directory))
      (oversized : Table.loaded middle.tree table = .error (.oversizedCode count)) :
      Obstruction policy source directory session (.oversizedCode count)
  /-- When a table's turn comes, its module is due, and the table's path cannot be encoded. -/
  | encoding {earlier later : List Path} {table : Path} {report : Report} {middle : Session}
      {records : List Record}
      (found : session.findTables source ".csv" = .ok (earlier ++ table :: later))
      (reached : generateEach .messageCodes policy directory .empty earlier session =
        .ok report middle)
      (due : IsDue policy.force middle.tree table (Generator.messageCodes.output table directory))
      (unencodable : Generator.IsUnencodable table
        (Generator.messageCodes.output table directory) middle records) :
      Obstruction policy source directory session
        (.unencodable (Generator.messageCodes.render table records))

theorem generateAll_of_stopping_turn {earlier later : List Path} {table : Path}
    {middle stopped : Session}
    (found : session.findTables source ".csv" = .ok (earlier ++ table :: later))
    (reached : generateEach .messageCodes policy directory .empty earlier session =
      .ok report middle)
    (stops : generateOne .messageCodes policy directory table middle = .error failure stopped) :
    generateAll .messageCodes policy source directory session = .error failure stopped := by
  rcases generateEach_eq_ok_iff.mp reached with ⟨outcomes, worked, _⟩
  refine generateAll_eq_error_iff.mpr (Or.inr ⟨_, found, ?_⟩)
  rw [outcomesOf_append worked, bind_of_error (outcomesOf_cons_of_error stops)]

/-- An obstruction ends every run that it is in the way of. -/
theorem Obstruction.ends (obstruction : Obstruction policy source directory session failure) :
    ∃ after, generateAll .messageCodes policy source directory session = .error failure after := by
  cases obstruction with
  | search refused => exact ⟨session, generateAll_of_not_found refused⟩
  | check found reached lazy refused =>
      exact ⟨_, generateAll_of_stopping_turn found reached
        (generateOne_of_unclear policy lazy refused)⟩
  | digits found reached due oversized =>
      exact ⟨_, generateAll_of_stopping_turn found reached (generateOne_of_escaped policy due
        (Generator.generate_of_oversizedCode oversized) nofun)⟩
  | encoding found reached due unencodable =>
      rcases unencodable.exists_generate with ⟨stopped, refused⟩
      exact ⟨stopped, generateAll_of_stopping_turn found reached
        (generateOne_of_escaped policy due refused nofun)⟩

/--
The turn in which a run ends, if there is no obstruction, is an error that it does not pass
over.
-/
theorem obstruction_or_strict_of_turn {earlier later : List Path} {table : Path}
    {middle : Session} (tableFree : table.NullFree) (directoryFree : directory.NullFree)
    (found : session.findTables source ".csv" = .ok (earlier ++ table :: later))
    (reached : generateEach .messageCodes policy directory .empty earlier session =
      .ok report middle)
    (turn : Turn .messageCodes policy directory table middle (.error failure after)) :
    Obstruction policy source directory session failure ∨
      policy.keepGoing = false ∧ ∃ error, failure = .generation error ∧ error.table = table := by
  have outputFree := Generator.nullFree_output tableFree directoryFree
  cases turn with
  | unclear lazy refused =>
      rcases Tree.exists_system_of_isStale tableFree outputFree refused with ⟨error, rfl⟩
      exact Or.inl (.check found reached lazy refused)
  | stopped due refused strict =>
      rcases Generator.generate_error_cases tableFree outputFree refused with
        ⟨error, same, about⟩ | ⟨_, impossible, _⟩ | ⟨_, impossible, _⟩
      · exact Or.inr ⟨strict, error, same, about⟩
      · cases impossible
      · cases impossible
  | escaped due refused other =>
      rcases Generator.generate_error_cases tableFree outputFree refused with
        ⟨error, same, _⟩ | ⟨count, rfl, oversized⟩ | ⟨records, rfl, unencodable⟩
      · exact absurd same (other error)
      · exact Or.inl (.digits found reached due oversized)
      · exact Or.inl (.encoding found reached due unencodable)

theorem nullFree_of_mem_findTables {tree : Tree} {links : LinkRule} {tables : List Path}
    {table : Path} (sourceFree : source.NullFree)
    (found : tree.findTables links source ".csv" = .ok tables)
    (inside : table ∈ tables) : table.NullFree := by
  rcases Tree.exists_name_of_mem_findTables found inside with ⟨names, name, rfl, _⟩
  exact (sourceFree.below names).child name.isName.2.2.1

/--
What ends a run is an obstruction, or an error of generating in a run that does not go on;
and a run that is done has an outcome for every table.
-/
theorem generateAll_contains (policy : Policy) (session : Session)
    (sourceFree : source.NullFree) (directoryFree : directory.NullFree) :
    (∀ failure after,
        generateAll .messageCodes policy source directory session = .error failure after →
          Obstruction policy source directory session failure ∨
            policy.keepGoing = false ∧ ∃ tables error, failure = .generation error ∧
              session.findTables source ".csv" = .ok tables ∧ error.table ∈ tables) ∧
      (∀ failure, Obstruction policy source directory session failure →
        ∃ after, generateAll .messageCodes policy source directory session =
          .error failure after) ∧
      ∀ report after,
        generateAll .messageCodes policy source directory session = .ok report after →
          ∃ tables outcomes, session.findTables source ".csv" = .ok tables ∧
            report = .ofOutcomes outcomes ∧
            Accounts .messageCodes policy directory session tables outcomes after := by
  refine ⟨?_, fun failure obstruction => obstruction.ends, ?_⟩
  · intro failure after failed
    rcases generateAll_eq_error_iff.mp failed with ⟨refused, _⟩ | ⟨tables, found, stopped⟩
    · rcases Tree.exists_system_of_findTables refused with ⟨error, rfl⟩
      exact Or.inl (.search refused)
    · rcases exists_turn_of_outcomesOf_error stopped with
        ⟨earlier, table, later, outcomes, middle, rfl, worked, stops⟩
      have reached : generateEach .messageCodes policy directory .empty earlier session =
          .ok _ middle := generateEach_eq_ok_iff.mpr ⟨outcomes, worked, rfl⟩
      have inside : table ∈ earlier ++ table :: later := by simp
      have turn := turn_generateOne .messageCodes policy directory table middle
      rw [stops] at turn
      rcases obstruction_or_strict_of_turn (nullFree_of_mem_findTables sourceFree found inside)
        directoryFree found reached turn with obstruction | ⟨strict, error, same, about⟩
      · exact Or.inl obstruction
      · exact Or.inr ⟨strict, _, error, same, found, by rw [about]; exact inside⟩
  · intro report after done
    rcases generateAll_eq_ok_iff.mp done with ⟨tables, outcomes, found, run, rfl⟩
    exact ⟨tables, outcomes, found, rfl, accounts_of_outcomesOf run⟩

/-- A session with a table and a file that has no room for modules. -/
def fileForDirectory : Session :=
  { Session.fresh 0o022 .passes fun _ => ⟨0, 0⟩ with
    tree := ((Tree.empty 0o700 ⟨0, 0⟩).addEntry [⟨"notes.csv", by decide⟩]
      (.file "0,A,p\n".toUTF8 0o644 ⟨0, 0⟩) ⟨0, 0⟩).addEntry [⟨"plain", by decide⟩]
      (.file .empty 0o644 ⟨0, 0⟩) ⟨0, 0⟩ }

theorem findTables_fileForDirectory :
    fileForDirectory.findTables (.ofText ".") ".csv" = .ok [.ofText "notes.csv"] :=
  Tree.findTables_csv_of_select (by cbv) (by cbv) (by cbv)

theorem generateAll_fileForDirectory_lazy :
    ∃ failure after, generateAll .messageCodes ⟨false, true⟩ (.ofText ".") (.ofText "plain")
      fileForDirectory = .error failure after := by
  have run : isStoppedWith (fun _ _ => true)
      (outcomesOf .messageCodes ⟨false, true⟩ (.ofText "plain") [.ofText "notes.csv"]
        fileForDirectory) = true := by
    decide +kernel
  rcases exists_of_isStoppedWith run with ⟨failure, after, failed, _⟩
  exact ⟨failure, after,
    generateAll_eq_error_iff.mpr (Or.inr ⟨_, findTables_fileForDirectory, failed⟩)⟩

/-- The check is refused; without it, the failure to write is an outcome. -/
theorem generateAll_contains_fileForDirectory :
    (Path.ofText ".").NullFree ∧ (Path.ofText "plain").NullFree ∧
      (∃ failure, Obstruction ⟨false, true⟩ (.ofText ".") (.ofText "plain") fileForDirectory
        failure) ∧
      ∃ outcomes after, generateAll .messageCodes ⟨true, true⟩ (.ofText ".") (.ofText "plain")
          fileForDirectory = .ok (.ofOutcomes outcomes) after ∧
        Accounts .messageCodes ⟨true, true⟩ (.ofText "plain") fileForDirectory
          [.ofText "notes.csv"] outcomes after := by
  have sourceFree : (Path.ofText ".").NullFree := by decide
  have directoryFree : (Path.ofText "plain").NullFree := by decide
  refine ⟨sourceFree, directoryFree, ?_, ?_⟩
  · rcases generateAll_fileForDirectory_lazy with ⟨failure, after, failed⟩
    rcases (generateAll_contains ⟨false, true⟩ fileForDirectory sourceFree directoryFree).1
      failure after failed with obstruction | ⟨strict, _⟩
    · exact ⟨failure, obstruction⟩
    · cases strict
  · have run : isDoneWith (fun _ _ => true)
        (outcomesOf .messageCodes ⟨true, true⟩ (.ofText "plain") [.ofText "notes.csv"]
          fileForDirectory) = true := by
      decide +kernel
    rcases exists_of_isDoneWith run with ⟨outcomes, after, done, _⟩
    have all : generateAll .messageCodes ⟨true, true⟩ (.ofText ".") (.ofText "plain")
        fileForDirectory = .ok (.ofOutcomes outcomes) after :=
      generateAll_eq_ok_iff.mpr ⟨_, outcomes, findTables_fileForDirectory, done, rfl⟩
    rcases (generateAll_contains ⟨true, true⟩ fileForDirectory sourceFree directoryFree).2.2
      _ after all with ⟨tables, others, found, same, accounts⟩
    rw [findTables_fileForDirectory] at found
    cases found
    exact ⟨others, after, by rw [all, same], accounts⟩

/-- A run that goes on after errors can end in one, with harmless names everywhere. -/
theorem not_generateAll_done_of_keepGoing :
    ¬ ∀ (session : Session) (source directory : Path) (force : Bool),
      source.NullFree → directory.NullFree →
        (∀ part ∈ source.parts ++ directory.parts, part.text.byteSize ≤ 255) →
          ∃ report after,
            generateAll .messageCodes ⟨force, true⟩ source directory session =
              .ok report after := by
  intro every
  rcases every fileForDirectory (.ofText ".") (.ofText "plain") false (by decide) (by decide)
    (by decide) with ⟨report, after, done⟩
  rcases generateAll_fileForDirectory_lazy with ⟨failure, stopped, failed⟩
  rw [failed] at done
  cases done

end Batch

end MessageTables
