import MessageTables.Proofs.Batch.Turns
import MessageTables.Proofs.Error.OneLine
import MessageTables.Proofs.Freshness
import MessageTables.Proofs.Generation.Naming
import MessageTables.Proofs.Glob.Found
import MessageTables.Proofs.Table.Loading

/-!
# What a run says

Tables are found by the names in the tree, and their modules are named by them. Where
these names and the two directories are on one line, so is every message: the tables
themselves come into messages in quotes only, so no table can bring a line into the log
that is not the program's own.

`Logs` says what a log has gained, in one step or in many. A turn logs an error exactly
if its table failed, and the rest is an induction on the turns of a run.
-/

namespace MessageTables

/-! ## Logs -/

namespace Session

variable {before middle after : Session} {errors more : List LogEntry}

/-- What a log has gained: messages on one line, and among them as errors the given entries. -/
def Logs (before after : Session) (errors : List LogEntry) : Prop :=
  ∃ added, after.log = before.log ++ added ∧
    (∀ entry ∈ added, Text.OnOneLine entry.message) ∧
    added.filter (·.level = .error) = errors

theorem logs_refl (session : Session) : session.Logs session [] :=
  ⟨[], (List.append_nil _).symm, List.forall_mem_nil _, rfl⟩

theorem logs_acted (session : Session) (tree : Tree) : session.Logs (session.acted tree) [] :=
  session.logs_refl

theorem logs_logged (session : Session) {entry : LogEntry}
    (one : Text.OnOneLine entry.message) :
    session.Logs (session.logged entry) ([entry].filter (·.level = .error)) :=
  ⟨[entry], rfl, List.forall_mem_singleton.mpr one, rfl⟩

theorem Logs.trans (first : before.Logs middle errors) (second : middle.Logs after more) :
    before.Logs after (errors ++ more) := by
  rcases first with ⟨added, log, one, rfl⟩
  rcases second with ⟨further, later, other, rfl⟩
  refine ⟨added ++ further, ?_, List.forall_mem_append.mpr ⟨one, other⟩, List.filter_append _ _⟩
  rw [later, log, List.append_assoc]

theorem Logs.onOneLine (logs : before.Logs after errors) :
    ∀ entry ∈ errors, Text.OnOneLine entry.message := by
  rcases logs with ⟨added, _, one, rfl⟩
  exact fun entry kept => one entry (List.mem_of_mem_filter kept)

end Session

/-! ## Names -/

namespace Tree

variable {tree : Tree} {links : LinkRule} {directory path : Path} {paths : List Path}

/-- Whether all names in a tree are on one line. -/
def NamesOnOneLine (tree : Tree) : Prop :=
  ∀ location, (tree.node? location).isSome = true →
    ∀ name ∈ location, Text.OnOneLine name.text

instance (tree : Tree) : Decidable tree.NamesOnOneLine :=
  decidable_of_iff
    (∀ location ∈ tree.entries.map Prod.fst, ∀ name ∈ location, Text.OnOneLine name.text)
    (by simp only [mem_map_entries, NamesOnOneLine])

theorem NamesOnOneLine.mem_findTables (named : tree.NamesOnOneLine)
    (directoryOne : directory.OnOneLine)
    (found : tree.findTables links directory ".csv" = .ok paths) (inside : path ∈ paths) :
    path.OnOneLine := by
  rcases exists_entry_of_mem_findTables found inside with ⟨root, name, names, rfl, there⟩
  intro part among
  rcases List.mem_append.mp among with above | below
  · exact directoryOne part above
  · rcases List.mem_map.mp below with ⟨other, listed, rfl⟩
    exact named _ there other (List.mem_append_left root (List.mem_reverse.mp listed))

end Tree

/-! ## Generating -/

namespace Generator

variable {table output directory : Path} {session after : Session} {failure : Failure}

theorem onOneLine_output (tableOne : table.OnOneLine) (directoryOne : directory.OnOneLine) :
    (messageCodes.output table directory).OnOneLine := by
  have ending : Text.OnOneLine ".py" := by decide
  have stem : Text.OnOneLine (messageCodes.moduleName table) :=
    fun character inside => tableOne.name character (mem_name_of_mem_moduleName inside)
  rw [output_eq_child]
  exact directoryOne.child (stem.append ending)

theorem onOneLine_readEntry (tableOne : table.OnOneLine) (records : List Record) :
    Text.OnOneLine (readEntry table records).message := by
  have begins : Text.OnOneLine "Read " := by decide
  have between : Text.OnOneLine " records from " := by decide
  exact ((begins.append (Text.onOneLine_numeral _)).append between).append tableOne.text

theorem onOneLine_generatedEntry (outputOne : output.OnOneLine) :
    Text.OnOneLine (generatedEntry output).message := by
  have begins : Text.OnOneLine "Generated " := by decide
  exact begins.append outputOne.text

theorem onOneLine_of_not_loaded (tableOne : table.OnOneLine) {tree : Tree}
    (unread : Table.loaded tree table = .error failure) :
    Text.OnOneLine (failure.whileReading table).userText := by
  rcases Table.loaded_error_cases unread with
    ⟨error, _, rfl⟩ | ⟨bytes, rejection, _, refused, rfl⟩
  · cases error with
    | code code => exact GenerationError.onOneLine_unreadable tableOne code table.text
    | nullByte => exact Failure.onOneLine_nullByte
  · cases rejection with
    | invalid error =>
        rcases Table.parse_eq_error_iff.mp refused with ⟨front, line, rest, _, refuses⟩
        exact GenerationError.onOneLine_invalidTable tableOne refuses
    | oversizedCode count => exact Failure.onOneLine_oversizedCode count

theorem onOneLine_of_not_written (tableOne : table.OnOneLine) (outputOne : output.OnOneLine)
    (mishap : Mishap) :
    Text.OnOneLine ((Failure.ofMishap mishap).whileWriting table output).userText := by
  cases mishap with
  | refused error paths =>
      cases error with
      | nullByte => exact Failure.onOneLine_nullByte
      | code code =>
          apply GenerationError.onOneLine_unwritable tableOne outputOne
          rw [SystemError.briefText_ofRefusal]
          exact GenerationError.onOneLine_description code
  | crowded =>
      have worded : Text.OnOneLine SystemError.crowded.briefText := by decide
      exact GenerationError.onOneLine_unwritable tableOne outputOne worded
  | unencodable text => exact Failure.onOneLine_unencodable text

/-- Generating a module says nothing that is not on one line, and logs no error. -/
theorem generate_speaks (tableOne : table.OnOneLine) (outputOne : output.OnOneLine)
    (session : Session) :
    session.Logs (Session.left (messageCodes.generate table output session)) [] ∧
      ∀ failure after, messageCodes.generate table output session = .error failure after →
        Text.OnOneLine failure.userText := by
  rcases generate_cases messageCodes rfl table output session with
    ⟨cause, unread, ended⟩ | ⟨records, tree, _, _, ended⟩ | ⟨records, mishap, tree, _, _, ended⟩
  · rw [ended]
    refine ⟨session.logs_refl, ?_⟩
    rintro failure after ⟨⟩
    exact onOneLine_of_not_loaded tableOne unread
  · rw [ended]
    have read := session.logs_logged (onOneLine_readEntry tableOne records)
    have written := Session.logs_logged ((session.logged (readEntry table records)).acted tree)
      (onOneLine_generatedEntry outputOne)
    refine ⟨(read.trans (Session.logs_acted _ tree)).trans written, ?_⟩
    rintro failure after ⟨⟩
  · rw [ended]
    have read := session.logs_logged (onOneLine_readEntry tableOne records)
    refine ⟨read.trans (Session.logs_acted _ tree), ?_⟩
    rintro failure after ⟨⟩
    exact onOneLine_of_not_written tableOne outputOne mishap

end Generator

/-! ## Runs -/

namespace Batch

variable {policy : Policy} {source directory table : Path} {tables : List Path}
  {session after : Session} {outcome : Outcome} {failure : Failure} {report : Report}
  {outcomes : List Outcome}

/-- What the log says of the tables that failed. -/
def failureEntries (report : Report) : List LogEntry :=
  report.failed.map fun failed => failureEntry failed.2

theorem failureEntries_append (first second : Report) :
    failureEntries (first ++ second) = failureEntries first ++ failureEntries second :=
  List.map_append

section Turns

variable (tableOne : table.OnOneLine) (directoryOne : directory.OnOneLine)

include tableOne directoryOne

/-- The turn of a table logs an error exactly if the table failed. -/
theorem Turn.logs (turn : Turn .messageCodes policy directory table session
    (.ok outcome after)) : session.Logs after (failureEntries (Report.empty.add outcome)) := by
  have outputOne := Generator.onOneLine_output tableOne directoryOne
  have speaks := Generator.generate_speaks tableOne outputOne session
  cases turn with
  | skipped lazy fresh =>
      have begins : Text.OnOneLine "Up to date: " := by decide
      exact session.logs_logged (begins.append outputOne.text)
  | generated due done =>
      rw [done] at speaks
      exact speaks.1
  | @failed error stopped due refused lenient =>
      have one := speaks.2 _ _ refused
      rw [refused] at speaks
      exact speaks.1.trans (Session.logs_logged stopped one)

theorem Turn.speaks (turn : Turn .messageCodes policy directory table session
    (.error failure after)) : session.Logs after [] ∧ Text.OnOneLine failure.userText := by
  have outputOne := Generator.onOneLine_output tableOne directoryOne
  have speaks := Generator.generate_speaks tableOne outputOne session
  have of_refused (refused : Generator.messageCodes.generate table
      (Generator.messageCodes.output table directory) session = .error failure after) :
      session.Logs after [] ∧ Text.OnOneLine failure.userText := by
    have one := speaks.2 _ _ refused
    rw [refused] at speaks
    exact ⟨speaks.1, one⟩
  cases turn with
  | unclear lazy refused =>
      rcases Tree.exists_access_of_isStale refused with ⟨path, error, _, _, rfl⟩
      exact ⟨session.logs_refl, Failure.onOneLine_ofAccess path.text error⟩
  | stopped due refused strict => exact of_refused refused
  | escaped due refused other => exact of_refused refused

end Turns

theorem Accounts.logs (accounts : Accounts .messageCodes policy directory session tables outcomes
    after) (directoryOne : directory.OnOneLine) (tablesOne : ∀ table ∈ tables, table.OnOneLine) :
    session.Logs after (failureEntries (.ofOutcomes outcomes)) := by
  induction accounts with
  | nil session => exact session.logs_refl
  | @cons table tables outcome others session middle after turn rest ih =>
      rw [Report.ofOutcomes, failureEntries_append]
      have first := turn.logs (tablesOne table List.mem_cons_self) directoryOne
      exact first.trans (ih fun other inside => tablesOne other (List.mem_cons_of_mem table inside))

section Runs

variable (sourceOne : source.OnOneLine) (directoryOne : directory.OnOneLine)
  (named : session.tree.NamesOnOneLine)

include sourceOne directoryOne named

/-- A run that is done has logged as errors those of the tables that failed, and nothing else. -/
theorem generateAll_logs
    (done : generateAll .messageCodes policy source directory session = .ok report after) :
    session.Logs after (failureEntries report) := by
  rcases generateAll_eq_ok_iff.mp done with ⟨tables, outcomes, found, run, rfl⟩
  have tablesOne : ∀ table ∈ tables, table.OnOneLine :=
    fun table => named.mem_findTables sourceOne found
  exact (accounts_of_outcomesOf run).logs directoryOne tablesOne

theorem generateAll_speaks
    (failed : generateAll .messageCodes policy source directory session = .error failure after) :
    (∃ errors, session.Logs after errors) ∧ Text.OnOneLine failure.userText := by
  rcases generateAll_eq_error_iff.mp failed with ⟨refused, rfl⟩ | ⟨tables, found, stopped⟩
  · rcases Tree.exists_refused_of_findTables refused with ⟨_, code, text, _, rfl, _⟩
    exact ⟨⟨[], after.logs_refl⟩, Failure.onOneLine_system code text⟩
  · rcases exists_turn_of_outcomesOf_error stopped with
      ⟨earlier, table, later, outcomes, middle, rfl, worked, stops⟩
    have tablesOne : ∀ other ∈ earlier ++ table :: later, other.OnOneLine :=
      fun other => named.mem_findTables sourceOne found
    rcases List.forall_mem_append.mp tablesOne with ⟨earlierOne, laterOne⟩
    have tableOne := laterOne table List.mem_cons_self
    have before := (accounts_of_outcomesOf worked).logs directoryOne earlierOne
    have turn := turn_generateOne .messageCodes policy directory table middle
    rw [stops] at turn
    rcases turn.speaks tableOne directoryOne with ⟨last, one⟩
    exact ⟨⟨_, before.trans last⟩, one⟩

/--
Where the names in the tree and the two directories are on one line, so is whatever a run
logs, raises or reports, and whatever generating a single module raises. The errors in the
log of a run that is done are those of its report, one for each table that failed.
-/
theorem generateAll_onOneLine (policy : Policy) :
    (∃ added,
        (Session.left (generateAll .messageCodes policy source directory session)).log =
          session.log ++ added ∧
        ∀ entry ∈ added, Text.OnOneLine entry.message) ∧
    (∀ failure after,
        generateAll .messageCodes policy source directory session = .error failure after →
          Text.OnOneLine failure.userText) ∧
    (∀ report after,
        generateAll .messageCodes policy source directory session = .ok report after →
          (∀ failed ∈ report.failed, Text.OnOneLine (Failure.generation failed.2).userText) ∧
          ∃ added, after.log = session.log ++ added ∧
            added.filter (·.level = .error) =
              report.failed.map fun failed => ⟨.error, .batch, failed.2.text⟩) ∧
    ∀ (table output : Path) (other : Session), table.OnOneLine → output.OnOneLine →
      ∀ failure after, Generator.messageCodes.generate table output other = .error failure after →
        Text.OnOneLine failure.userText := by
  refine ⟨?_, ?_, ?_, ?_⟩
  · cases run : generateAll .messageCodes policy source directory session with
    | ok report after =>
        rcases generateAll_logs sourceOne directoryOne named run with ⟨added, log, one, _⟩
        exact ⟨added, log, one⟩
    | error failure after =>
        rcases generateAll_speaks sourceOne directoryOne named run with
          ⟨⟨errors, added, log, one, _⟩, _⟩
        exact ⟨added, log, one⟩
  · intro failure after failed
    exact (generateAll_speaks sourceOne directoryOne named failed).2
  · intro report after done
    have logs := generateAll_logs sourceOne directoryOne named done
    refine ⟨fun failed inside => ?_, ?_⟩
    · exact logs.onOneLine (failureEntry failed.2) (List.mem_map.mpr ⟨failed, inside, rfl⟩)
    · rcases logs with ⟨added, log, _, errors⟩
      exact ⟨added, log, errors⟩
  · intro table output other tableOne outputOne
    exact (Generator.generate_speaks tableOne outputOne other).2

end Runs

/-- A session with a table of one line that some readers would break at four of its characters. -/
def boundariesInTable : Session :=
  { Session.fresh 0o022 .passes fun _ => ⟨0, 0⟩ with
    tree := (Tree.empty 0o700 ⟨0, 0⟩).addEntry [⟨"marks.csv", by decide⟩]
      (.file ⟨#[0x37, 0x0B, 0x85, 0x1C, 0x0C]⟩ 0o644 ⟨0, 0⟩) ⟨0, 0⟩ }

theorem findTables_boundariesInTable :
    boundariesInTable.findTables (.ofText ".") ".csv" = .ok [.ofText "marks.csv"] :=
  Tree.findTables_csv_of_select (by cbv) (by cbv) (by cbv)

/-- The characters are told of by their code points. -/
theorem generateAll_onOneLine_boundariesInTable :
    (Path.ofText ".").OnOneLine ∧ boundariesInTable.tree.NamesOnOneLine ∧
      ∃ report after, generateAll .messageCodes ⟨true, true⟩ (.ofText ".") (.ofText ".")
          boundariesInTable = .ok report after ∧
        report.failed.map (·.2.text) =
          ["marks.csv:1: expected 3 fields (code,name,proto), got 1: '7\\x0b\\x85\\x1c\\x0c'"] ∧
        (∀ failed ∈ report.failed, Text.OnOneLine (Failure.generation failed.2).userText) ∧
        ∃ added, after.log = boundariesInTable.log ++ added ∧
          added.filter (·.level = .error) =
            report.failed.map fun failed => ⟨.error, .batch, failed.2.text⟩ := by
  have directoryOne : (Path.ofText ".").OnOneLine := by decide
  have named : boundariesInTable.tree.NamesOnOneLine := by decide
  have run : isDoneWith (fun outcomes _ =>
      decide ((Report.ofOutcomes outcomes).failed.map (·.2.text) =
        ["marks.csv:1: expected 3 fields (code,name,proto), got 1: '7\\x0b\\x85\\x1c\\x0c'"]))
      (outcomesOf .messageCodes ⟨true, true⟩ (.ofText ".") [.ofText "marks.csv"]
        boundariesInTable) = true := by
    decide +kernel
  rcases exists_of_isDoneWith run with ⟨outcomes, after, done, texts⟩
  have all : generateAll .messageCodes ⟨true, true⟩ (.ofText ".") (.ofText ".")
      boundariesInTable = .ok (.ofOutcomes outcomes) after :=
    generateAll_eq_ok_iff.mpr ⟨_, outcomes, findTables_boundariesInTable, done, rfl⟩
  rcases generateAll_onOneLine directoryOne directoryOne named ⟨true, true⟩ with
    ⟨_, _, reported, _⟩
  exact ⟨directoryOne, named, .ofOutcomes outcomes, after, all, of_decide_eq_true texts,
    reported _ after all⟩

end Batch

end MessageTables
