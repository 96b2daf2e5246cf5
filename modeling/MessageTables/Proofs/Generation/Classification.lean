import MessageTables.Proofs.FileSystem.NullFree
import MessageTables.Proofs.Generation.Success
import MessageTables.Proofs.Table.FirstFault
import MessageTables.Proofs.Table.Loading

/-!
# The stage at which generating fails

A module is not generated because its table is not read, because a line of the table is
at fault, or because the module is not written, and the failure tells which. The stages
come in this order, so a fault of an earlier one hides those of the later ones: as long as
the table is the same file, whatever keeps it from being a module does so for every output
and in every state of the output's directory.

`FailsWith` has one way to fail for each stage, and two that are no errors of generating: one
for codes with too many digits, and one for a module that cannot be encoded because its
table's path has no spelling in UTF-8. Null characters are left aside, as they belong to no
stage.
-/

namespace MessageTables

namespace Generator

open Text (breakCount)
open Table (FirstFault)

variable {table output : Path} {session after : Session} {failure : Failure}

/-- How each failure of generating a module comes about. -/
inductive FailsWith (table output : Path) (session : Session) : Failure → Prop where
  | unread {code : ErrorCode} (refused : session.tree.read table = .error (.code code)) :
      FailsWith table output session
        (.generation ⟨table, .unreadable (.ofCode code table.text)⟩)
  | rejected {bytes : ByteArray} {error : TableError}
      (read : session.tree.read table = .ok bytes)
      (refused : Table.parse (Text.ofList (Text.decodeBytes bytes)) (some table.text) =
        .error (.invalid error)) :
      FailsWith table output session (.generation ⟨table, .invalidTable error⟩)
  /-- The first line at fault has a code with too many digits. -/
  | oversized {bytes : ByteArray} {front line rest code name protocol : List Symbol}
      (read : session.tree.read table = .ok bytes)
      (fault : FirstFault (Text.decodeBytes bytes) front line rest)
      (shape : Table.fields line = [code, name, protocol])
      (isNumber : Text.isDigits code = true) (long : Table.digitLimit < code.length) :
      FailsWith table output session (.oversizedCode code.length)
  | unwritten {bytes : ByteArray} {records : List Record} {mishap : Mishap}
      {reason : SystemError} {left : Tree}
      (read : session.tree.read table = .ok bytes)
      (parsed : Table.parse (Text.ofList (Text.decodeBytes bytes)) (some table.text) =
        .ok records)
      (refused : messageCodes.writing table output records session session.tree =
        .error mishap left)
      (refusal : Failure.ofMishap mishap = .system reason) :
      FailsWith table output session (.generation ⟨table, .unwritable output reason⟩)
  /-- The last stage comes to the text of the module, which holds the table's path. -/
  | unencodable {bytes : ByteArray} {records : List Record} {left : Tree}
      (read : session.tree.read table = .ok bytes)
      (parsed : Table.parse (Text.ofList (Text.decodeBytes bytes)) (some table.text) =
        .ok records)
      (refused : messageCodes.writing table output records session session.tree =
        .error (.unencodable (messageCodes.render table records)) left)
      (noSpelling : table.text.encode? = none) :
      FailsWith table output session (.unencodable (messageCodes.render table records))

/-! ## Each stage -/

theorem failsWith_of_rejection {bytes : ByteArray} {rejection : Rejection}
    (read : session.tree.read table = .ok bytes)
    (refused : Table.parse (Text.ofList (Text.decodeBytes bytes)) (some table.text) =
      .error rejection) :
    FailsWith table output session ((Failure.ofRejection rejection).whileReading table) := by
  cases rejection with
  | invalid error => exact .rejected read refused
  | oversizedCode count =>
      rcases Table.parse_eq_error_iff.mp refused with ⟨front, line, rest, fault, refuses⟩
      rw [Text.toList_ofList] at fault
      cases refuses with
      | oversized shape isNumber long => exact .oversized read fault shape isNumber long

theorem failsWith_of_not_loaded (tableFree : table.NullFree)
    (unread : Table.loaded session.tree table = .error failure) :
    FailsWith table output session (failure.whileReading table) := by
  rcases Table.loaded_error_cases unread with
    ⟨error, read, rfl⟩ | ⟨bytes, rejection, read, refused, rfl⟩
  · cases error with
    | code code => exact .unread read
    | nullByte => exact absurd read (Tree.read_ne_nullByte tableFree)
  · exact failsWith_of_rejection read refused

theorem loaded_of_oversized {tree : Tree} {bytes : ByteArray}
    {front line rest code name protocol : List Symbol} (read : tree.read table = .ok bytes)
    (fault : FirstFault (Text.decodeBytes bytes) front line rest)
    (shape : Table.fields line = [code, name, protocol])
    (isNumber : Text.isDigits code = true) (long : Table.digitLimit < code.length) :
    Table.loaded tree table = .error (.oversizedCode code.length) := by
  have refused : Table.parse (Text.ofList (Text.decodeBytes bytes)) (some table.text) =
      .error (.oversizedCode code.length) := by
    rw [Table.parse_eq_error_iff, Text.toList_ofList]
    exact ⟨front, line, rest, fault, .oversized shape isNumber long⟩
  exact Table.loaded_of_rejected read refused

theorem exists_parsed_of_loaded {tree : Tree} {records : List Record}
    (loaded : Table.loaded tree table = .ok records) :
    ∃ bytes, tree.read table = .ok bytes ∧
      Table.parse (Text.ofList (Text.decodeBytes bytes)) (some table.text) = .ok records := by
  cases read : tree.read table with
  | error error =>
      rw [Table.loaded_of_unread read] at loaded
      cases loaded
  | ok bytes =>
      cases parsed : Table.parse (Text.ofList (Text.decodeBytes bytes)) (some table.text) with
      | error rejection =>
          rw [Table.loaded_of_rejected read parsed] at loaded
          cases loaded
      | ok others =>
          rw [Table.loaded_of_parsed read parsed] at loaded
          cases loaded
          exact ⟨bytes, rfl, parsed⟩

theorem failsWith_of_not_written {bytes : ByteArray} {records : List Record} {mishap : Mishap}
    {left : Tree} (outputFree : output.NullFree) (read : session.tree.read table = .ok bytes)
    (parsed : Table.parse (Text.ofList (Text.decodeBytes bytes)) (some table.text) = .ok records)
    (refused : messageCodes.writing table output records session session.tree =
      .error mishap left) :
    FailsWith table output session ((Failure.ofMishap mishap).whileWriting table output) := by
  cases mishap with
  | refused error paths =>
      cases error with
      | code code => exact .unwritten read parsed refused rfl
      | nullByte => exact absurd refused (TreeAction.replaceFile_ne_nullByte outputFree)
  | crowded => exact .unwritten read parsed refused rfl
  | unencodable text =>
      rcases TreeAction.eq_of_replaceFile_unencodable refused with ⟨rfl, stray, _⟩
      rw [render, LookupModule.encode?_render_eq_none_iff] at stray
      exact .unencodable read parsed refused stray

/-- Every failure of generating belongs to a stage. -/
theorem failsWith_of_generate (tableFree : table.NullFree) (outputFree : output.NullFree)
    (failed : messageCodes.generate table output session = .error failure after) :
    FailsWith table output session failure := by
  rcases generate_cases messageCodes rfl table output session with
    ⟨cause, unread, ended⟩ | ⟨_, _, _, _, ended⟩ | ⟨records, mishap, left, loaded, refused, ended⟩
  · rw [ended] at failed
    cases failed
    exact failsWith_of_not_loaded tableFree unread
  · rw [ended] at failed
    cases failed
  · rw [ended] at failed
    cases failed
    rcases exists_parsed_of_loaded loaded with ⟨bytes, read, parsed⟩
    exact failsWith_of_not_written outputFree read parsed refused

/-- Whether a failure is one of the last stage. -/
def IsLate (table output : Path) (failure : Failure) : Prop :=
  (∃ reason, failure = .generation ⟨table, .unwritable output reason⟩) ∨
    ∃ text, failure = .unencodable text

namespace FailsWith

/-- Whatever keeps a table from being read or parsed ends the run with nothing done. -/
theorem exists_loaded_or_isLate (fails : FailsWith table output session failure) :
    (∃ cause, Table.loaded session.tree table = .error cause ∧
        cause.whileReading table = failure) ∨
      IsLate table output failure ∧ ∃ records mishap left,
        Table.loaded session.tree table = .ok records ∧
        messageCodes.writing table output records session session.tree = .error mishap left ∧
        (Failure.ofMishap mishap).whileWriting table output = failure := by
  cases fails with
  | unread refused => exact Or.inl ⟨_, Table.loaded_of_unread refused, rfl⟩
  | rejected read refused => exact Or.inl ⟨_, Table.loaded_of_rejected read refused, rfl⟩
  | oversized read fault shape isNumber long =>
      exact Or.inl ⟨_, loaded_of_oversized read fault shape isNumber long, rfl⟩
  | unwritten read parsed refused refusal =>
      exact Or.inr ⟨Or.inl ⟨_, rfl⟩, _, _, _, Table.loaded_of_parsed read parsed, refused,
        by rw [refusal]; rfl⟩
  | unencodable read parsed refused noSpelling =>
      exact Or.inr ⟨Or.inr ⟨_, rfl⟩, _, _, _, Table.loaded_of_parsed read parsed, refused, rfl⟩

theorem exists_generate (fails : FailsWith table output session failure) :
    ∃ after, messageCodes.generate table output session = .error failure after := by
  rcases fails.exists_loaded_or_isLate with
    ⟨cause, unread, rfl⟩ | ⟨_, records, mishap, left, loaded, refused, rfl⟩
  · exact ⟨session, generate_of_not_loaded rfl unread⟩
  · exact ⟨_, generate_of_not_written rfl loaded refused⟩

end FailsWith

theorem loaded_congr {tree other : Tree} (same : tree.read table = other.read table) :
    Table.loaded tree table = Table.loaded other table := by
  rw [Table.loaded, Table.loaded, same]

theorem invalidTable_text {error : TableError} {position : Position}
    (positioned : error.position = some position) :
    (⟨table, .invalidTable error⟩ : GenerationError).text = error.text := by
  simp only [GenerationError.text, GenerationError.position, GenerationError.message,
    GenerationError.locate, TableError.text, Position.locate, positioned]

/--
Generating fails with one error for each stage. If it does not get to the last stage, it
has done nothing, and it fails in the same way wherever the table is the same and whatever
the output is. The error of a rejected table speaks for the error of its line.
-/
theorem generate_fails_by_stage (tableFree : table.NullFree) (outputFree : output.NullFree)
    (session : Session) :
    (∀ failure, (∃ after, messageCodes.generate table output session = .error failure after) ↔
      FailsWith table output session failure) ∧
    (∀ failure after, messageCodes.generate table output session = .error failure after →
      ¬IsLate table output failure →
        after = session ∧ ∀ other elsewhere, elsewhere.tree.read table = session.tree.read table →
          messageCodes.generate table other elsewhere = .error failure elsewhere) ∧
    ∀ error after, messageCodes.generate table output session =
        .error (.generation ⟨table, .invalidTable error⟩) after →
      ∃ bytes front line rest, session.tree.read table = .ok bytes ∧
        FirstFault (Text.decodeBytes bytes) front line rest ∧
        error.position = some ⟨some table.text, some (breakCount front + 1)⟩ ∧
        (⟨table, .invalidTable error⟩ : GenerationError).position = error.position ∧
        (⟨table, .invalidTable error⟩ : GenerationError).message = error.fault.message ∧
        (⟨table, .invalidTable error⟩ : GenerationError).text = error.text ∧
        error.text = table.text ++ ":" ++ Text.numeral (breakCount front + 1) ++ ": " ++
          error.fault.message := by
  refine ⟨fun failure => ⟨?_, FailsWith.exists_generate⟩, ?_, ?_⟩
  · rintro ⟨after, failed⟩
    exact failsWith_of_generate tableFree outputFree failed
  · intro failure after failed early
    have fails := failsWith_of_generate tableFree outputFree failed
    -- Before the last stage, a failure is one of loading the table, which sees no output.
    rcases fails.exists_loaded_or_isLate with ⟨cause, unread, rfl⟩ | ⟨late, _⟩
    · constructor
      · rw [generate_of_not_loaded rfl unread] at failed
        cases failed
        rfl
      · intro other elsewhere same
        rw [← loaded_congr same] at unread
        exact generate_of_not_loaded rfl unread
    · exact absurd late early
  · intro error after failed
    cases failsWith_of_generate tableFree outputFree failed with
    | rejected read refused =>
        rcases Table.parse_eq_error_iff.mp refused with ⟨front, line, rest, fault, refuses⟩
        rw [Text.toList_ofList] at fault
        have positioned := refuses.position_eq
        refine ⟨_, front, line, rest, read, fault, positioned, rfl, rfl,
          invalidTable_text positioned, ?_⟩
        rw [TableError.text, positioned]
        rfl

/-- A table that is read and accepted, and then fails with what is no error of generating. -/
theorem not_forall_generation_or_oversizedCode :
    ¬∀ (session : Session) (table output : Path), table.NullFree → output.NullFree →
      ∀ failure after, messageCodes.generate table output session = .error failure after →
        (∃ error, failure = .generation error) ∨ ∃ count, failure = .oversizedCode count := by
  intro always
  let table : Path := .plain .relative [strayName]
  let output : Path := .plain .relative [⟨"m.py", by decide⟩]
  let text : Text := messageCodes.render table [⟨0, "A", "p_pb"⟩]
  have stopped : isStoppedWith (fun failure _ => decide (failure = .unencodable text))
      (messageCodes.generate table output strayTableAlone) = true := by
    decide +kernel
  rcases exists_of_isStoppedWith stopped with ⟨failure, after, failed, same⟩
  rw [of_decide_eq_true same] at failed
  rcases always strayTableAlone table output (by decide) (by decide) _ after failed with
    ⟨error, impossible⟩ | ⟨count, impossible⟩
  · cases impossible
  · cases impossible

/--
A session with a table that has a fault in its third line, and a directory in the place of
its module.
-/
def faultyAndBlocked : Session :=
  { Session.fresh 0o022 .passes fun _ => ⟨0, 0⟩ with
    tree := ((Tree.empty 0o700 ⟨0, 0⟩).addEntry [⟨"codes.csv", by decide⟩]
      (.file "0,A,p\n\nx,B,p\n".toUTF8 0o644 ⟨0, 0⟩) ⟨0, 0⟩).addEntry [⟨"codes.py", by decide⟩]
      (.directory 0o755 ⟨0, 0⟩) ⟨0, 0⟩ }

/-- The fault of the table hides that its module could not be written. -/
theorem generate_fails_by_stage_faultyAndBlocked :
    (Path.ofText "codes.csv").NullFree ∧ (Path.ofText "codes.py").NullFree ∧
      ∃ error : TableError, error.fault = .invalidCode "x" ∧
        messageCodes.generate (.ofText "codes.csv") (.ofText "codes.py") faultyAndBlocked =
          .error (.generation ⟨.ofText "codes.csv", .invalidTable error⟩) faultyAndBlocked ∧
        (⟨.ofText "codes.csv", .invalidTable error⟩ : GenerationError).text =
          "codes.csv:3: invalid message code: 'x'" := by
  have tableFree : (Path.ofText "codes.csv").NullFree := by decide
  have outputFree : (Path.ofText "codes.py").NullFree := by decide
  have read : faultyAndBlocked.tree.read (.ofText "codes.csv") =
      .ok "0,A,p\n\nx,B,p\n".toUTF8 := by
    cbv
  have refused : Table.parse (Text.ofList (Text.decodeBytes "0,A,p\n\nx,B,p\n".toUTF8))
      (some (Path.ofText "codes.csv").text) =
        .error (.invalid ⟨.invalidCode "x", some ⟨some "codes.csv", some 3⟩⟩) := by
    cbv
  rcases generate_fails_by_stage tableFree outputFree faultyAndBlocked with
    ⟨stages, early, _⟩
  rcases (stages _).mpr (.rejected read refused) with ⟨after, failed⟩
  have unchanged := (early _ after failed (by simp [IsLate])).1
  rw [unchanged] at failed
  exact ⟨tableFree, outputFree, _, rfl, failed, by decide +kernel⟩

end Generator

end MessageTables
