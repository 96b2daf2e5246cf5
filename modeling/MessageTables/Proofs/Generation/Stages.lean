import MessageTables.Generation
import MessageTables.Proofs.Actions

/-!
# The stages of generating a module

Reading a table changes nothing. A table that cannot be read ends the run there;
any other leaves its module to be written, which is one action on the tree.
-/

namespace MessageTables

namespace Action

variable {α : Type} {question : Tree → Path → Except AccessError α} {path : Path}
  {session : Session}

theorem ask_of_ok {answer : α} (answered : question session.tree path = .ok answer) :
    ask question path session = .ok answer session := by
  have current : (get : Action Session) session = .ok session session := rfl
  rw [ask, bind_of_ok current, answered]
  rfl

theorem ask_of_error {error : AccessError} (refused : question session.tree path = .error error) :
    ask question path session = .error (.ofAccess path.text error) session := by
  have current : (get : Action Session) session = .ok session session := rfl
  rw [ask, bind_of_ok current, refused]
  rfl

end Action

namespace Table

/-- The text of a table file as it is parsed. -/
def textOf (bytes : ByteArray) : Text :=
  Text.ofList (Text.unifyBreaks (Text.decodeBytes bytes))

/-- The records of the table that a path leads to. -/
def loaded (tree : Tree) (path : Path) : Except Failure (List Record) :=
  match tree.read path with
  | .error error => .error (.ofAccess path.text error)
  | .ok bytes => (parse (textOf bytes) (some path.text)).mapError .ofRejection

variable {path : Path} {session : Session} {records : List Record} {failure : Failure}

theorem load_eq (path : Path) (session : Session) :
    load path session =
      match loaded session.tree path with
      | .ok records => .ok records session
      | .error failure => .error failure session := by
  rw [load, loaded]
  cases asked : session.tree.read path with
  | error error => rw [bind_of_error (Action.ask_of_error asked)]
  | ok bytes =>
      rw [bind_of_ok (Action.ask_of_ok asked)]
      simp only [textOf]
      cases parse (Text.ofList (Text.unifyBreaks (Text.decodeBytes bytes))) (some path.text) with
      | ok records => rfl
      | error rejection => rfl

theorem load_of_loaded (read : loaded session.tree path = .ok records) :
    load path session = .ok records session := by
  rw [load_eq, read]

theorem load_of_not_loaded (unread : loaded session.tree path = .error failure) :
    load path session = .error failure session := by
  rw [load_eq, unread]

end Table

namespace Session

/-- A session after one action on its tree. -/
def acted (session : Session) (tree : Tree) : Session :=
  { session with tree, readings := session.readings + 1 }

/-- A session with one more entry in its log. -/
def logged (session : Session) (entry : LogEntry) : Session :=
  { session with log := session.log ++ [entry] }

/-- The session that is left by what is done in it, whether that is done or fails. -/
def left {α : Type} : EStateM.Result Failure Session α → Session
  | .ok _ after => after
  | .error _ after => after

/-- An answer that is put in another form leaves the same session. -/
theorem left_bind_pure {α β : Type} (action : Action α) (answer : α → β) (session : Session) :
    left ((action >>= fun value => pure (answer value)) session) = left (action session) := by
  cases run : action session with
  | ok value after =>
      rw [bind_of_ok run]
      rfl
  | error failure after =>
      rw [bind_of_error run]
      rfl

end Session

namespace Action

variable {α : Type} {action : Timestamp → TreeAction α} {after : Tree}

theorem act_eq (action : Timestamp → TreeAction α) (session : Session) :
    act action session =
      match action (session.clock session.readings) session.tree with
      | .ok answer tree => .ok answer (session.acted tree)
      | .error mishap tree => .error (.ofMishap mishap) (session.acted tree) :=
  rfl

theorem act_of_ok (session : Session) {answer : α}
    (done : action (session.clock session.readings) session.tree = .ok answer after) :
    act action session = .ok answer (session.acted after) := by
  rw [act_eq, done]

theorem act_of_error (session : Session) {mishap : Mishap}
    (failed : action (session.clock session.readings) session.tree = .error mishap after) :
    act action session = .error (.ofMishap mishap) (session.acted after) := by
  rw [act_eq, failed]

end Action

namespace Generator

variable {generator : Generator} {table output : Path} {session : Session}

/-- What is done to the tree of a session to write the module of a table. -/
def writing (generator : Generator) (table output : Path) (records : List Record)
    (session : Session) : TreeAction Unit :=
  TreeAction.replaceFile output (generator.render table records)
    (Action.newDirectoryMode session) (session.draws session.readings)
    (session.clock session.readings)

/-- What the log says of a table that was read. -/
def readEntry (table : Path) (records : List Record) : LogEntry :=
  ⟨.debug, .generation,
    "Read " ++ Text.numeral records.length ++ " records from " ++ table.text⟩

/-- What the log says of a module that was written. -/
def generatedEntry (output : Path) : LogEntry :=
  ⟨.info, .generation, "Generated " ++ output.text⟩

theorem generate_of_base {name : Text} (kind : generator.kind = .base name) :
    generator.generate table output session = .error .notImplemented session := by
  rw [generate, kind]
  rfl

theorem generate_of_not_loaded {failure : Failure} (kind : generator.kind = .messageCodes)
    (unread : Table.loaded session.tree table = .error failure) :
    generator.generate table output session =
      .error (failure.whileReading table) session := by
  have stops := adaptExcept_of_error (Table.load_of_not_loaded unread) (Failure.whileReading table)
  rw [generate, kind]
  exact bind_of_error stops _

section Loaded

variable {records : List Record} {after : Tree}

/-- Once its table is read, a module is written by one action on the tree. -/
theorem generate_of_loaded (kind : generator.kind = .messageCodes)
    (read : Table.loaded session.tree table = .ok records) :
    generator.generate table output session =
      match generator.writing table output records session session.tree with
      | .ok _ after =>
          .ok () (((session.logged (readEntry table records)).acted after).logged
            (generatedEntry output))
      | .error mishap after =>
          .error ((Failure.ofMishap mishap).whileWriting table output)
            ((session.logged (readEntry table records)).acted after) := by
  have loads := adaptExcept_of_ok (Table.load_of_loaded read) (Failure.whileReading table)
  rw [generate, kind]
  refine (bind_of_ok loads _).trans ?_
  let reading := session.logged (readEntry table records)
  let write (time : Timestamp) : TreeAction Unit :=
    TreeAction.replaceFile output (generator.render table records)
      (Action.newDirectoryMode session) (session.draws session.readings) time
  let logs (_ : Unit) : Action Unit :=
    Action.record .info .generation ("Generated " ++ output.text)
  have begins : write (reading.clock reading.readings) reading.tree =
      generator.writing table output records session session.tree := rfl
  change (((Action.act write).adaptExcept (Failure.whileWriting table output)) >>= logs) reading = _
  cases written : generator.writing table output records session session.tree with
  | ok _ after =>
      have acts := Action.act_of_ok reading (begins.trans written)
      rw [bind_of_ok (adaptExcept_of_ok acts _)]
      rfl
  | error mishap after =>
      have acts := Action.act_of_error reading (begins.trans written)
      rw [bind_of_error (adaptExcept_of_error acts _)]

theorem generate_of_written (kind : generator.kind = .messageCodes)
    (read : Table.loaded session.tree table = .ok records)
    (written : generator.writing table output records session session.tree = .ok () after) :
    generator.generate table output session =
      .ok () (((session.logged (readEntry table records)).acted after).logged
        (generatedEntry output)) := by
  rw [generate_of_loaded kind read, written]

theorem generate_of_not_written {mishap : Mishap} (kind : generator.kind = .messageCodes)
    (read : Table.loaded session.tree table = .ok records)
    (failed : generator.writing table output records session session.tree =
      .error mishap after) :
    generator.generate table output session =
      .error ((Failure.ofMishap mishap).whileWriting table output)
        ((session.logged (readEntry table records)).acted after) := by
  rw [generate_of_loaded kind read, failed]

end Loaded

variable (generator) in
/-- The ways in which generating a module ends: unread, written or not written. -/
theorem generate_cases (kind : generator.kind = .messageCodes) (table output : Path)
    (session : Session) :
    (∃ failure, Table.loaded session.tree table = .error failure ∧
        generator.generate table output session = .error (failure.whileReading table) session) ∨
      (∃ records after, Table.loaded session.tree table = .ok records ∧
        generator.writing table output records session session.tree = .ok () after ∧
        generator.generate table output session =
          .ok () (((session.logged (readEntry table records)).acted after).logged
            (generatedEntry output))) ∨
      ∃ records mishap after, Table.loaded session.tree table = .ok records ∧
        generator.writing table output records session session.tree = .error mishap after ∧
        generator.generate table output session =
          .error ((Failure.ofMishap mishap).whileWriting table output)
            ((session.logged (readEntry table records)).acted after) := by
  cases read : Table.loaded session.tree table with
  | error failure => exact Or.inl ⟨failure, rfl, generate_of_not_loaded kind read⟩
  | ok records =>
      right
      cases written : generator.writing table output records session session.tree with
      | ok _ after =>
          exact Or.inl ⟨records, after, rfl, written, generate_of_written kind read written⟩
      | error mishap after =>
          exact Or.inr ⟨records, mishap, after, rfl, written,
            generate_of_not_written kind read written⟩

theorem exists_loaded_of_generate (kind : generator.kind = .messageCodes)
    {after : Session} (done : generator.generate table output session = .ok () after) :
    ∃ records, Table.loaded session.tree table = .ok records ∧
      generator.writing table output records session session.tree = .ok () after.tree := by
  rcases generate_cases generator kind table output session with
    ⟨failure, _, ended⟩ | ⟨records, tree, read, written, ended⟩ |
      ⟨records, mishap, tree, _, _, ended⟩
  · rw [ended] at done
    cases done
  · rw [ended] at done
    cases done
    exact ⟨records, read, written⟩
  · rw [ended] at done
    cases done

end Generator

end MessageTables
