import MessageTables.Generator
import MessageTables.LookupModule.Printer
import MessageTables.Session
import MessageTables.Table.Parser
import MessageTables.Text.SingleByte

/-!
# Generating a module

A table is read, parsed and rendered, and only then is the output touched. Each
stage has errors of its own, all of which name the table. Codes with too many
digits, paths with null characters and texts that cannot be encoded are no errors
of a table; they end the whole run.
-/

namespace MessageTables

namespace Table

/-- Reads a table file. Every break in it is read as a line feed. -/
def load (path : Path) : Action (List Record) := do
  let bytes ← Action.ask Tree.read path
  let text := Text.ofList (Text.unifyBreaks (Text.decodeBytes bytes))
  match parse text (some path.text) with
  | .ok records => return records
  | .error rejection => throw (.ofRejection rejection)

end Table

namespace Failure

/-- A failure to read a table, as an error of generating its module. -/
def whileReading (table : Path) : Failure → Failure
  | invalidTable error => generation ⟨table, .invalidTable error⟩
  | system error => generation ⟨table, .unreadable error⟩
  | failure => failure

/-- A failure to write a module, as an error of generating it. -/
def whileWriting (table output : Path) : Failure → Failure
  | system error => generation ⟨table, .unwritable output error⟩
  | failure => failure

end Failure

namespace Generator

/-- The lines of text that a generator writes for a table's records. -/
def render (generator : Generator) (table : Path) (records : List Record) : Text :=
  LookupModule.render (generator.moduleName table) records table.text

/-- Generates the module of a table. -/
def generate (generator : Generator) (table output : Path) : Action Unit :=
  match generator.kind with
  | .base _ => throw .notImplemented
  | .messageCodes => do
      let records ← (Table.load table).adaptExcept (.whileReading table)
      Action.record .debug .generation
        ("Read " ++ Text.numeral records.length ++ " records from " ++ table.text)
      let session ← get
      let mode := Action.newDirectoryMode session
      let draw := session.draws session.readings
      let text := generator.render table records
      let write := Action.act fun time => TreeAction.replaceFile output text mode draw time
      write.adaptExcept (.whileWriting table output)
      Action.record .info .generation ("Generated " ++ output.text)

end Generator

end MessageTables
