import MessageTables.Error.System
import MessageTables.Path
import MessageTables.Table.Error

/-!
# Errors of generating a module

The module of a table is not generated when the table cannot be read, when it
is no valid table, or when the module cannot be written. An error keeps the
table it is about and the cause; its wording begins with the position of the
fault in the table if there is one, and with the table's path if not.
-/

namespace MessageTables

/-- Why no module was generated. -/
inductive GenerationCause where
  | unreadable (reason : SystemError)
  | invalidTable (error : TableError)
  | unwritable (output : Path) (reason : SystemError)
  | other (message : Text) (position : Option Position)
  deriving DecidableEq

/-- A table and why no module was generated from it. -/
structure GenerationError where
  table : Path
  cause : GenerationCause
  deriving DecidableEq

namespace GenerationError

/-- A message behind the position of the fault, or behind the table's path when there is none. -/
def locate (table : Path) (position : Option Position) (message : Text) : Text :=
  match position with
  | some position => position.text ++ ": " ++ message
  | none => table.text ++ ": " ++ message

/-- The wording of the cause. -/
def message (error : GenerationError) : Text :=
  match error.cause with
  | .unreadable reason => "cannot read table: " ++ reason.briefText
  | .invalidTable error => error.fault.message
  | .unwritable output reason => "cannot write " ++ output.text ++ ": " ++ reason.briefText
  | .other message _ => message

/-- Where in the table the fault is. -/
def position (error : GenerationError) : Option Position :=
  match error.cause with
  | .invalidTable error => error.position
  | .other _ position => position
  | _ => none

/-- The wording of an error. -/
def text (error : GenerationError) : Text :=
  locate error.table error.position error.message

/-- The names of an error's class and of the classes it belongs to, the narrowest first. -/
def classNames (error : GenerationError) : List Text :=
  match error.cause with
  | .unreadable _ => ["TableReadError", "GenerateError", "MsgCodegenError"]
  | .invalidTable _ => ["TableParseError", "GenerateError", "MsgCodegenError"]
  | .unwritable _ _ => ["ModuleWriteError", "GenerateError", "MsgCodegenError"]
  | .other _ _ => ["GenerateError", "MsgCodegenError"]

end GenerationError

end MessageTables
