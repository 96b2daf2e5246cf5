import MessageTables.Error.Generation

/-!
# Diagnostics

Every error that a user may be told about, with its wording. Errors about tables
speak for themselves; the others are introduced by the name of their class.

A diagnostic can be made by hand, of another diagnostic as its reason. A table
counts as rejected for any error about tables, not only for one of its lines:
what is said of the rejection is what the reason says.
-/

namespace MessageTables

/--
An error about tables: it knows its message and, where there is one, the position of the
fault.
-/
inductive TableDiagnostic where
  | plain (message : Text) (position : Option Position)
  | table (error : TableError)
  | generation (error : GenerationError)
  | rejection (table : Path) (reason : TableDiagnostic)
  deriving DecidableEq

namespace TableDiagnostic

/-- The message without a position. -/
def message : TableDiagnostic → Text
  | plain message _ => message
  | table error => error.fault.message
  | generation error => error.message
  | rejection _ reason => reason.message

/-- Where the fault is. -/
def position : TableDiagnostic → Option Position
  | plain _ position => position
  | table error => error.position
  | generation error => error.position
  | rejection _ reason => reason.position

/-- The wording of an error. -/
def text : TableDiagnostic → Text
  | plain message position => Position.locate position message
  | table error => error.text
  | generation error => error.text
  | rejection path reason => GenerationError.locate path reason.position reason.message

/-- The names of an error's class and of the classes it belongs to, the narrowest first. -/
def classNames : TableDiagnostic → List Text
  | plain _ _ => ["MsgCodegenError"]
  | table error => error.classNames
  | generation error => error.classNames
  | rejection _ _ => ["TableParseError", "GenerateError", "MsgCodegenError"]

end TableDiagnostic

/-- An error that a user may be told about. -/
inductive Diagnostic where
  | table (error : TableDiagnostic)
  | system (error : SystemError)
  | value (arguments : List Value)
  | key (arguments : List Value)
  deriving DecidableEq

namespace Diagnostic

/-- The wording of an error. The only argument of a key error is shown as the key it is. -/
def text : Diagnostic → Text
  | table error => error.text
  | system error => error.text
  | value arguments => Value.message arguments
  | key [argument] => argument.shown
  | key arguments => Value.message arguments

/-- The name of an error's class. -/
def className : Diagnostic → Text
  | table error => error.classNames.headD ""
  | system error => error.errorClass.name
  | value _ => "ValueError"
  | key _ => "KeyError"

/-- The one line that a user is told. -/
def userText (diagnostic : Diagnostic) : Text :=
  match diagnostic with
  | table error => error.text
  | diagnostic => diagnostic.className ++ ": " ++ diagnostic.text

/-- A diagnostic as the error of the system that kept a file from being read or written. -/
def systemReason : Diagnostic → Except ConstructionError SystemError
  | system error => .ok error
  | diagnostic => .error (.missingPart diagnostic.className "strerror")

/-- The error of a table that could not be read for the given reason. -/
def unreadable (table : Path) (reason : Diagnostic) : Except ConstructionError TableDiagnostic :=
  return .generation ⟨table, .unreadable (← reason.systemReason)⟩

/-- The error of a module that could not be written for the given reason. -/
def unwritable (table output : Path) (reason : Diagnostic) :
    Except ConstructionError TableDiagnostic :=
  return .generation ⟨table, .unwritable output (← reason.systemReason)⟩

/--
The error of a table that was rejected for the given reason, which has to be an error about
tables.
-/
def rejected (path : Path) (reason : Diagnostic) : Except ConstructionError TableDiagnostic :=
  match reason with
  | table (.table error) => .ok (.generation ⟨path, .invalidTable error⟩)
  | table error => .ok (.rejection path error)
  | diagnostic => .error (.missingPart diagnostic.className "message")

end Diagnostic

end MessageTables
