import MessageTables.Position
import MessageTables.Text.Quoted

/-!
# Errors in tables

A table is refused for one line of it: the line has the wrong number of fields,
or its code is no row of digits. The error keeps the cause and the position, and
`message` words the cause.
-/

namespace MessageTables

/-- What is wrong with a line of a table. -/
inductive Fault where
  | malformedLine (line : Text) (fieldCount : Int)
  | invalidCode (token : Text)
  | other (message : Text)
  deriving DecidableEq, Repr

namespace Fault

/-- The wording of a fault; what comes from the table is quoted. -/
def message : Fault → Text
  | malformedLine line fieldCount =>
      "expected 3 fields (code,name,proto), got " ++ Text.numeral fieldCount ++ ": " ++
        Text.quote line
  | invalidCode token => "invalid message code: " ++ Text.quote token
  | other message => message

end Fault

/-- A fault and where it is. -/
structure TableError where
  fault : Fault
  position : Option Position
  deriving DecidableEq, Repr

namespace TableError

/-- The wording of the fault behind its position. -/
def text (error : TableError) : Text :=
  Position.locate error.position error.fault.message

/-- The names of an error's class and of the classes it belongs to, the narrowest first. -/
def classNames (error : TableError) : List Text :=
  match error.fault with
  | .malformedLine _ _ => ["MalformedLineError", "ParseError", "MsgCodegenError"]
  | .invalidCode _ => ["InvalidCodeError", "ParseError", "MsgCodegenError"]
  | .other _ => ["ParseError", "MsgCodegenError"]

end TableError

/--
Why a text gives no records: an error in the table, or a code with more digits than are
converted.
-/
inductive Rejection where
  | invalid (error : TableError)
  | oversizedCode (digitCount : Nat)
  deriving DecidableEq, Repr

end MessageTables
