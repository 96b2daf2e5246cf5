import MessageTables.Text.Numeral
import MessageTables.Text.Quoted

/-!
# Values

Lookups are called with values, and errors are made of values. A value stands in
a message as it is; in a list of values a text is quoted, so that the list can be
read. Where a number is meant, a truth value is the number one or zero.
-/

namespace MessageTables

/-- A value that a lookup is called with or that an error is made of. -/
inductive Value where
  | integer (value : Int)
  | truth (value : Bool)
  | text (value : Text)
  | absent
  deriving DecidableEq, Repr

namespace Value

/-- The number that a value is. A text is no number. -/
def number? : Value → Option Int
  | integer value => some value
  | truth value => some (if value then 1 else 0)
  | text _ => none
  | absent => none

/-- A value within a message. -/
def plain : Value → Text
  | integer value => Text.numeral value
  | truth value => if value then "True" else "False"
  | text value => value
  | absent => "None"

/-- A value within a list of values: texts are quoted. -/
def shown : Value → Text
  | text value => Text.quote value
  | value => value.plain

/-- Whether a value says nothing. -/
def isVoid : Value → Bool
  | integer value => value = 0
  | truth value => !value
  | text value => value = ""
  | absent => true

/-- Several values as one message: nothing, the only value, or all of them in parentheses. -/
def message : List Value → Text
  | [] => ""
  | [value] => value.plain
  | values => "(" ++ Text.intercalate ", " (values.map shown) ++ ")"

end Value

end MessageTables
