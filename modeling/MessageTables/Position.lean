import MessageTables.Text.Numeral

/-!
# Positions in tables

A position names the table a message is about and, when the message is about
one line of it, the number of that line.
-/

namespace MessageTables

/-- A place in a table: its path, if the text came from a file, and a line, if one is meant. -/
structure Position where
  source : Option Text
  line : Option Int
  deriving DecidableEq, Repr

namespace Position

/-- The table alone, `<table>` when it has no path. -/
def sourceText (position : Position) : Text :=
  position.source.getD "<table>"

/-- The text that messages begin with: the table and, behind a colon, the line. -/
def text (position : Position) : Text :=
  match position.line with
  | none => position.sourceText
  | some line => position.sourceText ++ ":" ++ Text.numeral line

/-- A message behind its position, or alone when it has none. -/
def locate (position : Option Position) (message : Text) : Text :=
  match position with
  | none => message
  | some position => position.text ++ ": " ++ message

end Position

end MessageTables
