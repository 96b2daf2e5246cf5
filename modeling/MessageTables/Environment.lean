import MessageTables.Text.UpperCase

/-!
# Settings in the environment

A setting is read from the variable whose name is the setting's name in upper
case behind the program's own beginning. A variable that is set to nothing counts
as not set.
-/

namespace MessageTables

/-- Variables and their values. -/
abbrev Environment := List (Text × Text)

namespace Environment

/-- What the names of the program's variables begin with. -/
def variableBeginning : Text := "MSGCODEGEN_"

/-- The value of a setting, if its variable is set to something. -/
def setting? (environment : Environment) (name : Text) : Option Text :=
  (environment.lookup (variableBeginning ++ Text.upper name)).filter (· ≠ Text.ofString "")

end Environment

end MessageTables
