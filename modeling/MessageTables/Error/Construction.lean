import MessageTables.Text.Basic

/-!
# Errors that cannot be made

An error is made of values and of the error that was its reason. Not every value
and not every reason will do: a count has to fit in a machine word, and a reason
has to have the part that the new error takes from it.
-/

namespace MessageTables

/-- Why an error could not be made. -/
inductive ConstructionError where
  | oversizedCount
  | missingPart (className part : Text)
  deriving DecidableEq, Repr

namespace ConstructionError

/-- The name of the class of a failure to make an error. -/
def className : ConstructionError → Text
  | oversizedCount => "ValueError"
  | missingPart _ _ => "AttributeError"

/-- The wording of a failure to make an error. -/
def text : ConstructionError → Text
  | oversizedCount => "cannot fit 'int' into an index-sized integer"
  | missingPart className part =>
      "'" ++ className ++ "' object has no attribute '" ++ part ++ "'"

end ConstructionError

end MessageTables
