import MessageTables.Text.Basic

/-!
# Records

A row of a message table gives a message its code, its name and the module that
decodes it.
-/

namespace MessageTables

/-- One row of a message table. -/
structure Record where
  code : Int
  name : Text
  decoder : Text
  deriving DecidableEq, Repr

namespace Record

/-- The module that decodes the messages of a protocol. -/
def decoderOf (protocol : Text) : Text :=
  protocol ++ "_pb"

end Record

end MessageTables
