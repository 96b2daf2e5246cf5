import MessageTables.Table.Error
import MessageTables.Table.Record
import MessageTables.Text.Lines

/-!
# Reading tables

A table has one record a line, written as three fields with commas between
them: the code, the name and the protocol. Empty lines are passed over, and so
are empty fields, so that any number of commas separates two fields.

Lines are read in order and the first that is no record ends the reading, so
nothing behind it matters. Lines are counted from one, empty ones included.
-/

namespace MessageTables

namespace Table

/-- The largest number of digits of a code that is converted, leading zeros included. -/
def digitLimit : Nat := 4300

/-- The fields of a line: its pieces between commas, without the empty ones. -/
def fields (line : List Symbol) : List (List Symbol) :=
  (line.splitOn (Symbol.char ',')).filter (!·.isEmpty)

/-- The record with the given fields; the position is the one errors are reported at. -/
def readFields (position : Position) (code name protocol : List Symbol) : Except Rejection Record :=
  if !Text.isDigits code then
    .error (.invalid ⟨.invalidCode (Text.ofList code), some position⟩)
  else if digitLimit < code.length then
    .error (.oversizedCode code.length)
  else
    .ok {
      code := Text.digitsValue code
      name := Text.ofList name
      decoder := Record.decoderOf (Text.ofList protocol) }

/-- The record of a line that is not empty. -/
def readLine (position : Position) (line : List Symbol) : Except Rejection Record :=
  match fields line with
  | [code, name, protocol] => readFields position code name protocol
  | pieces =>
      .error (.invalid ⟨.malformedLine (Text.ofList line) pieces.length, some position⟩)

/-- The records of some lines, the first of which has the given number. -/
def readLines (source : Option Text) : (number : Nat) → List (List Symbol) →
    Except Rejection (List Record)
  | _, [] => .ok []
  | number, line :: rest =>
      if line.isEmpty then
        readLines source (number + 1) rest
      else
        match readLine ⟨source, some number⟩ line with
        | .error rejection => .error rejection
        | .ok record =>
            match readLines source (number + 1) rest with
            | .error rejection => .error rejection
            | .ok records => .ok (record :: records)

/-- The records of a table text, in the order of its lines. -/
def parse (text : Text) (source : Option Text) : Except Rejection (List Record) :=
  readLines source 1 (Text.lines text.toList)

end Table

end MessageTables
