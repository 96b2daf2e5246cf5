import MessageTables.LookupModule.Program
import MessageTables.Table.Record
import MessageTables.Text.Lines

/-!
# Lookup modules

A lookup module answers three questions about the messages of a table: the name
of a code, the code of a name, and the module that decodes the messages of a
code. Each lookup is a list of clauses in table order, so that the first row
counts when a code or a name repeats, and an ending for everything else.

`LookupModule.ofRecords` is the module of a table. How it is written is in the file
beside this one, and what its text means as a program in the others.
-/

namespace MessageTables

/-- The answer to one argument of a lookup. -/
structure Clause where
  pattern : Literal
  answer : Literal
  deriving DecidableEq, Repr

/-- The three lookups. -/
inductive Lookup where
  | messageType
  | messageCode
  | decoder
  deriving DecidableEq, Repr

/-- What a lookup does with an argument that no clause has. -/
inductive Ending where
  | nothing
  | unknownKey
  deriving DecidableEq, Repr

namespace Lookup

/-- The lookups in the order a module defines them. -/
def all : List Lookup :=
  [messageType, messageCode, decoder]

/-- The name a lookup is called by. -/
def symbol : Lookup → Text
  | messageType => "msg_type"
  | messageCode => "msg_code"
  | decoder => "decoder_for"

/-- The name of a lookup's argument. -/
def parameter : Lookup → Text
  | messageType => "code"
  | messageCode => "name"
  | decoder => "code"

/-- The type of a lookup's argument. -/
def parameterType : Lookup → Text
  | messageType => "int"
  | messageCode => "str"
  | decoder => "int"

/-- The type of a lookup's answer. -/
def answerType : Lookup → Text
  | messageType => "str | None"
  | messageCode => "int"
  | decoder => "str"

/-- Only the name of a code may be missing. -/
def ending : Lookup → Ending
  | messageType => .nothing
  | messageCode => .unknownKey
  | decoder => .unknownKey

/-- The clause that a record gives a lookup. -/
def clause (lookup : Lookup) (record : Record) : Clause :=
  match lookup with
  | messageType => ⟨.number record.code, .text record.name⟩
  | messageCode => ⟨.text record.name, .number record.code⟩
  | decoder => ⟨.number record.code, .text record.decoder⟩

end Lookup

/--
A module of lookups: the table its first lines name, its documentation, the names it exports
and its clauses.
-/
structure LookupModule where
  origin : Text
  documentation : Text
  exports : List Text
  messageTypes : List Clause
  messageCodes : List Clause
  decoders : List Clause
  deriving DecidableEq, Repr

namespace LookupModule

/-- The clauses of one lookup. -/
def clauses (program : LookupModule) : Lookup → List Clause
  | .messageType => program.messageTypes
  | .messageCode => program.messageCodes
  | .decoder => program.decoders

/-- The documentation of the module with the given name. -/
def documentationOf (moduleName : Text) : Text :=
  "Message code mappings for " ++ moduleName ++ "."

/--
The module of a table's records. A line break in the table's path is no line break in the
module.
-/
def ofRecords (moduleName : Text) (records : List Record) (source : Text) : LookupModule where
  origin := Text.ofList (Text.joinBreaks source.toList)
  documentation := documentationOf moduleName
  exports := Lookup.all.map Lookup.symbol
  messageTypes := records.map Lookup.messageType.clause
  messageCodes := records.map Lookup.messageCode.clause
  decoders := records.map Lookup.decoder.clause

end LookupModule

end MessageTables
