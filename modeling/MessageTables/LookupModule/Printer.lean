import MessageTables.LookupModule.Basic
import MessageTables.Text.Numeral
import MessageTables.Text.Quoted

/-!
# The text of a lookup module

A module is written line by line, each line ended by a line feed: two comment
lines that name the table, the documentation, the imported feature, the exports,
and the three lookups, each after two empty lines. Texts are quoted and numbers
are numerals, so nothing that comes from the table leaves its line.
-/

namespace MessageTables

namespace Literal

/-- A constant as it is written. -/
def characters : Literal → List Symbol
  | number value => Text.numeralCharacters value
  | text value => Text.quoteCharacters value.toList

end Literal

namespace Clause

def caseBeginning : List Symbol := ("        case " : Text).toList

def caseEnding : List Symbol := (":" : Text).toList

def answerBeginning : List Symbol := ("            return " : Text).toList

/-- The line that an argument is compared with. -/
def caseLine (pattern : List Symbol) : List Symbol :=
  caseBeginning ++ pattern ++ caseEnding

/-- The line of an answer. -/
def answerLine (answer : List Symbol) : List Symbol :=
  answerBeginning ++ answer

/-- The two lines of a clause. -/
def lines (clause : Clause) : List (List Symbol) :=
  [caseLine clause.pattern.characters, answerLine clause.answer.characters]

end Clause

namespace Lookup

/-- The line that opens a lookup. -/
def definitionLine (lookup : Lookup) : List Symbol :=
  ("def " ++ lookup.symbol ++ "(" ++ lookup.parameter ++ ": " ++ lookup.parameterType ++
    ") -> " ++ lookup.answerType ++ ":").toList

/-- The line that opens the clauses of a lookup. -/
def matchLine (lookup : Lookup) : List Symbol :=
  ("    match " ++ lookup.parameter ++ ":").toList

/-- The line for every argument that no clause has. -/
def otherwiseLine : List Symbol :=
  Clause.caseLine ("_" : Text).toList

/-- The line that ends a lookup. -/
def endingLine (lookup : Lookup) : List Symbol :=
  match lookup.ending with
  | .nothing => ("            return None" : Text).toList
  | .unknownKey => ("            raise KeyError(" ++ lookup.parameter ++ ")").toList

/-- The lines of a lookup with the given clauses. -/
def lines (lookup : Lookup) (clauses : List Clause) : List (List Symbol) :=
  [[], [], lookup.definitionLine, lookup.matchLine] ++
    clauses.flatMap Clause.lines ++ [otherwiseLine, lookup.endingLine]

end Lookup

namespace LookupModule

def noticeLine : List Symbol :=
  ("# This module contains message code mappings generated from" : Text).toList

def originBeginning : List Symbol := ("# " : Text).toList

def originEnding : List Symbol := (". DO NOT EDIT OR COMMIT THIS FILE!" : Text).toList

/-- The comment line that names the table. -/
def originLine (origin : List Symbol) : List Symbol :=
  originBeginning ++ origin ++ originEnding

def importLine : List Symbol :=
  ("from __future__ import annotations" : Text).toList

/-- An exported name as it is written. -/
def exportText (name : Text) : Text :=
  "\"" ++ name ++ "\""

def exportsBeginning : List Symbol := ("__all__ = [" : Text).toList

def exportsEnding : List Symbol := ("]" : Text).toList

/-- The line of the exported names. -/
def exportsLine (exports : List Text) : List Symbol :=
  exportsBeginning ++ (Text.intercalate ", " (exports.map exportText)).toList ++ exportsEnding

/-- The lines before the lookups. -/
def headerLines (program : LookupModule) : List (List Symbol) :=
  [noticeLine, originLine program.origin.toList,
    Text.quoteCharacters program.documentation.toList, [], importLine, [],
    exportsLine program.exports]

/-- The lines of a module. -/
def lines (program : LookupModule) : List (List Symbol) :=
  program.headerLines ++
    Lookup.all.flatMap fun lookup => lookup.lines (program.clauses lookup)

/-- A module as it is written. -/
def text (program : LookupModule) : Text :=
  Text.ofList (program.lines.flatMap (· ++ [Symbol.char '\n']))

/-- The text of the module of a table's records. -/
def render (moduleName : Text) (records : List Record) (source : Text) : Text :=
  (ofRecords moduleName records source).text

end LookupModule

end MessageTables
