import MessageTables.LookupModule.Program
import MessageTables.Text.Lines
import MessageTables.Text.Numeral
import MessageTables.Text.Quoted

/-!
# Reading a program

`Program.read` reads the text of a module. It knows nothing of how modules are
written, only the language: comments and the documentation come first, then the
imported feature and the exports, then the procedures, with empty lines between
them. A procedure is a definition with one parameter, whose only statement
compares this parameter with constants, case by case; each case returns a constant
or nothing, or raises the error that the parameter is no key. Texts that say
anything else are not read, and types are read over.
-/

namespace MessageTables

/-- What stands in a line between a beginning and an ending. -/
def between? (beginning ending line : List Symbol) : Option (List Symbol) :=
  match beginning.isPrefixOf? line with
  | none => none
  | some rest => ending.isSuffixOf? rest

namespace Literal

/-- Reads a constant that fills its text: a quoted text or a numeral. -/
def read (written : List Symbol) : Option Literal :=
  match Text.unquote written with
  | some value => some (text (Text.ofList value))
  | none =>
      match Text.readNumeral written with
      | some value => some (number value)
      | none => none

end Literal

namespace Reaction

/-- Reads the statement of a case, given the parameter of the procedure. -/
def read (parameter line : List Symbol) : Option Reaction :=
  match between? (Text.toList "            return ") [] line with
  | some returned =>
      if returned = Text.toList "None" then some returnsNothing
      else (Literal.read returned).map returns
  | none =>
      match between? (Text.toList "            raise KeyError(") (Text.toList ")") line with
      | some key => if key = parameter then some raisesUnknownKey else none
      | none => none

end Reaction

namespace Procedure

/-- Whether some symbols are a name. -/
def isName (symbols : List Symbol) : Bool :=
  match symbols with
  | [] => false
  | first :: _ => !first.isDigit && symbols.all fun symbol => symbol.isAlphanum || symbol = '_'

/-- Whether some symbols are types with bars between them, and perhaps spaces around these. -/
def isType (symbols : List Symbol) : Bool :=
  (symbols.splitOn (Symbol.char '|')).all fun piece =>
    isName ((piece.dropWhile (· = Symbol.char ' ')).reverse.dropWhile (· = Symbol.char ' ')).reverse

/-- What stands before the first occurrence of a mark, and behind it. -/
def cutAt? (mark : Symbol) (symbols : List Symbol) : Option (List Symbol × List Symbol) :=
  match symbols.dropWhile (· ≠ mark) with
  | [] => none
  | _ :: rest => some (symbols.takeWhile (· ≠ mark), rest)

/-- Reads the line that opens a procedure: its name and its parameter. -/
def readDefinition (line : List Symbol) : Option (List Symbol × List Symbol) := do
  let signature ← between? (Text.toList "def ") (Text.toList ":") line
  let (name, rest) ← cutAt? '(' signature
  let (parameter, rest) ← cutAt? ':' rest
  let (parameterType, rest) ← cutAt? ')' rest
  let answerType ← between? (Text.toList " -> ") [] rest
  if isName name && isName parameter && isType parameterType && isType answerType then
    return (name, parameter)
  else none

/-- Reads cases, each of two lines; nothing may follow a case for every argument. -/
def readCases (parameter : List Symbol) :
    List (List Symbol) → Option (List MatchCase × Option Reaction)
  | [] => some ([], none)
  | [_] => none
  | first :: second :: rest => do
      let pattern ← between? (Text.toList "        case ") (Text.toList ":") first
      let reaction ← Reaction.read parameter second
      if pattern = Text.toList "_" then
        if rest = [] then return ([], some reaction) else none
      else
        let literal ← Literal.read pattern
        let (cases, otherwise) ← readCases parameter rest
        return (⟨literal, reaction⟩ :: cases, otherwise)

/-- Reads the lines of a procedure. -/
def read : List (List Symbol) → Option Procedure
  | definition :: statement :: first :: rest => do
      let (name, parameter) ← readDefinition definition
      let subject ← between? (Text.toList "    match ") (Text.toList ":") statement
      if subject = parameter then
        let (cases, otherwise) ← readCases parameter (first :: rest)
        return ⟨.ofList name, .ofList parameter, cases, otherwise⟩
      else none
  | _ => none

end Procedure

namespace Program

/-- The rows of lines between empty lines. -/
def blocks (lines : List (List Symbol)) : List (List (List Symbol)) :=
  (lines.splitOnP List.isEmpty).filter (!·.isEmpty)

/-- Reads a comment line. -/
def readComment (line : List Symbol) : Option Text :=
  (between? (Text.toList "#") [] line).map .ofList

/-- Reads the line of the exported names. -/
def readExports (line : List Symbol) : Option (List Text) := do
  let inside ← between? (Text.toList "__all__ = [") (Text.toList "]") line
  (inside.splitOn (Symbol.char ',')).mapM fun written =>
    (Text.unquote (written.dropWhile (· = Symbol.char ' '))).map .ofList

/-- Reads the text of a module. -/
def read (written : Text) : Option Program := do
  match blocks (Text.lines written.toList) with
  | heading :: [feature] :: [exported] :: definitions =>
      if feature = Text.toList "from __future__ import annotations" then
        let documentation ← Text.unquote (← heading.getLast?)
        return {
          comments := ← heading.dropLast.mapM readComment
          documentation := .ofList documentation
          exports := ← readExports exported
          procedures := ← definitions.mapM Procedure.read }
      else none
  | _ => none

end Program

end MessageTables
