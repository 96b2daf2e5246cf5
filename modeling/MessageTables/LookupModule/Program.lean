import MessageTables.Value

/-!
# Programs

What the text of a module says: comments, documentation, exported names and
procedures. A procedure has one parameter and compares its argument with
constants, one after the other. The first constant that equals the argument
decides what is returned or raised; when there is none, a last case for every
argument decides, and without such a case nothing is returned.

A truth value equals the number one or zero, and a text never equals a number.
Procedures are called by name, and of several with one name the last counts.
-/

namespace MessageTables

/-- A constant in the text of a program. -/
inductive Literal where
  | number (value : Int)
  | text (value : Text)
  deriving DecidableEq, Repr

namespace Value

/-- Whether a value equals a constant. -/
def equals (value : Value) : Literal → Bool
  | .number other => value.number? = some other
  | .text other => value = .text other

end Value

/-- The outcome of a call. -/
inductive Answer where
  | value (literal : Literal)
  | nothing
  | unknownKey (argument : Value)
  deriving DecidableEq, Repr

/--
What a case does: it returns a constant or nothing, or raises the error that the argument is
no key.
-/
inductive Reaction where
  | returns (value : Literal)
  | returnsNothing
  | raisesUnknownKey
  deriving DecidableEq, Repr

namespace Reaction

/-- The outcome for an argument. -/
def answer (argument : Value) : Reaction → Answer
  | returns value => .value value
  | returnsNothing => .nothing
  | raisesUnknownKey => .unknownKey argument

end Reaction

/-- A constant and what is done with an argument that equals it. -/
structure MatchCase where
  pattern : Literal
  reaction : Reaction
  deriving DecidableEq, Repr

/--
A procedure: its name, its parameter, its cases and the case for every argument, if there is
one.
-/
structure Procedure where
  name : Text
  parameter : Text
  cases : List MatchCase
  otherwise : Option Reaction
  deriving DecidableEq, Repr

namespace Procedure

/-- What is done with an argument. -/
def reaction (procedure : Procedure) (argument : Value) : Reaction :=
  match procedure.cases.find? fun matchCase => argument.equals matchCase.pattern with
  | some matchCase => matchCase.reaction
  | none => procedure.otherwise.getD .returnsNothing

end Procedure

/-- What the text of a module says. -/
structure Program where
  comments : List Text
  documentation : Text
  exports : List Text
  procedures : List Procedure
  deriving DecidableEq, Repr

namespace Program

/-- The procedure that a name calls. -/
def procedure? (program : Program) (name : Text) : Option Procedure :=
  program.procedures.reverse.find? fun procedure => procedure.name = name

/-- The outcome of a call, if there is a procedure with the name. -/
def call (program : Program) (name : Text) (argument : Value) : Option Answer :=
  (program.procedure? name).map fun procedure =>
    (procedure.reaction argument).answer argument

end Program

end MessageTables
