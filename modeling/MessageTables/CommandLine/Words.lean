import MessageTables.CommandLine.Options
import MessageTables.Text.DecimalDigit
import MessageTables.Text.Quoted

/-!
# Words of a command line

A word is an option, perhaps with something attached to it, or a word that looks
like an option and is none, or two hyphens alone, or any other word. Behind two
hyphens all words are plain.

A long option may be cut to a beginning that no other long option has, and
carries a value behind an equality sign. A short option carries whatever is
behind its letter; an equality sign directly behind the letter is dropped.
-/

namespace MessageTables

/-- What is wrong with a command line. -/
inductive Misuse where
  | ambiguous (word : Text) (matching : List Text)
  | missingValue (option : OptionName)
  | ignoredValue (option : OptionName) (value : Text)
  | unknownCommand (word : Text)
  | unrecognized (words : List Text)
  deriving DecidableEq, Repr

namespace Misuse

/-- The wording of a misuse. -/
def message : Misuse → Text
  | ambiguous word matching =>
      "ambiguous option: " ++ word ++ " could match " ++ Text.intercalate ", " matching
  | missingValue option => "argument " ++ option.text ++ ": expected one argument"
  | ignoredValue option value =>
      "argument " ++ option.text ++ ": ignored explicit argument " ++ Text.quote value
  | unknownCommand word =>
      "argument command: invalid choice: " ++ Text.quote word ++ " (choose from " ++
        Text.intercalate ", " (Command.all.map fun command => Text.quote command.word) ++ ")"
  | unrecognized words => "unrecognized arguments: " ++ Text.intercalate " " words

end Misuse

/-- A word of a command line. -/
inductive Word where
  | plain
  | separator
  | option (name : OptionName) (isShort : Bool) (attached : Option (List Symbol))
  | unknown
  deriving DecidableEq, Repr

namespace Word

/-- A word's part before the first equality sign, and the part behind it if there is one. -/
def cutAtEquals (word : List Symbol) : List Symbol × Option (List Symbol) :=
  match word.dropWhile (· ≠ Symbol.char '=') with
  | [] => (word, none)
  | _ :: value => (word.takeWhile (· ≠ Symbol.char '='), some value)

/--
Whether a text is a minus sign and decimal digits, perhaps with a point before the last of
them; a line feed may follow.
-/
def isNegativeNumber (word : List Symbol) : Bool :=
  match word with
  | '-' :: rest =>
      let rest := if rest.getLast? = some (Symbol.char '\n') then rest.dropLast else rest
      let fraction := rest.dropWhile Text.isDecimalDigit
      match fraction with
      | [] => !rest.isEmpty
      | '.' :: digits => !digits.isEmpty && digits.all Text.isDecimalDigit
      | _ => false
  | _ => false

/-- The word for something that looks like an option and is none. -/
def ofUnknown (word : List Symbol) : Word :=
  if isNegativeNumber word ∨ Symbol.char ' ' ∈ word then plain else unknown

/-- A word that begins with two hyphens and is no full spelling: the options it may be cut from. -/
def ofLong (scope : Scope) (word : List Symbol) : Except Misuse Word :=
  let (beginning, attached) := cutAtEquals word
  let candidates := scope.spellings.filter fun candidate =>
    beginning.isPrefixOf candidate.1.toList
  match candidates with
  | [] => .ok (ofUnknown word)
  | [(_, name)] => .ok (option name false attached)
  | candidates => .error (.ambiguous (Text.ofList word) (candidates.map Prod.fst))

/-- A word that begins with one hyphen and a letter behind it. -/
def ofShort (scope : Scope) (letter : Symbol) (rest : List Symbol) : Word :=
  match scope.option? (Text.ofList ['-', letter]) with
  | none => ofUnknown ('-' :: letter :: rest)
  | some name =>
      match rest with
      | '=' :: value => option name true (some value)
      | value => option name true (some value)

/-- What a word is at a place. -/
def read (scope : Scope) (text : Text) : Except Misuse Word :=
  match scope.option? text with
  | some name => .ok (option name (text.length = 2) none)
  | none =>
      match text.toList with
      | ['-', '-'] => .ok separator
      | '-' :: '-' :: rest => ofLong scope ('-' :: '-' :: rest)
      | '-' :: letter :: rest => .ok (ofShort scope letter rest)
      | _ => .ok plain

/-- What the words are at a place. -/
def readAll (scope : Scope) : List Text → Except Misuse (List (Text × Word))
  | [] => .ok []
  | text :: rest => do
      match ← read scope text with
      | separator => return (text, separator) :: rest.map fun text => (text, plain)
      | word => return (text, word) :: (← readAll scope rest)

end Word

end MessageTables
