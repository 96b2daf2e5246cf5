import MessageTables.CommandLine.Words

/-!
# Reading a command line

Options are read from left to right up to the first other word, which is the
command; the options behind it are read as the command's own and count after the
ones before it. Without a command the program generates.

All words are first looked at as words of the program, so that a cut option which
could be several of the program's options is refused wherever it stands. After
that the first word that is wrong, or that asks for help or for the version, ends
the reading. Words that nothing is known of are only counted in the end.
-/

namespace MessageTables

/-- Why a command line is not followed: it asks for help or the version, or it is wrong. -/
inductive Halt where
  | help (scope : Scope)
  | version
  | misuse (scope : Scope) (misuse : Misuse)
  deriving DecidableEq, Repr

/-- A command and the settings it is run with. -/
structure Request where
  command : Command
  settings : Settings
  deriving DecidableEq, Repr

namespace Settings

/-- The settings after one more option. -/
def apply (scope : Scope) (settings : Settings) : Directive → Except Halt Settings
  | .help => .error (.help scope)
  | .version => .error .version
  | .verbose => .ok { settings with verbose := true }
  | .debug => .ok { settings with debug := true }
  | .sourceDirectory path => .ok { settings with sourceDirectory := some path }
  | .outputDirectory path => .ok { settings with outputDirectory := some path }
  | .force => .ok { settings with force := true }
  | .keepGoing => .ok { settings with keepGoing := true }

/-- The settings after some more options. -/
def applyAll (scope : Scope) (settings : Settings) (directives : List Directive) :
    Except Halt Settings :=
  directives.foldlM (apply scope) settings

end Settings

namespace CommandLine

/-- A value that is attached to its option; two hyphens alone are no value. -/
def attachedValue (attached : List Symbol) : Text :=
  if Text.ofList attached = "--" then "" else .ofList attached

/-- The options of one word, in order, and perhaps a last one whose value is in the next word. -/
structure WordOptions where
  directives : List Directive
  open? : Option OptionName
  deriving DecidableEq, Repr

/-- An option to which nothing is attached. -/
def bareOption (option : OptionName) : WordOptions :=
  if option.takesValue then ⟨[], some option⟩ else ⟨[option.directive ""], none⟩

/--
The options of a word, from one that has something attached: its value if it has
one, or more short options behind a short one.
-/
def attachedOptions (scope : Scope) (option : OptionName) (isShort : Bool) :
    List Symbol → Except Misuse WordOptions
  | [] =>
      if option.takesValue then .ok ⟨[option.directive ""], none⟩
      else .error (.ignoredValue option "")
  | letter :: rest =>
      if option.takesValue then
        .ok ⟨[option.directive (attachedValue (letter :: rest))], none⟩
      else if isShort then
        match scope.option? (Text.ofList ['-', letter]) with
        | none => .error (.ignoredValue option (Text.ofList (letter :: rest)))
        | some next =>
            let others :=
              if rest.isEmpty then .ok (bareOption next) else attachedOptions scope next true rest
            match others with
            | .error misuse => .error misuse
            | .ok others =>
                .ok { others with directives := option.directive "" :: others.directives }
      else .error (.ignoredValue option (Text.ofList (letter :: rest)))

/-- The options of a word. -/
def wordOptions (scope : Scope) (option : OptionName) (isShort : Bool) :
    Option (List Symbol) → Except Misuse WordOptions
  | none => .ok (bareOption option)
  | some attached => attachedOptions scope option isShort attached

/--
What has been read of a command line: the settings, the words nothing is known of, and the
words left.
-/
structure Progress where
  settings : Settings
  unknown : List Text
  rest : List Text
  deriving DecidableEq, Repr

/--
Reads options up to the first other word, or through such words if there is no command to
come.
-/
def readOptions (scope : Scope) (settings : Settings) (unknown : List Text) :
    List (Text × Word) → Except Halt Progress
  | [] => .ok ⟨settings, unknown, []⟩
  | (text, .unknown) :: rest => readOptions scope settings (unknown ++ [text]) rest
  | (_, .option option isShort attached) :: rest =>
      match wordOptions scope option isShort attached with
      | .error misuse => .error (.misuse scope misuse)
      | .ok ⟨directives, none⟩ =>
          match settings.applyAll scope directives with
          | .error halt => .error halt
          | .ok settings => readOptions scope settings unknown rest
      | .ok ⟨directives, some last⟩ =>
          match rest with
          | (value, .plain) :: rest =>
              match settings.applyAll scope (directives ++ [last.directive value]) with
              | .error halt => .error halt
              | .ok settings => readOptions scope settings unknown rest
          | _ => .error (.misuse scope (.missingValue last))
  | (text, _) :: rest =>
      match scope with
      | .program => .ok ⟨settings, unknown, text :: rest.map Prod.fst⟩
      | .command _ => readOptions scope settings (unknown ++ [text]) rest

/-- A request, if there are no words that nothing is known of. -/
def request (command : Command) (settings : Settings) (unknown : List Text) :
    Except Halt Request :=
  if unknown.isEmpty then .ok ⟨command, settings⟩
  else .error (.misuse .program (.unrecognized unknown))

/-- What some words are at a place. -/
def classify (scope : Scope) (words : List Text) : Except Halt (List (Text × Word)) :=
  (Word.readAll scope words).mapError (.misuse scope)

/-- Reads a command line. -/
def parse (words : List Text) : Except Halt Request := do
  let before ← readOptions .program .initial [] (← classify .program words)
  match before.rest with
  | [] => request .generate before.settings before.unknown
  | word :: rest =>
      if word = "--" ∧ rest = [] then
        request .generate before.settings (before.unknown ++ [word])
      else
        match Command.ofWord? word with
        | none => throw (.misuse .program (.unknownCommand word))
        | some command =>
            let scope := Scope.command command
            let behind ← readOptions scope before.settings before.unknown (← classify scope rest)
            request command behind.settings behind.unknown

end CommandLine

end MessageTables
