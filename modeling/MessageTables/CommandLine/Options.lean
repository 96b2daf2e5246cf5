import MessageTables.Text.Basic

/-!
# Commands and options

The program has three commands. Each accepts some of the options, and the
options may also stand before the command, where all of them are accepted.
-/

namespace MessageTables

/-- What the program can be told to do. -/
inductive Command where
  | generate
  | clean
  | list
  deriving DecidableEq, Repr

namespace Command

/-- The commands in the order they are listed. -/
def all : List Command :=
  [generate, clean, list]

/-- The word for a command. -/
def word : Command → Text
  | generate => "generate"
  | clean => "clean"
  | list => "list"

/-- The command with the given word. -/
def ofWord? (word : Text) : Option Command :=
  all.find? fun command => command.word = word

end Command

/-- Where options stand: before a command, or behind one. -/
inductive Scope where
  | program
  | command (chosen : Command)
  deriving DecidableEq, Repr

/-- The options. -/
inductive OptionName where
  | help
  | version
  | verbose
  | debug
  | sourceDirectory
  | outputDirectory
  | force
  | keepGoing
  deriving DecidableEq, Repr

namespace OptionName

/-- The short spelling, if there is one, and the long one. -/
def spellings : OptionName → List Text
  | help => ["-h", "--help"]
  | version => ["--version"]
  | verbose => ["-v", "--verbose"]
  | debug => ["--debug"]
  | sourceDirectory => ["-s", "--source-dir"]
  | outputDirectory => ["-o", "--output-dir"]
  | force => ["-f", "--force"]
  | keepGoing => ["-k", "--keep-going"]

/-- An option with all its spellings. -/
def text (option : OptionName) : Text :=
  Text.intercalate "/" option.spellings

/-- Whether an option has a value. -/
def takesValue : OptionName → Bool
  | sourceDirectory => true
  | outputDirectory => true
  | _ => false

end OptionName

namespace Scope

/-- The options accepted at a place. -/
def options : Scope → List OptionName
  | program =>
      [.help, .version, .verbose, .debug, .sourceDirectory, .outputDirectory, .force, .keepGoing]
  | command .generate =>
      [.help, .verbose, .debug, .sourceDirectory, .outputDirectory, .force, .keepGoing]
  | command _ => [.help, .verbose, .debug, .sourceDirectory, .outputDirectory]

/-- The options accepted at a place under each of their spellings. -/
def spellings (scope : Scope) : List (Text × OptionName) :=
  scope.options.flatMap fun option => option.spellings.map fun spelling => (spelling, option)

/-- The option that a full spelling means at a place. -/
def option? (scope : Scope) (spelling : Text) : Option OptionName :=
  scope.spellings.lookup spelling

end Scope

/-- An option with its value. -/
inductive Directive where
  | help
  | version
  | verbose
  | debug
  | sourceDirectory (path : Text)
  | outputDirectory (path : Text)
  | force
  | keepGoing
  deriving DecidableEq, Repr

namespace OptionName

/-- The option with a value; only options that have one use it. -/
def directive (option : OptionName) (value : Text) : Directive :=
  match option with
  | help => .help
  | version => .version
  | verbose => .verbose
  | debug => .debug
  | sourceDirectory => .sourceDirectory value
  | outputDirectory => .outputDirectory value
  | force => .force
  | keepGoing => .keepGoing

end OptionName

/-- What the options say. -/
structure Settings where
  verbose : Bool
  debug : Bool
  sourceDirectory : Option Text
  outputDirectory : Option Text
  force : Bool
  keepGoing : Bool
  deriving DecidableEq, Repr

namespace Settings

/-- The settings when there are no options. -/
def initial : Settings :=
  ⟨false, false, none, none, false, false⟩

end Settings

end MessageTables
