import MessageTables.CommandLine.Options

/-!
# Help

The texts that tell how the program is used: the usage at each place, and the
list of the options accepted there.
-/

namespace MessageTables

namespace OptionName

/-- The lines about an option in the help. -/
def helpLines : OptionName → List Text
  | help => ["  -h, --help            show this help message and exit"]
  | version => ["  --version             show program's version number and exit"]
  | verbose => ["  -v, --verbose         Verbose output"]
  | debug => ["  --debug               Debug output"]
  | sourceDirectory =>
      ["  -s SOURCE_DIR, --source-dir SOURCE_DIR",
       "                        Directory searched for *.csv tables (default:",
       "                        $MSGCODEGEN_SOURCE_DIR or src)"]
  | outputDirectory =>
      ["  -o OUTPUT_DIR, --output-dir OUTPUT_DIR",
       "                        Directory for generated modules (default:",
       "                        $MSGCODEGEN_OUTPUT_DIR or the source directory)"]
  | force => ["  -f, --force           Regenerate modules even if they are up to date"]
  | keepGoing => ["  -k, --keep-going      Continue with other tables after a failure"]

end OptionName

namespace Command

/-- The line about a command in the help. -/
def helpLine : Command → Text
  | generate => "    generate            Generate modules for out-of-date tables"
  | clean => "    clean               Remove generated modules"
  | list => "    list                List tables and the state of their modules"

end Command

namespace Scope

/-- The name by which the program speaks at a place. -/
def programName : Scope → Text
  | program => "msgcodegen"
  | command chosen => "msgcodegen " ++ chosen.word

/-- All commands as one word. -/
def commandChoice : Text :=
  "\x7b" ++ Text.intercalate "," (Command.all.map Command.word) ++ "\x7d"

/-- The lines that show how the program is called. -/
def usageLines : Scope → List Text
  | program =>
      ["usage: msgcodegen [-h] [--version] [-v] [--debug] [-s SOURCE_DIR]",
       "                  [-o OUTPUT_DIR] [-f] [-k]",
       "                  " ++ commandChoice ++ " ..."]
  | command .generate =>
      ["usage: msgcodegen generate [-h] [-v] [--debug] [-s SOURCE_DIR] [-o OUTPUT_DIR]",
       "                           [-f] [-k]"]
  | command .clean =>
      ["usage: msgcodegen clean [-h] [-v] [--debug] [-s SOURCE_DIR] [-o OUTPUT_DIR]"]
  | command .list =>
      ["usage: msgcodegen list [-h] [-v] [--debug] [-s SOURCE_DIR] [-o OUTPUT_DIR]"]

/-- The lines of the help about a place's options. -/
def optionLines (scope : Scope) : List Text :=
  "options:" :: scope.options.flatMap OptionName.helpLines

/-- The lines of the help about the commands. -/
def commandLines : List Text :=
  "positional arguments:" :: ("  " ++ commandChoice) :: "                        Commands" ::
    Command.all.map Command.helpLine

/-- The lines of the help at a place, an empty line between its parts. -/
def helpLines (scope : Scope) : List Text :=
  match scope with
  | program =>
      List.intercalate [""]
        [scope.usageLines, ["Generate message code mapping modules from CSV tables."],
          commandLines, scope.optionLines,
          ["Run 'msgcodegen <command> --help' for command-specific help."]]
  | command _ => List.intercalate [""] [scope.usageLines, scope.optionLines]

end Scope

end MessageTables
