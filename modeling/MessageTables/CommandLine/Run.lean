import MessageTables.Batch
import MessageTables.CommandLine.Help
import MessageTables.CommandLine.Parser
import MessageTables.Environment

/-!
# Running a command line

A command line that asks for help or is misused only prints. Otherwise the
directories come from the options, from the environment or from the defaults, in
this order, where an empty text counts as nothing; and the command is run. The
log is shown on the error stream from the level that the options ask for.

The exit status is one when something was not generated, and two when the
command line is misused.
-/

namespace MessageTables

/-- What a run shows: its exit status, or the failure that ended it, and the two streams. -/
structure Transcript where
  exit : Except Failure Nat
  output : Text
  errors : Text

namespace Settings

/-- The directory of the tables. -/
def source (settings : Settings) (environment : Environment) : Path :=
  let given := settings.sourceDirectory.filter (· ≠ Text.ofString "")
  .ofText ((given.or (environment.setting? "SOURCE_DIR")).getD "src")

/-- The directory of the modules. -/
def output (settings : Settings) (environment : Environment) : Path :=
  let given := settings.outputDirectory.filter (· ≠ Text.ofString "")
  match given.or (environment.setting? "OUTPUT_DIR") with
  | some directory => .ofText directory
  | none => settings.source environment

/-- How modules are generated. -/
def policy (settings : Settings) : Policy :=
  ⟨settings.force, settings.keepGoing⟩

/-- The lowest level of the log that is shown. -/
def level (settings : Settings) : Level :=
  if settings.debug then .debug else if settings.verbose then .info else .warning

/-- The line that shows an entry of the log, if it is shown. -/
def logLine? (settings : Settings) (entry : LogEntry) : Option Text :=
  if entry.level.rank < settings.level.rank then none
  else if settings.debug then
    some (entry.level.name ++ ": " ++ entry.channel.name ++ ": " ++ entry.message)
  else some (entry.level.name ++ ": " ++ entry.message)

end Settings

namespace CommandLine

/-- Some lines, each ended by a line feed. -/
def joinLines (lines : List Text) : Text :=
  Text.join (lines.map (· ++ "\n"))

/-- A number within a message. -/
def count (number : Nat) : Text :=
  Text.numeral number

/-- Generates modules: the exit status. -/
def runGenerate (policy : Policy) (source output : Path) : Action Nat := do
  if ← Action.ask (·.test Node.isDirectory) source then
    tryCatch (do
        let report ← Batch.generateAll .messageCodes policy source output
        Action.record .info .commands
          (count report.generated.length ++ " generated, " ++ count report.skipped.length ++
            " up to date, " ++ count report.failed.length ++ " failed")
        return if report.isOk then 0 else 1)
      fun failure => do
        match failure with
        | .generation error =>
            Action.record .error .commands error.text
            return 1
        | failure => throw failure
  else
    Action.record .error .commands ("Source directory not found: " ++ source.text)
    return 1

/-- Removes modules: the exit status. -/
def runClean (source output : Path) : Action Nat := do
  let removed ← Batch.clean .messageCodes source output
  Action.record .info .commands ("Removed " ++ count removed.length ++ " generated modules")
  return 0

/-- The line about a table in a list. -/
def listLine (table output : Path) (isStale : Bool) : Text :=
  table.text ++ " -> " ++ output.text ++
    (if isStale then " (out-of-date)" else " (up-to-date)")

/-- Lists tables and the state of their modules. -/
def listEach (output : Path) : List Path → Action Unit
  | [] => return ()
  | table :: tables => do
      let moduleFile := Generator.messageCodes.output table output
      let isStale ← Action.inspect (·.isStale table moduleFile)
      Action.print (listLine table moduleFile isStale)
      listEach output tables

/-- Lists all tables: the exit status. -/
def runList (source output : Path) : Action Nat := do
  let tables ← Action.findTables source Generator.messageCodes.inputSuffix
  listEach output tables
  return 0

/-- Does what is requested: the exit status. -/
def perform (request : Request) (environment : Environment) : Action Nat :=
  let source := request.settings.source environment
  let output := request.settings.output environment
  match request.command with
  | .generate => runGenerate request.settings.policy source output
  | .clean => runClean source output
  | .list => runList source output

/-- What a session shows in the end of what was added to it. -/
def transcript (settings : Settings) (before after : Session) (exit : Except Failure Nat) :
    Transcript where
  exit
  output := joinLines (after.printed.drop before.printed.length)
  errors := joinLines ((after.log.drop before.log.length).filterMap settings.logLine?)

/-- The version of the program. -/
def version : Text := "0.1.0"

/-- What is shown when a command line is not followed. -/
def haltTranscript : Halt → Transcript
  | .help scope => ⟨.ok 0, joinLines scope.helpLines, ""⟩
  | .version => ⟨.ok 0, joinLines [Scope.program.programName ++ " " ++ version], ""⟩
  | .misuse scope misuse =>
      ⟨.ok 2, "", joinLines (scope.usageLines ++
        [scope.programName ++ ": error: " ++ misuse.message])⟩

/-- Runs a command line in a session. -/
def run (words : List Text) (environment : Environment) (session : Session) :
    Transcript × Session :=
  match parse words with
  | .error halt => (haltTranscript halt, session)
  | .ok request =>
      match perform request environment session with
      | .ok exit after => (transcript request.settings session after (.ok exit), after)
      | .error failure after => (transcript request.settings session after (.error failure), after)

end CommandLine

end MessageTables
