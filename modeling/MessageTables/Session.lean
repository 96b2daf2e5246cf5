import MessageTables.Error.Failure
import MessageTables.FileSystem.Replacement
import MessageTables.Glob.Search

/-!
# Sessions

What a run works on and leaves behind: a tree of files, the permissions that new
files do not get, how searches treat links, a clock, the log and the lines
printed. An action answers or fails, and what it did before a failure stays done.

The clock is the row of its readings. Nothing is assumed of it, so times need
not pass. With each reading goes a draw of a name for a temporary file.

The log and the printed lines are texts. How stray bytes in them are shown is left
to whatever shows them.
-/

namespace MessageTables

/-- How much an entry of the log matters. -/
inductive Level where
  | debug
  | info
  | warning
  | error
  deriving DecidableEq, Repr

namespace Level

/-- The name of a level. -/
def name : Level → Text
  | debug => "DEBUG"
  | info => "INFO"
  | warning => "WARNING"
  | error => "ERROR"

/-- The levels in order. -/
def rank : Level → Nat
  | debug => 0
  | info => 1
  | warning => 2
  | error => 3

end Level

/-- The parts of the program that write to the log. -/
inductive Channel where
  | commands
  | batch
  | generation
  deriving DecidableEq, Repr

namespace Channel

/-- The name of a channel. -/
def name : Channel → Text
  | commands => "msgcodegen"
  | batch => "msgcodegen.runner"
  | generation => "msgcodegen.generators.msgcodes"

end Channel

/-- An entry of the log. -/
structure LogEntry where
  level : Level
  channel : Channel
  message : Text
  deriving DecidableEq, Repr

/-- The state of a run. -/
structure Session where
  tree : Tree
  /-- The permissions that new files and directories do not get. -/
  umask : Nat
  links : LinkRule
  clock : Nat → Timestamp
  /-- The draws of names for temporary files. -/
  draws : Nat → Draw
  /-- How often the clock has been read. -/
  readings : Nat
  log : List LogEntry
  printed : List Text

namespace Session

/-- A session in an empty tree. -/
def fresh (umask : Nat) (links : LinkRule) (clock : Nat → Timestamp) : Session where
  tree := .empty 0o700 (clock 0)
  umask
  links
  clock
  draws _ := .inOrder
  readings := 1
  log := []
  printed := []

/-- The tables below a directory, as a search finds them. -/
def findTables (session : Session) (source : Path) (suffix : String) : Except Failure (List Path) :=
  session.tree.findTables session.links source suffix

end Session

/-- What is done in a session, until it is done or fails. -/
abbrev Action := EStateM Failure Session

namespace Action

/-- Writes an entry to the log. -/
def record (level : Level) (channel : Channel) (message : Text) : Action Unit :=
  modify fun session => { session with log := session.log ++ [⟨level, channel, message⟩] }

/-- Prints a line. -/
def print (line : Text) : Action Unit :=
  modify fun session => { session with printed := session.printed ++ [line] }

/-- Reads the clock. -/
def now : Action Timestamp :=
  modifyGet fun session =>
    (session.clock session.readings, { session with readings := session.readings + 1 })

/-- Asks the tree about a path. -/
def ask (question : Tree → Path → Except AccessError α) (path : Path) : Action α := do
  match question (← get).tree path with
  | .ok answer => return answer
  | .error error => throw (.ofAccess path.text error)

/-- Does something to the tree, at one time. -/
def act (action : Timestamp → TreeAction α) : Action α := do
  let time ← now
  fun session =>
    match action time session.tree with
    | .ok answer tree => .ok answer { session with tree }
    | .error mishap tree => .error (.ofMishap mishap) { session with tree }

/-- The permissions of a new file. -/
def newFileMode (session : Session) : Nat :=
  0o666 &&& (0o777 ^^^ (session.umask &&& 0o777))

/-- The permissions of a new directory. -/
def newDirectoryMode (session : Session) : Nat :=
  0o777 ^^^ (session.umask &&& 0o777)

end Action

end MessageTables
