import MessageTables.Error.Construction
import MessageTables.FileSystem.ErrorCode
import MessageTables.Value

/-!
# Errors of the operating system

An error of the operating system has a code, a reason and up to two paths; or it
is not coded, and is only a list of arguments. The code decides the class of the
error. Code and reason may be any value, absent ones included, because an error
can be made by hand.
-/

namespace MessageTables

/-- The classes of errors that operations of the system end with. -/
inductive SystemErrorClass where
  | general
  | permission
  | notFound
  | alreadyExists
  | notDirectory
  | isDirectory
  | wouldBlock
  | brokenPipe
  | childProcess
  | connectionAborted
  | connectionRefused
  | connectionReset
  | interrupted
  | processLookup
  | timeout
  deriving DecidableEq, Repr

namespace SystemErrorClass

/-- The name of a class. -/
def name : SystemErrorClass → Text
  | general => "OSError"
  | permission => "PermissionError"
  | notFound => "FileNotFoundError"
  | alreadyExists => "FileExistsError"
  | notDirectory => "NotADirectoryError"
  | isDirectory => "IsADirectoryError"
  | wouldBlock => "BlockingIOError"
  | brokenPipe => "BrokenPipeError"
  | childProcess => "ChildProcessError"
  | connectionAborted => "ConnectionAbortedError"
  | connectionRefused => "ConnectionRefusedError"
  | connectionReset => "ConnectionResetError"
  | interrupted => "InterruptedError"
  | processLookup => "ProcessLookupError"
  | timeout => "TimeoutError"

/-- The class of an error with the given number. -/
def ofNumber : Int → SystemErrorClass
  | 1 => permission
  | 2 => notFound
  | 3 => processLookup
  | 4 => interrupted
  | 10 => childProcess
  | 11 => wouldBlock
  | 13 => permission
  | 17 => alreadyExists
  | 20 => notDirectory
  | 21 => isDirectory
  | 32 => brokenPipe
  | 103 => connectionAborted
  | 104 => connectionReset
  | 108 => brokenPipe
  | 110 => timeout
  | 111 => connectionRefused
  | 114 => wouldBlock
  | 115 => wouldBlock
  | _ => general

/-- The class of an error with the given code. Only numbers have a class of their own. -/
def ofCode (code : Value) : SystemErrorClass :=
  match code.number? with
  | some number => ofNumber number
  | none => general

end SystemErrorClass

/--
An error of the operating system: without a code, or with a code, a reason and the paths
concerned.
-/
inductive SystemError where
  | uncoded (arguments : List Value)
  | coded (code reason : Value) (paths : List Value)
  deriving DecidableEq, Repr

namespace SystemError

/-- Whether a count fits in a machine word. -/
def fits (count : Int) : Bool :=
  -0x8000000000000000 ≤ count ∧ count < 0x8000000000000000

/--
The paths of an error with the given code. An operation that would block gives a count in
place of a path.
-/
def pathsOf (code path other : Value) : Except ConstructionError (List Value) :=
  match SystemErrorClass.ofCode code, path.number? with
  | .wouldBlock, some count => if fits count then .ok [] else .error .oversizedCount
  | _, _ => .ok (if path = .absent then [] else if other = .absent then [path] else [path, other])

/--
The error made of the given arguments: code, reason, path, a value without use and a
second path. It takes two arguments at least for an error to have a code.
-/
def ofArguments : List Value → Except ConstructionError SystemError
  | [code, reason] => .ok (coded code reason [])
  | [code, reason, path] => return coded code reason (← pathsOf code path .absent)
  | [code, reason, path, _] => return coded code reason (← pathsOf code path .absent)
  | [code, reason, path, _, other] => return coded code reason (← pathsOf code path other)
  | arguments => .ok (uncoded arguments)

/-- The error of an access that was about the paths with the given texts. -/
def ofRefusal (code : ErrorCode) (paths : List Text) : SystemError :=
  coded (.integer code.number) (.text code.description) (paths.map .text)

/-- The error of an access to the path with the given text. -/
def ofCode (code : ErrorCode) (path : Text) : SystemError :=
  ofRefusal code [path]

/-- The error of a directory in which no name is left for a temporary file. -/
def crowded : SystemError :=
  coded (.integer ErrorCode.alreadyExists.number) (.text "No usable temporary file name found") []

/-- The class of an error. -/
def errorClass : SystemError → SystemErrorClass
  | uncoded _ => .general
  | coded code _ _ => .ofCode code

/-- The reason alone, absent when the error has no code. -/
def reason : SystemError → Value
  | uncoded _ => .absent
  | coded _ reason _ => reason

/-- The wording of an error. -/
def text : SystemError → Text
  | uncoded arguments => Value.message arguments
  | coded code reason [] => "[Errno " ++ code.plain ++ "] " ++ reason.plain
  | coded code reason paths =>
      "[Errno " ++ code.plain ++ "] " ++ reason.plain ++ ": " ++
        Text.intercalate " -> " (paths.map Value.shown)

/-- The reason where the error gives one, else its whole wording. -/
def briefText (error : SystemError) : Text :=
  if error.reason.isVoid then error.text else error.reason.plain

end SystemError

end MessageTables
