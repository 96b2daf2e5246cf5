import MessageTables.Error.Failure
import MessageTables.FileSystem.Access
import MessageTables.Text.Quoted

/-!
# Freshness

A file made from others is out of date when it is missing or when one of the
files it directly depends on is newer. A dependency that is missing, or that is
no file, makes nothing out of date. A dependency's own dependencies do not count.
-/

namespace MessageTables

/-- An entry of a graph of dependencies: a file or something without a file. -/
inductive Dependency where
  | abstract (dependencies : List Dependency)
  | file (path : Path) (dependencies : List Dependency)

/-- What is known of an entry. -/
inductive Status where
  | unknown
  | upToDate
  | outOfDate
  deriving DecidableEq, Repr

namespace Status

/-- The name of a status. -/
def name : Status → Text
  | unknown => "unknown"
  | upToDate => "uptodate"
  | outOfDate => "outofdate"

end Status

namespace Tree

/-- The time of a file's last change, absent when there is no such file. -/
def changeTime? (tree : Tree) (path : Path) : Except Failure (Option Timestamp) :=
  match tree.changeTime path with
  | .ok time => .ok (some time)
  | .error (.code .noEntry) => .ok none
  | .error error => .error (.ofAccess path.text error)

/--
Whether one of some dependencies is a file that changed later than a time. The first that
did ends the question.
-/
def someIsLater (tree : Tree) (time : Timestamp) : List Dependency → Except Failure Bool
  | [] => .ok false
  | .abstract _ :: rest => someIsLater tree time rest
  | .file path _ :: rest => do
      match ← tree.changeTime? path with
      | none => someIsLater tree time rest
      | some other => if other.isLater time then return true else someIsLater tree time rest

end Tree

namespace Dependency

/-- What a tree says of an entry. -/
def status (tree : Tree) : Dependency → Except Failure Status
  | abstract _ => .ok .unknown
  | file path dependencies => do
      match ← tree.changeTime? path with
      | none => return .outOfDate
      | some time =>
          if ← tree.someIsLater time dependencies then return .outOfDate else return .upToDate

/-- An entry for a file as it is shown to users. -/
def shownFile (path : Path) : Text :=
  "FileNode(" ++ Text.quote path.text ++ ")"

end Dependency

namespace Tree

/-- Whether a file made from a source is missing or older than the source. -/
def isStale (tree : Tree) (source target : Path) : Except Failure Bool := do
  let status ← Dependency.status tree (.file target [.file source []])
  return status = .outOfDate

end Tree

end MessageTables
