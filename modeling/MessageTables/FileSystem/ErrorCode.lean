import MessageTables.Text.Basic

/-!
# Error codes of file access

The ways in which access to a tree of files fails, each with the number and the
description that the operating system gives it.
-/

namespace MessageTables

/-- Why access to a file failed. -/
inductive ErrorCode where
  | noEntry
  | denied
  | busy
  | alreadyExists
  | notDirectory
  | isDirectory
  | nameTooLong
  | linkLoop
  deriving DecidableEq, Repr

namespace ErrorCode

/-- The number of a code. -/
def number : ErrorCode → Nat
  | noEntry => 2
  | denied => 13
  | busy => 16
  | alreadyExists => 17
  | notDirectory => 20
  | isDirectory => 21
  | nameTooLong => 36
  | linkLoop => 40

/-- The description of a code. -/
def description : ErrorCode → Text
  | noEntry => "No such file or directory"
  | denied => "Permission denied"
  | busy => "Device or resource busy"
  | alreadyExists => "File exists"
  | notDirectory => "Not a directory"
  | isDirectory => "Is a directory"
  | nameTooLong => "File name too long"
  | linkLoop => "Too many levels of symbolic links"

end ErrorCode

/-- Why a path gives no access: an error of the tree, or a character that no path may hold. -/
inductive AccessError where
  | code (code : ErrorCode)
  | nullByte
  deriving DecidableEq, Repr

end MessageTables
