import MessageTables.Error.Generation
import MessageTables.FileSystem.TreeAction

/-!
# Failures

What ends an operation on files before it is done. Errors of generating a module
are failures that a run over many tables can go on after; all others end it.
-/

namespace MessageTables

/-- What ends an operation. -/
inductive Failure where
  | system (error : SystemError)
  | nullByte
  | invalidTable (error : TableError)
  | oversizedCode (digitCount : Nat)
  | unencodable (text : Text)
  | generation (error : GenerationError)
  | invalidPattern
  | notImplemented
  deriving DecidableEq

namespace Failure

/-- The failure of an access to the path with the given text. -/
def ofAccess (path : Text) : AccessError → Failure
  | .code code => system (.ofCode code path)
  | .nullByte => nullByte

/-- The failure of an action on the tree. -/
def ofMishap : Mishap → Failure
  | .refused (.code code) paths => system (.ofRefusal code (paths.map Path.text))
  | .refused .nullByte _ => nullByte
  | .crowded => system .crowded
  | .unencodable text => unencodable text

/-- The failure of a table that gives no records. -/
def ofRejection : Rejection → Failure
  | .invalid error => invalidTable error
  | .oversizedCode digitCount => oversizedCode digitCount

/-- The name of a failure's class. -/
def className : Failure → Text
  | system error => error.errorClass.name
  | nullByte => "ValueError"
  | invalidTable error => error.classNames.headD ""
  | oversizedCode _ => "ValueError"
  | unencodable _ => "UnicodeEncodeError"
  | generation error => error.classNames.headD ""
  | invalidPattern => "ValueError"
  | notImplemented => "NotImplementedError"

/-- What is said of a text that cannot be encoded: where its first stray bytes in a row are. -/
def encodingText (text : Text) : Text :=
  let behind := text.toList.dropWhile (!·.isStray)
  let position : Nat := text.length - behind.length
  let place : Text :=
    match behind.takeWhile Symbol.isStray with
    | [stray] =>
        "character '" ++ .ofList (Text.codePointEscape stray) ++ "' in position " ++
          Text.numeral position
    | strays =>
        "characters in position " ++ Text.numeral position ++ "-" ++
          Text.numeral (position + strays.length - 1 : Nat)
  "'utf-8' codec can't encode " ++ place ++ ": surrogates not allowed"

/-- The wording of a failure. -/
def text : Failure → Text
  | system error => error.text
  | nullByte => "embedded null byte"
  | invalidTable error => error.text
  | oversizedCode digitCount =>
      "Exceeds the limit (4300 digits) for integer string conversion: value has " ++
        Text.numeral digitCount ++
        " digits; use sys.set_int_max_str_digits() to increase the limit"
  | unencodable text => encodingText text
  | generation error => error.text
  | invalidPattern => "Invalid pattern: '**' can only be an entire path component"
  | notImplemented => ""

end Failure

end MessageTables
