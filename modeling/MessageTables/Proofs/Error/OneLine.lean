import MessageTables.Error.Diagnostic
import MessageTables.Error.Failure
import MessageTables.Proofs.Path.Plain
import MessageTables.Proofs.Table.FirstFault
import MessageTables.Proofs.Text.OneLine

/-!
# Errors on one line

An error is worded with words of its own, numerals, quoted texts and paths. What comes
from a table is quoted, and so are the paths in errors of the system, so only the paths
that stand in a message as they are can end its line.
-/

namespace MessageTables

open Text (onOneLine_quote onOneLine_numeral)

namespace Path

variable {path : Path} {part : Part}

/-- Whether all parts of a path are on one line. -/
def OnOneLine (path : Path) : Prop :=
  ∀ part ∈ path.parts, Text.OnOneLine part.text

instance (path : Path) : Decidable path.OnOneLine :=
  inferInstanceAs (Decidable (∀ part ∈ path.parts, _))

theorem OnOneLine.text (one : path.OnOneLine) : Text.OnOneLine path.text := by
  intro character inside
  rcases mem_text inside with rfl | rfl | ⟨part, held, within⟩
  · decide
  · decide
  · exact one part held character within

theorem OnOneLine.child (one : path.OnOneLine) (other : Text.OnOneLine part.text) :
    (path.child part).OnOneLine := by
  intro held among
  rcases List.mem_append.mp among with above | last
  · exact one held above
  · rw [List.mem_singleton.mp last]
    exact other

theorem OnOneLine.name (one : path.OnOneLine) : Text.OnOneLine path.name := by
  rw [Path.name]
  split
  · decide
  · rename_i part last
    exact one part (List.mem_of_getLast? last)

end Path

/-! ## Errors of tables -/

section Tables

variable {position : Position} {line : List Symbol} {error : TableError} {table output : Path}

/-- What is said of a line at fault is on one line, whatever is in the line. -/
theorem Table.Refuses.onOneLine_message (refuses : Table.Refuses position line (.invalid error)) :
    Text.OnOneLine error.fault.message := by
  cases refuses with
  | malformed =>
      have counted : Text.OnOneLine "expected 3 fields (code,name,proto), got " := by decide
      have separator : Text.OnOneLine ": " := by decide
      exact ((counted.append (onOneLine_numeral _)).append separator).append (onOneLine_quote _)
  | invalidCode =>
      have named : Text.OnOneLine "invalid message code: " := by decide
      exact named.append (onOneLine_quote _)

theorem Position.onOneLine_text {source : Text} (one : Text.OnOneLine source) (number : Int) :
    Text.OnOneLine (Position.text ⟨some source, some number⟩) := by
  have colon : Text.OnOneLine ":" := by decide
  exact (one.append colon).append (onOneLine_numeral number)

/-! ## Errors of the system -/

theorem SystemError.briefText_ofRefusal (code : ErrorCode) (paths : List Text) :
    (ofRefusal code paths).briefText = code.description := by
  cases code <;> rfl

/-! ## Errors of generating -/

namespace GenerationError

variable {position : Option Position} {message : Text}

theorem onOneLine_locate (positioned : ∀ place, position = some place → Text.OnOneLine place.text)
    (tableOne : table.OnOneLine) (one : Text.OnOneLine message) :
    Text.OnOneLine (locate table position message) := by
  have separator : Text.OnOneLine ": " := by decide
  cases position with
  | none => exact (tableOne.text.append separator).append one
  | some place => exact ((positioned place rfl).append separator).append one

theorem onOneLine_description (code : ErrorCode) : Text.OnOneLine code.description := by
  cases code <;> decide

theorem onOneLine_unreadable (tableOne : table.OnOneLine) (code : ErrorCode) (path : Text) :
    Text.OnOneLine (⟨table, .unreadable (.ofCode code path)⟩ : GenerationError).text := by
  have begins : Text.OnOneLine "cannot read table: " := by decide
  refine onOneLine_locate nofun tableOne (begins.append ?_)
  rw [SystemError.ofCode, SystemError.briefText_ofRefusal]
  exact onOneLine_description code

theorem onOneLine_unwritable (tableOne : table.OnOneLine) (outputOne : output.OnOneLine)
    {reason : SystemError} (one : Text.OnOneLine reason.briefText) :
    Text.OnOneLine (⟨table, .unwritable output reason⟩ : GenerationError).text := by
  have begins : Text.OnOneLine "cannot write " := by decide
  have separator : Text.OnOneLine ": " := by decide
  exact onOneLine_locate nofun tableOne
    (((begins.append outputOne.text).append separator).append one)

theorem onOneLine_invalidTable (tableOne : table.OnOneLine) {number : Int}
    (refuses : Table.Refuses ⟨some table.text, some number⟩ line (.invalid error)) :
    Text.OnOneLine (⟨table, .invalidTable error⟩ : GenerationError).text := by
  refine onOneLine_locate ?_ tableOne refuses.onOneLine_message
  intro place positioned
  have here : error.position = some place := positioned
  rw [refuses.position_eq] at here
  cases here
  exact Position.onOneLine_text tableOne.text number

end GenerationError

end Tables

/-! ## Failures -/

namespace Failure

/-- The one line that a user is told of a failure. -/
def userText : Failure → Text
  | system error => (Diagnostic.system error).userText
  | invalidTable error => (Diagnostic.table (.table error)).userText
  | generation error => (Diagnostic.table (.generation error)).userText
  | failure => failure.className ++ ": " ++ failure.text

theorem onOneLine_className (kind : SystemErrorClass) : Text.OnOneLine kind.name := by
  cases kind <;> decide

theorem onOneLine_nullByte : Text.OnOneLine nullByte.userText := by
  decide

theorem onOneLine_oversizedCode (count : Nat) : Text.OnOneLine (oversizedCode count).userText := by
  have begins : Text.OnOneLine ("ValueError" ++ ": ") := by decide
  have limit : Text.OnOneLine
      "Exceeds the limit (4300 digits) for integer string conversion: value has " := by decide
  have ends : Text.OnOneLine
      " digits; use sys.set_int_max_str_digits() to increase the limit" := by decide
  exact begins.append ((limit.append (onOneLine_numeral count)).append ends)

/-- Stray bytes are told of by their place, and a single one by its code. -/
theorem onOneLine_unencodable (text : Text) : Text.OnOneLine (unencodable text).userText := by
  have begins : Text.OnOneLine ("UnicodeEncodeError" ++ ": ") := by decide
  have encoder : Text.OnOneLine "'utf-8' codec can't encode " := by decide
  have ends : Text.OnOneLine ": surrogates not allowed" := by decide
  refine begins.append ((encoder.append ?_).append ends)
  split
  · have opens : Text.OnOneLine "character '" := by decide
    have closes : Text.OnOneLine "' in position " := by decide
    exact ((opens.append (Text.onOneLine_of_printable (Text.printable_codePointEscape _))).append
      closes).append (onOneLine_numeral _)
  · have opens : Text.OnOneLine "characters in position " := by decide
    have dash : Text.OnOneLine "-" := by decide
    exact ((opens.append (onOneLine_numeral _)).append dash).append (onOneLine_numeral _)

theorem onOneLine_system (code : ErrorCode) (path : Text) :
    Text.OnOneLine (system (.ofCode code path)).userText := by
  have named := onOneLine_className (SystemError.ofCode code path).errorClass
  have separator : Text.OnOneLine ": " := by decide
  have opens : Text.OnOneLine "[Errno " := by decide
  have closes : Text.OnOneLine "] " := by decide
  have described := GenerationError.onOneLine_description code
  have worded : Text.OnOneLine (SystemError.ofCode code path).text :=
    ((((opens.append (onOneLine_numeral _)).append closes).append described).append
      separator).append (onOneLine_quote path)
  exact (named.append separator).append worded

theorem onOneLine_ofAccess (path : Text) (error : AccessError) :
    Text.OnOneLine (ofAccess path error).userText := by
  cases error with
  | code code => exact onOneLine_system code path
  | nullByte => exact onOneLine_nullByte

end Failure

end MessageTables
