import MessageTables.Proofs.Text.Numeral
import MessageTables.Proofs.Text.Quoted

/-!
# Texts on one line

Readers of a log do not agree on what ends a line: besides the two characters that the
library takes for line breaks there are eight more that some of them break lines at. A
text without any of the ten is one line for all of them.

No boundary is printable, so quoted texts and numerals are on one line whatever they are
written for. What is put together of texts on one line is on one line.
-/

namespace MessageTables.Text

/-- The code points of the characters that some reader of texts ends lines at. -/
def boundaries : List Nat :=
  [0x0A, 0x0B, 0x0C, 0x0D, 0x1C, 0x1D, 0x1E, 0x85, 0x2028, 0x2029]

/-- Whether some reader of texts ends a line at a character. -/
def isBoundary (character : Symbol) : Bool :=
  boundaries.contains character.code

/-- Whether a text is one line for all readers. -/
def OnOneLine (text : Text) : Prop :=
  ∀ character ∈ text.toList, isBoundary character = false

instance (text : Text) : Decidable (OnOneLine text) :=
  decidable_of_iff (text.toList.all (!isBoundary ·)) (by simp [OnOneLine])

variable {text first second : Text} {characters : List Symbol}

theorem isBoundary_of_isPrintable {character : Symbol} (printable : isPrintable character = true) :
    isBoundary character = false := by
  have hidden : ∀ code ∈ boundaries, inRanges nonPrintableRanges code = true := by
    decide +kernel
  rw [Bool.eq_false_iff]
  intro boundary
  rw [isPrintable, hidden _ (List.contains_iff_mem.mp boundary)] at printable
  cases printable

theorem onOneLine_of_printable (printable : Printable characters) :
    OnOneLine (Text.ofList characters) := by
  intro character inside
  rw [Text.toList_ofList] at inside
  exact isBoundary_of_isPrintable (printable character inside)

theorem OnOneLine.append (one : OnOneLine first) (other : OnOneLine second) :
    OnOneLine (first ++ second) := by
  intro character inside
  rw [Text.toList_append, List.mem_append] at inside
  rcases inside with before | behind
  · exact one character before
  · exact other character behind

theorem onOneLine_quote (text : Text) : OnOneLine (quote text) :=
  onOneLine_of_printable (printable_quoteCharacters text.toList)

theorem onOneLine_numeral (value : Int) : OnOneLine (numeral value) :=
  onOneLine_of_printable (printable_numeralCharacters value)

end MessageTables.Text
