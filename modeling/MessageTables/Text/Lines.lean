import MessageTables.Text.Basic

/-!
# Line breaks

A line ends at a line feed, at a carriage return, or at a carriage return that
a line feed follows, which is one break. This file gives the three readings of
breaks that the rest of the library uses: `lines` cuts a text at its breaks,
`unifyBreaks` writes every break as a line feed, and `joinBreaks` writes every
run of break characters as one space, so that the text stays on one line.

Cutting does not see how a break was written: `lines (unifyBreaks text)` and
`lines text` are the same list.
-/

namespace MessageTables.Text

/-- The two characters that break a line. -/
def isBreak (character : Symbol) : Bool :=
  character = '\r' || character = '\n'

/-- The pieces of a text between its line breaks, one more than there are breaks. -/
def lines : List Symbol → List (List Symbol)
  | [] => [[]]
  | '\r' :: '\n' :: rest => [] :: lines rest
  | character :: rest =>
      if isBreak character then
        [] :: lines rest
      else
        match lines rest with
        | [] => [[character]]
        | line :: others => (character :: line) :: others

/-- The same text with a line feed for every break. -/
def unifyBreaks : List Symbol → List Symbol
  | [] => []
  | '\r' :: '\n' :: rest => '\n' :: unifyBreaks rest
  | character :: rest =>
      (if isBreak character then '\n' else character) :: unifyBreaks rest

/--
The text after a character that was a break, or was none, with one space for every run of
break characters.
-/
def joinBreaksAfter : (afterBreak : Bool) → List Symbol → List Symbol
  | _, [] => []
  | afterBreak, character :: rest =>
      if isBreak character then
        if afterBreak then joinBreaksAfter true rest else ' ' :: joinBreaksAfter true rest
      else
        character :: joinBreaksAfter false rest

/-- The same text with one space for every run of break characters. -/
def joinBreaks (text : List Symbol) : List Symbol :=
  joinBreaksAfter false text

theorem lines_ne_nil (text : List Symbol) : lines text ≠ [] := by
  fun_induction lines text <;> simp_all

theorem isBreak_iff {character : Symbol} :
    isBreak character = true ↔ character = '\r' ∨ character = '\n' := by
  simp [isBreak]

end MessageTables.Text
