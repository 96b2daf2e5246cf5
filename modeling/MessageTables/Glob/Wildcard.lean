import MessageTables.Text.Basic

/-!
# Wildcards

A wildcard describes texts: a star stands for any text, a question mark for any
character, a set in brackets for one of its characters, and any other character
for itself.

`describes` is the meaning of a wildcard. Followed literally it tries every place
a star may end at, again and again. `table` does so once: it finds for every end
of a text whether the pieces describe it, from the last piece to the first, and
`accepts` is its first entry. `accepts_eq_describes` is the agreement of the two.
-/

namespace MessageTables

/-- A member of a set: a character, or the range between two. -/
inductive SetMember where
  | single (character : Symbol)
  | range (first last : Symbol)
  deriving DecidableEq, Repr

namespace SetMember

/-- Whether a member covers a character. -/
def covers (character : Symbol) : SetMember → Bool
  | single other => character = other
  | range first last => first ≤ character ∧ character ≤ last

end SetMember

/-- A piece of a wildcard. -/
inductive WildcardPiece where
  | star
  | anyCharacter
  | literal (character : Symbol)
  | set (complement : Bool) (members : List SetMember)
  deriving DecidableEq, Repr

namespace WildcardPiece

/-- Whether a piece other than the star stands for a character. -/
def accepts (character : Symbol) : WildcardPiece → Bool
  | star => false
  | anyCharacter => true
  | literal other => character = other
  | set complement members => members.any (SetMember.covers character) != complement

end WildcardPiece

/-- A wildcard, piece by piece. -/
abbrev Wildcard := List WildcardPiece

namespace Wildcard

/-- Whether some end of a text, the whole and the empty one included, satisfies a condition. -/
def someEnd (condition : List Symbol → Bool) : List Symbol → Bool
  | [] => condition []
  | character :: rest => condition (character :: rest) || someEnd condition rest

/-- Whether a wildcard describes a text. -/
def describes : Wildcard → List Symbol → Bool
  | [], text => text.isEmpty
  | .star :: pieces, text => someEnd (describes pieces) text
  | _ :: _, [] => false
  | piece :: pieces, character :: rest => piece.accepts character && describes pieces rest

/-- The ends of a text, the whole first. -/
def ends : List Symbol → List (List Symbol)
  | [] => [[]]
  | character :: rest => (character :: rest) :: ends rest

/-- For every entry, whether it or a later one holds. -/
def orLater : List Bool → List Bool
  | [] => []
  | entry :: rest =>
      let later := orLater rest
      (entry || later.headD false) :: later

/-- The entries for one more piece, a star aside, given those for the pieces behind it. -/
def precede (piece : WildcardPiece) : List Symbol → List Bool → List Bool
  | [], _ => [false]
  | character :: rest, entries =>
      (piece.accepts character && entries.tail.headD false) :: precede piece rest entries.tail

/-- For every end of a text, the whole first, whether a wildcard describes it. -/
def table : Wildcard → List Symbol → List Bool
  | [], text => (ends text).map List.isEmpty
  | .star :: pieces, text => orLater (table pieces text)
  | piece :: pieces, text => precede piece text (table pieces text)

/-- Whether a wildcard describes a text, found without trying a place twice. -/
def accepts (wildcard : Wildcard) (text : List Symbol) : Bool :=
  (table wildcard text).headD false

theorem headD_map_ends (condition : List Symbol → Bool) (text : List Symbol) :
    ((ends text).map condition).headD false = condition text := by
  cases text <;> rfl

theorem orLater_map_ends (condition : List Symbol → Bool) (text : List Symbol) :
    orLater ((ends text).map condition) = (ends text).map (someEnd condition) := by
  induction text with
  | nil => simp [ends, orLater, someEnd]
  | cons character rest induction =>
      simp only [ends, List.map_cons, orLater, induction, headD_map_ends, someEnd]

theorem precede_map_ends {piece : WildcardPiece} (single : piece ≠ .star)
    (pieces : Wildcard) (text : List Symbol) :
    precede piece text ((ends text).map (describes pieces)) =
      (ends text).map (describes (piece :: pieces)) := by
  induction text with
  | nil => cases piece <;> simp_all [ends, precede, describes]
  | cons character rest induction =>
      simp only [ends, List.map_cons, precede, List.tail_cons, headD_map_ends, induction]
      cases piece <;> simp_all [describes]

theorem table_eq (wildcard : Wildcard) (text : List Symbol) :
    table wildcard text = (ends text).map (describes wildcard) := by
  induction wildcard with
  | nil =>
      refine List.map_congr_left fun other _ => ?_
      cases other <;> rfl
  | cons piece pieces induction =>
      by_cases star : piece = .star
      · subst star
        rw [table, induction, orLater_map_ends]
        refine List.map_congr_left fun other _ => ?_
        rw [describes]
      · rw [← precede_map_ends star, ← induction]
        cases piece <;> simp_all [table]

theorem accepts_eq_describes (wildcard : Wildcard) (text : List Symbol) :
    accepts wildcard text = describes wildcard text := by
  rw [accepts, table_eq, headD_map_ends]

end Wildcard

end MessageTables
