import MessageTables.Proofs.LookupModule.RoundTrip

/-!
# The heading of a lookup module

A module opens with two comment lines, and the second names the table. A comment
in one of the first two lines of a text may declare the encoding of the whole
text: it does when the word `coding`, a colon or an equals sign and the name of an
encoding stand in it. A text without a declaration is read in the encoding that
modules are written in.

A table's path stays within its comment, so the lines behind it are the same for
every path. It is not kept from declaring an encoding: it declares one exactly
when one is named by the path and the dot behind it, which may be the first
character of the name. The other words of the heading never do.
-/

namespace MessageTables

namespace Text

/-- The characters that the name of an encoding is made of. -/
def isEncodingCharacter (character : Symbol) : Bool :=
  character.isAlphanum || character = '-' || character = '_' || character = '.'

/-- The word that announces the name of an encoding. -/
def encodingWord : List Symbol := ("coding" : Text).toList

/-- Whether an encoding is named somewhere in a comment. -/
def NamesEncoding (comment : List Symbol) : Prop :=
  ∃ (before : List Symbol) (mark : Symbol) (blanks : List Symbol) (first : Symbol)
    (rest : List Symbol),
    comment = before ++ encodingWord ++ mark :: (blanks ++ first :: rest) ∧
      (mark = ':' ∨ mark = '=') ∧ (∀ blank ∈ blanks, blank = ' ' ∨ blank = '\t') ∧
        isEncodingCharacter first = true

/-- Whether a line has nothing but a comment that names an encoding. -/
def DeclaresEncoding (line : List Symbol) : Prop :=
  ∃ indent comment : List Symbol, line = indent ++ Symbol.char '#' :: comment ∧
    (∀ blank ∈ indent, blank = ' ' ∨ blank = '\t' ∨ blank = '\x0c') ∧ NamesEncoding comment

variable {comment text ending : List Symbol} {first : Symbol}

theorem NamesEncoding.isInfix (names : NamesEncoding comment) : encodingWord <:+: comment := by
  rcases names with ⟨before, _, _, _, _, rfl, _⟩
  exact ⟨before, _, rfl⟩

theorem namesEncoding_cons_iff (other : first ≠ 'c') :
    NamesEncoding (first :: text) ↔ NamesEncoding text := by
  constructor
  · rintro ⟨before, mark, blanks, name, rest, shape, conditions⟩
    cases before with
    | nil => exact absurd (List.cons.inj shape).left other
    | cons _ before =>
        exact ⟨before, mark, blanks, name, rest, (List.cons.inj shape).right, conditions⟩
  · rintro ⟨before, mark, blanks, name, rest, rfl, conditions⟩
    exact ⟨first :: before, mark, blanks, name, rest, rfl, conditions⟩

/--
Behind a character of an encoding's name nothing without a mark adds to what is
named: the mark is in front of that character, and so is the beginning of the name,
unless it is that character.
-/
theorem namesEncoding_append_iff (character : isEncodingCharacter first = true)
    (noColon : Symbol.char ':' ∉ first :: ending) (noEquals : Symbol.char '=' ∉ first :: ending) :
    NamesEncoding (text ++ first :: ending) ↔ NamesEncoding (text ++ [first]) := by
  constructor
  · rintro ⟨before, mark, blanks, name, rest, shape, marks, blank, encodes⟩
    have noMark : mark ∉ first :: ending := by
      rcases marks with rfl | rfl
      · exact noColon
      · exact noEquals
    rcases List.append_eq_append_iff.mp shape with ⟨late, _, inEnding⟩ | ⟨behind, rfl, fromMark⟩
    · rw [inEnding] at noMark
      simp at noMark
    cases behind with
    | nil =>
        rw [(List.cons.inj fromMark).left] at noMark
        exact absurd List.mem_cons_self noMark
    | cons _ behind =>
        rcases List.cons.inj fromMark with ⟨rfl, fromBlanks⟩
        rcases List.append_eq_append_iff.mp fromBlanks with ⟨late, rfl, atName⟩ | ⟨late, rfl, _⟩
        · cases late with
          | nil => exact ⟨before, mark, blanks, first, [], by simp, marks, blank, character⟩
          | cons _ late =>
              rcases List.cons.inj atName with ⟨rfl, _⟩
              exact ⟨before, mark, blanks, name, late ++ [first], by simp, marks, blank, encodes⟩
        · exact ⟨before, mark, behind, first, [], by simp, marks,
            (List.forall_mem_append.mp blank).left, character⟩
  · rintro ⟨before, mark, blanks, name, rest, shape, conditions⟩
    refine ⟨before, mark, blanks, name, rest ++ ending, ?_, conditions⟩
    have longer := congrArg (· ++ ending) shape
    simpa using longer

theorem declaresEncoding_iff : DeclaresEncoding ('#' :: comment) ↔ NamesEncoding comment := by
  constructor
  · rintro ⟨indent, inside, shape, blank, names⟩
    cases indent with
    | nil =>
        rw [(List.cons.inj shape).right]
        exact names
    | cons character indent =>
        rw [← (List.cons.inj shape).left] at blank
        exact absurd (blank '#' List.mem_cons_self) (by decide)
  · intro names
    exact ⟨[], comment, rfl, List.forall_mem_nil _, names⟩

end Text

namespace LookupModule

theorem not_declaresEncoding_noticeLine : ¬Text.DeclaresEncoding noticeLine := by
  intro declares
  have words := (Text.declaresEncoding_iff.mp declares).isInfix
  exact absurd words (by decide)

theorem declaresEncoding_originLine_iff (origin : List Symbol) :
    Text.DeclaresEncoding (originLine origin) ↔
      Text.NamesEncoding (origin ++ [Symbol.char '.']) := by
  have ending : originEnding =
      Symbol.char '.' :: (" DO NOT EDIT OR COMMIT THIS FILE!" : Text).toList := rfl
  have comment : originLine origin =
      Symbol.char '#' :: Symbol.char ' ' :: (origin ++ originEnding) := rfl
  rw [comment, Text.declaresEncoding_iff, Text.namesEncoding_cons_iff (by decide), ending]
  exact Text.namesEncoding_append_iff (by decide) (by decide) (by decide)

theorem lines_ofRecords (moduleName : Text) (records : List Record) (source : Text) :
    (ofRecords moduleName records source).lines =
      noticeLine :: originLine (Text.joinBreaks source.toList) ::
        (ofRecords moduleName records "").lines.drop 2 := by
  have origin : (ofRecords moduleName records source).origin.toList =
      Text.joinBreaks source.toList := rfl
  rw [lines, headerLines, origin]
  rfl

/--
The path of a table is confined to the second line of its module, where it stands
with its line breaks joined: the first line and all lines behind the second are the
same for every path. The first line declares no encoding, and the second declares
one exactly when the path names one, its last character being followed by a dot.
-/
theorem heading_render (moduleName : Text) (records : List Record) :
    ∃ others, ∀ source : Text,
      Text.lines (render moduleName records source).toList =
          noticeLine :: originLine (Text.joinBreaks source.toList) :: others ∧
        ¬Text.DeclaresEncoding noticeLine ∧
          (Text.DeclaresEncoding (originLine (Text.joinBreaks source.toList)) ↔
            Text.NamesEncoding (Text.joinBreaks source.toList ++ [Symbol.char '.'])) := by
  refine ⟨(ofRecords moduleName records "").lines.drop 2 ++ [[]], ?_⟩
  intro source
  refine ⟨?_, not_declaresEncoding_noticeLine, declaresEncoding_originLine_iff _⟩
  rw [lines_render, lines_ofRecords]
  rfl

/-- A path that names an encoding, so that the module of its table declares it. -/
theorem not_forall_not_declaresEncoding :
    ¬∀ (moduleName : Text) (records : List Record) (source : Text),
      Symbol.char '\x00' ∉ source.toList →
      ∀ line ∈ (Text.lines (render moduleName records source).toList).take 2,
        ¬Text.DeclaresEncoding line := by
  intro inert
  have declares : Text.DeclaresEncoding (originLine ("coding=latin-1/x.csv" : Text).toList) := by
    rw [declaresEncoding_originLine_iff]
    exact ⟨[], '=', [], 'l', ("atin-1/x.csv." : Text).toList, rfl, Or.inr rfl,
      List.forall_mem_nil _, by decide⟩
  refine inert "x" [⟨0, "é", "a_pb"⟩] "coding=latin-1/x.csv" (by decide) _ ?_ declares
  rw [lines_render]
  exact List.mem_cons_of_mem _ List.mem_cons_self

end LookupModule

end MessageTables
