import MessageTables.Glob.Wildcard

/-!
# Reading wildcards

A bracket that is never closed stands for itself. Within a set a hyphen between
two characters makes a range of them, unless it stands at either end or behind a
complete range. A range that runs backwards is taken out with its two ends, and
an exclamation mark that is then in front turns the set into its complement. A
set that is left with nothing has no character, and its complement has all.
-/

namespace MessageTables

namespace Wildcard

/--
The content of a set, cut at the hyphens that make ranges. The next `passed`
characters belong to the current piece whatever they are.
-/
def cutRanges : (passed : Nat) → (piece : List Symbol) → List Symbol → List (List Symbol)
  | _, piece, [] => [piece]
  | passed + 1, piece, character :: rest => cutRanges passed (piece ++ [character]) rest
  | 0, piece, character :: rest =>
      if character = '-' then piece :: cutRanges 2 [] rest
      else cutRanges 0 (piece ++ [character]) rest

/-- A hyphen with nothing behind it belongs to the piece before it. -/
def closeRanges : List (List Symbol) → List (List Symbol)
  | [piece, []] => [piece ++ [Symbol.char '-']]
  | [] => []
  | piece :: pieces => piece :: closeRanges pieces

/-- Takes out a backward range between a piece and the next. -/
def joinBackward (piece : List Symbol) : List (List Symbol) → List (List Symbol)
  | [] => [piece]
  | next :: pieces =>
      match piece.getLast?, next with
      | some last, first :: tail =>
          if first < last then (piece.dropLast ++ tail) :: pieces
          else piece :: next :: pieces
      | _, _ => piece :: next :: pieces

/-- What a set is made of: characters, and the hyphens of its ranges. -/
inductive SetToken where
  | character (character : Symbol)
  | hyphen
  deriving DecidableEq, Repr

/-- Pieces with a range between each and the next. -/
def tokens : List (List Symbol) → List SetToken
  | [] => []
  | [piece] => piece.map .character
  | piece :: pieces => piece.map .character ++ .hyphen :: tokens pieces

/-- The members of a set; a hyphen with no character before it is a character itself. -/
def members : List SetToken → List SetMember
  | [] => []
  | .character first :: .hyphen :: .character last :: rest => .range first last :: members rest
  | .character character :: rest => .single character :: members rest
  | .hyphen :: rest => .single '-' :: members rest

/-- The set with the given content. -/
def setOf (content : List Symbol) : WildcardPiece :=
  let passed := if content.head? = some (Symbol.char '!') then 2 else 1
  let pieces := (closeRanges (cutRanges passed [] content)).foldr joinBackward []
  match tokens pieces with
  | .character '!' :: rest => if rest.isEmpty then .anyCharacter else .set true (members rest)
  | tokens => .set false (members tokens)

/--
The content of a set and what follows it, given the text behind the opening
bracket: the set ends at the first closing bracket that is not its first
character, an exclamation mark aside.
-/
def cutSet (text : List Symbol) : Option (List Symbol × List Symbol) :=
  let lead :=
    match text with
    | '!' :: ']' :: _ => 2
    | '!' :: _ => 1
    | ']' :: _ => 1
    | _ => 0
  let content := text.take lead ++ (text.drop lead).takeWhile (· ≠ Symbol.char ']')
  match text.drop content.length with
  | [] => none
  | _ :: rest => some (content, rest)

/-- The pieces of a wildcard's text, read with at most as many steps as given. -/
def read : (steps : Nat) → List Symbol → Wildcard
  | 0, _ => []
  | _, [] => []
  | steps + 1, '*' :: rest => .star :: read steps rest
  | steps + 1, '?' :: rest => .anyCharacter :: read steps rest
  | steps + 1, '[' :: rest =>
      match cutSet rest with
      | none => .literal '[' :: read steps rest
      | some (content, rest) => setOf content :: read steps rest
  | steps + 1, character :: rest => .literal character :: read steps rest

/-- Reads a wildcard; every step takes at least one character. -/
def ofText (text : Text) : Wildcard :=
  read text.toList.length text.toList

/-- Whether a text has a character with a meaning in wildcards. -/
def isWildcard (text : Text) : Bool :=
  text.toList.any fun character => character = '*' || character = '?' || character = '['

end Wildcard

end MessageTables
