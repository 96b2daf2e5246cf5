import MessageTables.Path

/-!
# Names of temporary files

A temporary name is the output's name between dots, a token of eight letters,
digits and underscores, and an ending. The file stands in the directory of the
output, whose path is made to start at a root and not to lead upwards.

Tokens are drawn. Nothing is assumed of the draws but that a free token is drawn
as long as there is one; to give up after very many tokens that were not free is
left out. `Draw.inOrder` is the draw that takes the first free token in the order
of the alphabet.
-/

namespace MessageTables

namespace Token

/-- The characters of tokens. -/
def alphabet : List Char :=
  "abcdefghijklmnopqrstuvwxyz0123456789_".toList

/-- The number of characters of a token. -/
def length : Nat := 8

end Token

/-- Whether some characters are a token. -/
def IsToken (characters : List Char) : Prop :=
  characters.length = Token.length ∧ ∀ character ∈ characters, character ∈ Token.alphabet

instance (characters : List Char) : Decidable (IsToken characters) :=
  decidable_of_iff (characters.length = Token.length ∧
    characters.all (Token.alphabet.contains ·) = true) (by
      simp only [IsToken, List.all_eq_true, List.contains_iff_mem])

/-- What is drawn for the name of a temporary file. -/
structure Token where
  characters : List Char
  isToken : IsToken characters
  deriving DecidableEq

namespace Token

/-- A token as a text. -/
def text (token : Token) : Text :=
  .ofList (token.characters.map .char)

/-- Whether some characters are no token that is free. -/
def excludes (taken : Token → Bool) (characters : List Char) : Bool :=
  if isToken : IsToken characters then
    taken ⟨characters, isToken⟩
  else true

/-- The first row of characters of the alphabet that a condition does not exclude. -/
def search : (count : Nat) → (excluded : List Char → Bool) → Option (List Char)
  | 0, excluded => if excluded [] then none else some []
  | count + 1, excluded =>
      alphabet.findSome? fun character =>
        (search count fun rest => excluded (character :: rest)).map (character :: ·)

theorem excluded_of_search_eq_none {count : Nat} {excluded : List Char → Bool}
    (none : search count excluded = none) {characters : List Char}
    (long : characters.length = count) (inside : ∀ character ∈ characters, character ∈ alphabet) :
    excluded characters = true := by
  induction count generalizing excluded characters with
  | zero =>
      rw [List.length_eq_zero_iff.mp long]
      unfold search at none
      split at none
      next excludes => exact excludes
      next => cases none
  | succ count ih =>
      obtain ⟨character, rest, rfl⟩ := List.exists_cons_of_length_eq_add_one long
      rw [List.forall_mem_cons] at inside
      have without := List.findSome?_eq_none_iff.mp none character inside.1
      exact ih (Option.map_eq_none_iff.mp without) (Nat.succ.inj long) inside.2

theorem not_excluded_of_search_eq_some {count : Nat} {excluded : List Char → Bool}
    {characters : List Char} (found : search count excluded = some characters) :
    excluded characters = false := by
  induction count generalizing excluded characters with
  | zero =>
      unfold search at found
      split at found
      next => cases found
      next allowed =>
        cases found
        exact (Bool.not_eq_true _).mp allowed
  | succ count ih =>
      obtain ⟨character, _, first⟩ := List.exists_of_findSome?_eq_some found
      obtain ⟨rest, within, rfl⟩ := Option.map_eq_some_iff.mp first
      have allowed := ih within
      exact allowed

end Token

/-- How a token is drawn, given which ones are taken. -/
structure Draw where
  pick : (taken : Token → Bool) → Option Token
  pick_free : ∀ {taken token}, pick taken = some token → taken token = false
  taken_of_pick : ∀ {taken}, pick taken = none → ∀ token, taken token = true

namespace Draw

/-- The first token that is free, if there is one. -/
def firstFree (taken : Token → Bool) : Option Token :=
  match found : Token.search Token.length (Token.excludes taken) with
  | none => none
  | some characters =>
      some ⟨characters, by
        have allowed := Token.not_excluded_of_search_eq_some found
        unfold Token.excludes at allowed
        split at allowed
        next isToken => exact isToken
        next => cases allowed⟩

/-- The draw that takes the first free token. -/
def inOrder : Draw where
  pick := firstFree
  pick_free {taken token} drawn := by
    unfold firstFree at drawn
    split at drawn
    next => cases drawn
    next characters found =>
      cases drawn
      have allowed := Token.not_excluded_of_search_eq_some found
      unfold Token.excludes at allowed
      split at allowed
      next => exact allowed
      next => cases allowed
  taken_of_pick {taken} none token := by
    unfold firstFree at none
    split at none
    next empty =>
      have excluded := Token.excluded_of_search_eq_none empty token.isToken.1 token.isToken.2
      rwa [Token.excludes, dif_pos token.isToken] at excluded
    next => cases none

end Draw

namespace Anchor

/-- Where a path starts that starts at a root. -/
def absolute : Anchor → Anchor
  | relative => root
  | anchor => anchor

end Anchor

namespace Path

/-- The path from a root, with every part that leads up taken together with the part it leaves. -/
def absolute (path : Path) : Path :=
  let parts := path.parts.foldl
    (fun parts part => if part = Part.up then parts.tail else part :: parts) []
  ⟨path.anchor.absolute, parts.reverse⟩

/-- The name of a temporary file for an output. -/
def temporaryText (name : Text) (token : Token) : Text :=
  "." ++ name ++ "." ++ token.text ++ ".tmp"

/-- The path of a temporary file for an output. -/
def temporary (output : Path) (token : Token) : Path :=
  output.parent.absolute.join (.ofText (temporaryText output.name token))

end Path

end MessageTables
