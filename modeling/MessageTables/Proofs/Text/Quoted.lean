import MessageTables.Proofs.Text.Printable
import MessageTables.Text.Quoted

/-!
# Quoted texts are read back

Reading a quoted text gives the text, for every text: the escapes of `escape`
are undone one by one, whatever follows them, and the closing delimiter is the
first one that no backslash escapes. A quoted text has only printable characters,
so it stays on the line it is written on.

Both facts are stated of one character first. What a text needs beyond that is
an induction over its characters.
-/

namespace MessageTables.Text

theorem hexDigitValue?_digitChar {digit : Nat} (small : digit < 16) :
    hexDigitValue? (Nat.digitChar digit) = some digit := by
  have all : ∀ digit < 16, hexDigitValue? (Nat.digitChar digit) = some digit := by decide
  exact all digit small

theorem hexValue?_hexDigits_append (width value start : Nat) (rest : List Symbol) :
    hexValue? start (hexDigits width value ++ rest) =
      hexValue? (16 ^ width * start + value % 16 ^ width) rest := by
  induction width generalizing value rest with
  | zero => simp [hexDigits, Nat.mod_one]
  | succ width ih =>
      rw [hexDigits, List.append_assoc, ih]
      simp only [List.singleton_append, hexValue?,
        hexDigitValue?_digitChar (Nat.mod_lt value (by decide))]
      congr 1
      rw [Nat.pow_succ', Nat.mod_mul]
      ring

theorem symbolOfCodePoint?_hexDigits (width : Nat) {symbol : Symbol}
    (room : symbol.code < 16 ^ width) :
    symbolOfCodePoint? (hexDigits width symbol.code) = some symbol := by
  have read : hexValue? 0 (hexDigits width symbol.code) = some symbol.code := by
    have appended := hexValue?_hexDigits_append width symbol.code 0 []
    rw [List.append_nil] at appended
    rw [appended, Nat.mul_zero, Nat.zero_add, Nat.mod_eq_of_lt room, hexValue?]
  rw [symbolOfCodePoint?, read, Option.bind_some, Symbol.ofCode?_code]

theorem unquoteUntil_codePointEscape {delimiter : Symbol} (noBackslash : delimiter ≠ '\\')
    (character : Symbol) (rest : List Symbol) :
    unquoteUntil delimiter (codePointEscape character ++ rest) =
      prepend? (some character) (unquoteUntil delimiter rest) := by
  have backslash : '\\' ≠ delimiter := noBackslash.symm
  unfold codePointEscape
  split
  · rename_i small
    rw [← symbolOfCodePoint?_hexDigits 2 small]
    simp [hexDigits, unquoteUntil, backslash]
  split
  · rename_i small
    rw [← symbolOfCodePoint?_hexDigits 4 small]
    simp [hexDigits, unquoteUntil, backslash]
  · have small : character.code < 16 ^ 8 := Nat.lt_of_lt_of_le character.code_lt (by decide)
    rw [← symbolOfCodePoint?_hexDigits 8 small]
    simp [hexDigits, unquoteUntil, backslash]

theorem unquoteUntil_cons {delimiter character : Symbol} (inside : character ≠ delimiter)
    (plain : character ≠ '\\') (rest : List Symbol) :
    unquoteUntil delimiter (character :: rest) =
      prepend? (some character) (unquoteUntil delimiter rest) := by
  rw [unquoteUntil.eq_def]
  simp only [if_neg inside, ne_eq, plain, not_false_eq_true, if_true]

theorem unquoteUntil_escape {delimiter : Symbol} (quote : delimiter = '\'' ∨ delimiter = '"')
    (character : Symbol) (rest : List Symbol) :
    unquoteUntil delimiter (escape delimiter character ++ rest) =
      prepend? (some character) (unquoteUntil delimiter rest) := by
  have backslash : '\\' ≠ delimiter := by
    rcases quote with rfl | rfl <;> decide
  unfold escape
  split
  · rename_i special
    rcases special with rfl | rfl
    · rcases quote with rfl | rfl <;> simp [unquoteUntil, characterOfLetter?]
    · simp [unquoteUntil, backslash, characterOfLetter?]
  split
  · rename_i tabulator
    simp [unquoteUntil, backslash, characterOfLetter?, tabulator]
  split
  · rename_i lineFeed
    simp [unquoteUntil, backslash, characterOfLetter?, lineFeed]
  split
  · rename_i carriageReturn
    simp [unquoteUntil, backslash, characterOfLetter?, carriageReturn]
  split
  · rename_i ordinary _ _ _ _
    rw [not_or] at ordinary
    exact unquoteUntil_cons ordinary.1 ordinary.2 rest
  · exact unquoteUntil_codePointEscape backslash.symm character rest

theorem unquoteUntil_flatMap_escape {delimiter : Symbol}
    (quote : delimiter = '\'' ∨ delimiter = '"') (text rest : List Symbol) :
    unquoteUntil delimiter (text.flatMap (escape delimiter) ++ delimiter :: rest) =
      some (text, rest) := by
  induction text with
  | nil =>
      rw [List.flatMap_nil, List.nil_append, unquoteUntil.eq_def]
      simp only [if_true]
  | cons character text ih =>
      rw [List.flatMap_cons, List.append_assoc, unquoteUntil_escape quote, ih, prepend?]

theorem delimiter_eq (text : List Symbol) : delimiter text = '\'' ∨ delimiter text = '"' := by
  unfold delimiter
  split
  · exact Or.inr rfl
  · exact Or.inl rfl

theorem unquote_quoteCharacters (text : List Symbol) :
    unquote (quoteCharacters text) = some text := by
  have quote := delimiter_eq text
  rw [quoteCharacters, unquote, if_pos quote, unquoteUntil_flatMap_escape quote]

theorem printable_hexDigits (width value : Nat) : Printable (hexDigits width value) := by
  have visible : ∀ digit < 16, Printable [Nat.digitChar digit] := by decide
  induction width generalizing value with
  | zero => exact printable_nil
  | succ width ih => exact (ih _).append (visible (value % 16) (Nat.mod_lt value (by decide)))

theorem printable_codePointEscape (character : Symbol) : Printable (codePointEscape character) := by
  unfold codePointEscape
  split
  · exact ((printable_hexDigits _ _).cons (by decide)).cons (by decide)
  split
  · exact ((printable_hexDigits _ _).cons (by decide)).cons (by decide)
  · exact ((printable_hexDigits _ _).cons (by decide)).cons (by decide)

theorem printable_escape {delimiter : Symbol} (quote : delimiter = '\'' ∨ delimiter = '"')
    (character : Symbol) : Printable (escape delimiter character) := by
  unfold escape
  split
  · rename_i special
    rcases special with rfl | rfl
    · rcases quote with rfl | rfl <;> decide
    · decide
  split
  · decide
  split
  · decide
  split
  · decide
  split
  · rename_i seen
    exact printable_nil.cons seen
  · exact printable_codePointEscape character

theorem printable_quoteCharacters (text : List Symbol) : Printable (quoteCharacters text) := by
  have quote := delimiter_eq text
  have outside : isPrintable (delimiter text) = true := by
    rcases quote with single | double
    · rw [single]
      decide
    · rw [double]
      decide
  have inside : Printable (text.flatMap (escape (delimiter text))) := by
    intro character written
    rcases List.mem_flatMap.mp written with ⟨source, _, escaped⟩
    exact printable_escape quote source character escaped
  exact (inside.append (printable_nil.cons outside)).cons outside

end MessageTables.Text
