/-!
# Symbols

What texts are made of. The names of files are bytes and need not be the UTF-8
of anything, so besides the characters there are 128 symbols for single bytes: a
byte of a name that belongs to no character is kept as a stray one. Only bytes
above the ASCII characters can be stray.

In the order of symbols a stray byte stands among the code points that belong to
no character, behind `0xDC00`.
-/

namespace MessageTables

/-- A character, or a byte `0x80 + byte` that belongs to none. -/
inductive Symbol where
  | char (value : Char)
  | stray (byte : Fin 128)
  deriving DecidableEq, Repr

namespace Symbol

instance : Coe Char Symbol :=
  ⟨char⟩

/-- The place of a symbol in the order of symbols. -/
def code : Symbol → Nat
  | char value => value.toNat
  | stray byte => 0xDC80 + byte

instance : LT Symbol :=
  ⟨fun left right => left.code < right.code⟩

instance : LE Symbol :=
  ⟨fun left right => left.code ≤ right.code⟩

instance (left right : Symbol) : Decidable (left ≤ right) :=
  inferInstanceAs (Decidable (left.code ≤ right.code))

instance (left right : Symbol) : Decidable (left < right) :=
  inferInstanceAs (Decidable (left.code < right.code))

/-- The symbol at a place in the order of symbols. -/
def ofCode? (code : Nat) : Option Symbol :=
  if code.isValidChar then some (char (Char.ofNat code))
  else if stray : 0xDC80 ≤ code ∧ code < 0xDD00 then some (.stray ⟨code - 0xDC80, by omega⟩)
  else none

/-- The character that a symbol is, if it is one. -/
def char? : Symbol → Option Char
  | char value => some value
  | stray _ => none

/-- Whether a symbol is a byte that belongs to no character. -/
def isStray : Symbol → Bool
  | char _ => false
  | stray _ => true

/-- Whether a symbol is one of the digits `0` to `9`. -/
def isDigit : Symbol → Bool
  | char value => value.isDigit
  | stray _ => false

/-- Whether a symbol is one of the ASCII letters and digits. -/
def isAlphanum : Symbol → Bool
  | char value => value.isAlphanum
  | stray _ => false

/-- The bytes of a symbol: a character in UTF-8, a stray byte as it is. -/
def bytes : Symbol → List UInt8
  | char value => String.utf8EncodeChar value
  | stray byte => [UInt8.ofNat (0x80 + byte)]

/-- The number of bytes of a symbol. -/
def byteSize : Symbol → Nat
  | char value => value.utf8Size
  | stray _ => 1

theorem filterMap_char?_map (characters : List Char) :
    (characters.map char).filterMap char? = characters := by
  rw [List.filterMap_map]
  exact List.filterMap_some

theorem length_bytes (symbol : Symbol) : symbol.bytes.length = symbol.byteSize := by
  cases symbol with
  | char value => exact String.length_utf8EncodeChar value
  | stray byte => rfl

theorem code_lt (symbol : Symbol) : symbol.code < 0x110000 := by
  cases symbol with
  | char value =>
      have valid : value.toNat.isValidChar := value.valid
      simp only [Nat.isValidChar] at valid
      simp only [code]
      omega
  | stray byte =>
      have := byte.isLt
      simp only [code]
      omega

/-- A symbol has the place that it is found at. -/
theorem ofCode?_code (symbol : Symbol) : ofCode? symbol.code = some symbol := by
  cases symbol with
  | char value =>
      have valid : value.toNat.isValidChar := value.valid
      simp only [ofCode?, code, if_pos valid, Char.ofNat_toNat]
  | stray byte =>
      have invalid : ¬(0xDC80 + byte.val).isValidChar := by
        have := byte.isLt
        simp only [Nat.isValidChar]
        omega
      have between : 0xDC80 ≤ 0xDC80 + byte.val ∧ 0xDC80 + byte.val < 0xDD00 := by
        have := byte.isLt
        omega
      simp only [ofCode?, code, if_neg invalid, dif_pos between, Nat.add_sub_cancel_left]

theorem code_inj {left right : Symbol} : left.code = right.code ↔ left = right := by
  refine ⟨fun codes => ?_, congrArg code⟩
  have found := ofCode?_code left
  rw [codes, ofCode?_code, Option.some.injEq] at found
  exact found.symm

end Symbol

end MessageTables
