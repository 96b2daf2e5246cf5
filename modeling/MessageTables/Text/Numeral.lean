import MessageTables.Text.Basic

/-!
# Decimal numerals

A number is written with the fewest decimal digits, after a minus sign when it
is negative. `numeral` writes it and `readNumeral` reads it, without leading zeros;
`digitsValue` is the value of any row of digits, leading zeros included.
-/

namespace MessageTables.Text

/-- A number in decimal digits, as characters. -/
def numeralCharacters : Int → List Symbol
  | .ofNat value => (Nat.toDigits 10 value).map .char
  | .negSucc value => '-' :: (Nat.toDigits 10 (value + 1)).map .char

/-- A number in decimal digits. -/
def numeral (value : Int) : Text :=
  Text.ofList (numeralCharacters value)

/-- The value of a row of decimal digits. -/
def digitsValue (digits : List Symbol) : Nat :=
  Nat.ofDigitChars 10 (digits.filterMap Symbol.char?) 0

/-- Whether a text is a row of one or more digits `0` to `9`. -/
def isDigits (text : List Symbol) : Bool :=
  !text.isEmpty && text.all Symbol.isDigit

/-- Reads a row of digits that does not begin with a zero, unless the zero is alone. -/
def readDigits (written : List Symbol) : Option Nat :=
  if isDigits written && (written.head? ≠ some (Symbol.char '0') || written.length = 1) then
    some (digitsValue written)
  else none

/-- Reads a number: a row of digits, perhaps after a minus sign. -/
def readNumeral (written : List Symbol) : Option Int :=
  match written with
  | '-' :: digits => (readDigits digits).map fun value => -(value : Int)
  | digits => (readDigits digits).map fun value => (value : Int)

theorem digitsValue_toDigits (value : Nat) :
    digitsValue ((Nat.toDigits 10 value).map .char) = value := by
  rw [digitsValue, Symbol.filterMap_char?_map]
  exact Nat.ofDigitChars_toDigits (by decide) (by decide)

theorem isDigits_iff {text : List Symbol} :
    isDigits text = true ↔ text ≠ [] ∧ ∀ digit ∈ text, digit.isDigit = true := by
  simp [isDigits]

end MessageTables.Text
