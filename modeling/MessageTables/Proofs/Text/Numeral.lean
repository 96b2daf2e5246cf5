import MessageTables.Proofs.Text.Printable
import MessageTables.Text.Numeral

/-!
# Numerals are read back

Reading a numeral gives the number it was written for. A row of digits is
written again with at most as many digits, since only leading zeros are lost, so
a number that was read within a limit is written within it.
-/

namespace MessageTables.Text

theorem isDigit_of_mem_toDigits (value : Nat) {digit : Symbol}
    (inside : digit ∈ (Nat.toDigits 10 value).map .char) : digit.isDigit = true := by
  obtain ⟨character, among, rfl⟩ := List.mem_map.mp inside
  exact Nat.isDigit_of_mem_toDigits (by decide) (by decide) among

theorem numeralCharacters_eq_cons (value : Int) :
    ∃ first rest, numeralCharacters value = first :: rest ∧
      (first.isDigit = true ∨ first = '-') := by
  cases value with
  | ofNat value =>
      rcases List.exists_cons_of_ne_nil (Nat.toDigits_ne_nil (n := value) (b := 10)) with
        ⟨first, rest, shape⟩
      refine ⟨first, rest.map .char, by rw [numeralCharacters, shape, List.map_cons], Or.inl ?_⟩
      apply isDigit_of_mem_toDigits value
      rw [shape]
      exact List.mem_cons_self
  | negSucc value => exact ⟨'-', _, rfl, Or.inr rfl⟩

theorem printable_numeralCharacters (value : Int) : Printable (numeralCharacters value) := by
  have digits (value : Nat) : Printable ((Nat.toDigits 10 value).map .char) := fun _ inside =>
    isPrintable_of_isDigit (isDigit_of_mem_toDigits value inside)
  cases value with
  | ofNat value => exact digits value
  | negSucc value => exact (digits _).cons (by decide)

theorem digit_lt_ten {digit : Char} (valid : digit.isDigit = true) :
    digit.toNat - '0'.toNat < 10 := by
  have symbol : (Symbol.char digit).isDigit = true := valid
  have upper : digit.toNat ≤ 57 := (code_of_isDigit symbol).2
  have zero : '0'.toNat = 48 := rfl
  omega

theorem exists_characters {digits : List Symbol} (valid : ∀ digit ∈ digits, digit.isDigit = true) :
    ∃ characters : List Char, digits = characters.map .char ∧
      ∀ digit ∈ characters, digit.isDigit = true := by
  induction digits with
  | nil => exact ⟨[], rfl, List.forall_mem_nil _⟩
  | cons digit rest ih =>
      rw [List.forall_mem_cons] at valid
      obtain ⟨others, rfl, valids⟩ := ih valid.2
      cases digit with
      | char value => exact ⟨value :: others, rfl, List.forall_mem_cons.mpr ⟨valid.1, valids⟩⟩
      | stray byte => cases valid.1

theorem ofDigitChars_lt {digits : List Char} (valid : ∀ digit ∈ digits, digit.isDigit = true)
    (start : Nat) : Nat.ofDigitChars 10 digits start < 10 ^ digits.length * (start + 1) := by
  induction digits generalizing start with
  | nil => simp
  | cons digit rest ih =>
      have small := digit_lt_ten (valid digit List.mem_cons_self)
      have others : ∀ digit ∈ rest, digit.isDigit = true := by
        intro other inside
        exact valid other (List.mem_cons_of_mem _ inside)
      rw [Nat.ofDigitChars_cons]
      calc
        _ < 10 ^ rest.length * (10 * start + (digit.toNat - '0'.toNat) + 1) := ih others _
        _ ≤ 10 ^ rest.length * (10 * (start + 1)) := Nat.mul_le_mul_left _ (by omega)
        _ = 10 ^ (digit :: rest).length * (start + 1) := by
            rw [List.length_cons, Nat.pow_succ]
            ring

/-- A number that is written with a leading zero is written with nothing else. -/
theorem length_toDigits_of_head? {value : Nat} (zero : (Nat.toDigits 10 value).head? = some '0') :
    (Nat.toDigits 10 value).length = 1 := by
  obtain ⟨rest, shape⟩ : ∃ rest, Nat.toDigits 10 value = '0' :: rest :=
    ⟨_, (List.cons_head?_tail zero).symm⟩
  by_contra long
  have some : 0 < rest.length := by
    rw [shape, List.length_cons] at long
    omega
  have valid : ∀ digit ∈ rest, digit.isDigit = true := by
    intro digit inside
    have among : digit ∈ Nat.toDigits 10 value := shape ▸ List.mem_cons_of_mem _ inside
    exact Nat.isDigit_of_mem_toDigits (by decide) (by decide) among
  -- Without the zero the digits are as good, and they are too few.
  have same : Nat.ofDigitChars 10 rest 0 = value := by
    have read : Nat.ofDigitChars 10 (Nat.toDigits 10 value) 0 = value :=
      Nat.ofDigitChars_toDigits (by decide) (by decide)
    rwa [shape, Nat.ofDigitChars_cons] at read
  have bound : value < 10 ^ rest.length := by
    have bound := ofDigitChars_lt valid 0
    rwa [same, Nat.zero_add, Nat.mul_one] at bound
  have short := (Nat.length_toDigits_le_iff (by decide) some).mpr bound
  rw [shape, List.length_cons] at short
  omega

theorem readDigits_toDigits (value : Nat) :
    readDigits ((Nat.toDigits 10 value).map .char) = some value := by
  have digits : isDigits ((Nat.toDigits 10 value).map .char) = true := by
    refine isDigits_iff.mpr ⟨?_, fun _ => isDigit_of_mem_toDigits value⟩
    rw [ne_eq, List.map_eq_nil_iff]
    exact Nat.toDigits_ne_nil
  rw [readDigits, digits, digitsValue_toDigits]
  simpa using length_toDigits_of_head?

theorem readNumeral_numeralCharacters (value : Int) :
    readNumeral (numeralCharacters value) = some value := by
  cases value with
  | ofNat value =>
      unfold readNumeral
      split
      next digits shape =>
        have digit : (Symbol.char '-').isDigit = true := by
          apply isDigit_of_mem_toDigits value
          change Symbol.char '-' ∈ numeralCharacters (.ofNat value)
          rw [shape]
          exact List.mem_cons_self
        exact absurd digit (by decide)
      next =>
        rw [numeralCharacters, readDigits_toDigits]
        rfl
  | negSucc value =>
      rw [numeralCharacters, readNumeral, readDigits_toDigits]
      rfl

theorem length_numeralCharacters_digitsValue_le {digits : List Symbol}
    (valid : isDigits digits = true) :
    (numeralCharacters (digitsValue digits)).length ≤ digits.length := by
  rcases isDigits_iff.mp valid with ⟨nonempty, all⟩
  obtain ⟨characters, rfl, digit⟩ := exists_characters all
  have bound : digitsValue (characters.map .char) < 10 ^ characters.length := by
    rw [digitsValue, Symbol.filterMap_char?_map]
    simpa using ofDigitChars_lt digit 0
  have some : 0 < characters.length := by
    rw [List.length_pos_iff]
    rintro rfl
    exact nonempty rfl
  simp only [numeralCharacters, List.length_map]
  exact (Nat.length_toDigits_le_iff (by decide) some).mpr bound

end MessageTables.Text
