import MessageTables.Proofs.Text.Breaks
import MessageTables.Text.NonPrintable

/-!
# Printable texts

All characters that the library writes itself are printable, and none at which a
line could end is. So it is enough to know of a text that it is printable, to know
that it stays on the line it is written on.
-/

namespace MessageTables.Text

variable {character : Symbol} {text rest : List Symbol}

/-- Whether all characters of a text stand for themselves in a quoted text. -/
def Printable (text : List Symbol) : Prop :=
  ∀ character ∈ text, isPrintable character = true

instance (text : List Symbol) : Decidable (Printable text) :=
  decidable_of_iff (text.all isPrintable) (by simp [Printable])

theorem isPrintable_of_ascii (lower : 0x20 ≤ character.code) (upper : character.code < 0x7F) :
    isPrintable character = true := by
  have all : ∀ code < 0x7F, 0x20 ≤ code → inRanges nonPrintableRanges code = false := by decide
  rw [isPrintable, all _ upper lower]
  rfl

theorem printable_of_ascii
    (ascii : text.all (fun character => 0x20 ≤ character.code ∧ character.code < 0x7F) = true) :
    Printable text := by
  intro character inside
  rcases of_decide_eq_true (List.all_eq_true.mp ascii character inside) with ⟨lower, upper⟩
  exact isPrintable_of_ascii lower upper

theorem code_of_isDigit (digit : character.isDigit = true) :
    48 ≤ character.code ∧ character.code ≤ 57 := by
  cases character with
  | char value =>
      simp only [Symbol.isDigit, Char.isDigit, Bool.and_eq_true, decide_eq_true_eq] at digit
      exact digit
  | stray byte => cases digit

theorem isPrintable_of_isDigit (digit : character.isDigit = true) :
    isPrintable character = true := by
  rcases code_of_isDigit digit with ⟨lower, upper⟩
  exact isPrintable_of_ascii (by omega) (by omega)

theorem printable_nil : Printable [] :=
  List.forall_mem_nil _

theorem Printable.cons (printable : Printable text) (first : isPrintable character = true) :
    Printable (character :: text) :=
  List.forall_mem_cons.mpr ⟨first, printable⟩

theorem Printable.append (printable : Printable text) (further : Printable rest) :
    Printable (text ++ rest) :=
  List.forall_mem_append.mpr ⟨printable, further⟩

/-- Stray bytes are shown by their code points. -/
theorem isPrintable_stray (byte : Fin 128) : isPrintable (.stray byte) = false := by
  revert byte
  decide +kernel

theorem Printable.unbroken (printable : Printable text) : Unbroken text := by
  intro character inside
  rw [Bool.eq_false_iff]
  intro broken
  have seen := printable character inside
  rcases isBreak_iff.mp broken with rfl | rfl
  · exact absurd seen (by decide)
  · exact absurd seen (by decide)

end MessageTables.Text
