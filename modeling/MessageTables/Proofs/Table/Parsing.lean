import MessageTables.Proofs.Text.Lines
import MessageTables.Proofs.Text.Numeral
import MessageTables.Table.Parser

/-!
# What reading a table gives

Every record comes from one line, so a property of the records of single lines
is a property of all records of a table. Two texts with the same lines are the
same table; so it makes no difference whether breaks are unified before.
-/

namespace MessageTables.Table

theorem parse_unifyBreaks (text : List Symbol) (source : Option Text) :
    parse (Text.ofList (Text.unifyBreaks text)) source =
      parse (Text.ofList text) source := by
  simp only [parse, Text.lines_unifyBreaks]

theorem exists_readLine_of_mem_readLines {source : Option Text} {number : Nat}
    {lines : List (List Symbol)} {records : List Record}
    (accepted : readLines source number lines = .ok records) {record : Record}
    (inside : record ∈ records) :
    ∃ position, ∃ line ∈ lines, readLine position line = .ok record := by
  induction lines generalizing number records with
  | nil =>
      cases accepted
      cases inside
  | cons line rest ih =>
      rw [readLines] at accepted
      split at accepted
      · rcases ih accepted inside with ⟨position, other, later, read⟩
        exact ⟨position, other, List.mem_cons_of_mem _ later, read⟩
      split at accepted
      · cases accepted
      · rename_i first read
        split at accepted
        · cases accepted
        · rename_i others readRest
          cases accepted
          rcases List.mem_cons.mp inside with rfl | later
          · exact ⟨_, line, List.mem_cons_self, read⟩
          · rcases ih readRest later with ⟨position, other, below, readOther⟩
            exact ⟨position, other, List.mem_cons_of_mem _ below, readOther⟩

theorem readLine_eq_ok {position : Position} {line : List Symbol} {record : Record}
    (read : readLine position line = .ok record) :
    ∃ code name protocol, fields line = [code, name, protocol] ∧
      Text.isDigits code = true ∧ code.length ≤ digitLimit ∧
      record = ⟨Text.digitsValue code, Text.ofList name,
        Record.decoderOf (Text.ofList protocol)⟩ := by
  unfold readLine at read
  split at read
  · rename_i code name protocol shape
    unfold readFields at read
    split at read
    · cases read
    split at read
    · cases read
    · rename_i digits short
      cases read
      exact ⟨code, name, protocol, shape, by simpa using digits, by omega, rfl⟩
  · cases read

/-- The code of a record has no more digits than the limit for the codes that are read. -/
theorem length_numeralCharacters_code_le {text : Text} {source : Option Text}
    {records : List Record} (accepted : parse text source = .ok records) {record : Record}
    (inside : record ∈ records) :
    (Text.numeralCharacters record.code).length ≤ digitLimit := by
  rcases exists_readLine_of_mem_readLines accepted inside with ⟨position, line, _, read⟩
  rcases readLine_eq_ok read with ⟨code, name, protocol, _, digits, short, rfl⟩
  exact (Text.length_numeralCharacters_digitsValue_le digits).trans short

end MessageTables.Table
