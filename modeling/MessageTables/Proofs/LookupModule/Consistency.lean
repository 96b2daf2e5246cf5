import MessageTables.Proofs.LookupModule.Answers

/-!
# How the lookups of a module agree

A code's name and its decoder come from one row, the first that has the code. A
name leads back to a code in the table, but not always to the code it came from:
the first row with the name may have another code, and the first row with that code
may have another name. The lookups give every row back exactly for unambiguous
tables, whose rows with one code agree on name and decoder and whose rows with one
name agree on the code.

All of this follows from two facts about the first row that has a code or a name:
it is a row of the table that has it, and there is one as soon as any row has it.
-/

namespace MessageTables

namespace Table

variable {records : List Record} {row : Record} {code : Int} {name : Text}

/--
Whether no rows with one code differ in name or decoder, and no rows with one name differ in
code.
-/
structure IsUnambiguous (records : List Record) : Prop where
  ofCode : ∀ row ∈ records, ∀ other ∈ records, row.code = other.code →
    row.name = other.name ∧ row.decoder = other.decoder
  ofName : ∀ row ∈ records, ∀ other ∈ records, row.name = other.name → row.code = other.code

theorem mem_of_rowOfCode? (found : rowOfCode? records (.integer code) = some row) :
    row ∈ records ∧ row.code = code := by
  have same := List.find?_some found
  simp only [Value.number?, decide_eq_true_eq, Option.some.injEq] at same
  exact ⟨List.mem_of_find?_eq_some found, same.symm⟩

theorem exists_rowOfCode? (inside : row ∈ records) :
    ∃ first, rowOfCode? records (.integer row.code) = some first := by
  apply Option.isSome_iff_exists.mp
  apply List.find?_isSome.mpr
  exact ⟨row, inside, by simp [Value.number?]⟩

theorem mem_of_rowOfName? (found : rowOfName? records (.text name) = some row) :
    row ∈ records ∧ row.name = name := by
  have same := List.find?_some found
  simp only [decide_eq_true_eq, Value.text.injEq] at same
  exact ⟨List.mem_of_find?_eq_some found, same.symm⟩

theorem exists_rowOfName? (inside : row ∈ records) :
    ∃ first, rowOfName? records (.text row.name) = some first := by
  apply Option.isSome_iff_exists.mp
  apply List.find?_isSome.mpr
  exact ⟨row, inside, by simp⟩

end Table

namespace LookupModule

/--
Whether the lookups of a program lead from a row's code to its name and decoder, and from
its name to its code.
-/
structure Restores (program : Program) (row : Record) : Prop where
  messageType : program.call "msg_type" (.integer row.code) = some (.value (.text row.name))
  decoder : program.call "decoder_for" (.integer row.code) = some (.value (.text row.decoder))
  messageCode : program.call "msg_code" (.text row.name) = some (.value (.number row.code))

section Calls

variable {moduleName source : Text} {records : List Record} {row : Record} {code : Int}
  {name : Text}

theorem call_of_first (lookup : Lookup) {argument : Value}
    (found : (records.find? fun record => argument.equals (lookup.clause record).pattern) =
      some row) :
    (ofRecords moduleName records source).program.call lookup.symbol argument =
      some (.value (lookup.clause row).answer) := by
  rw [call_program, found]

theorem call_of_none (lookup : Lookup) {argument : Value}
    (found : (records.find? fun record => argument.equals (lookup.clause record).pattern) = none) :
    (ofRecords moduleName records source).program.call lookup.symbol argument =
      some (lookup.ending.reaction.answer argument) := by
  rw [call_program, found]

theorem calls_of_rowOfCode? (found : Table.rowOfCode? records (.integer code) = some row) :
    (ofRecords moduleName records source).program.call "msg_type" (.integer code) =
        some (.value (.text row.name)) ∧
      (ofRecords moduleName records source).program.call "decoder_for" (.integer code) =
        some (.value (.text row.decoder)) :=
  ⟨call_of_first .messageType found, call_of_first .decoder found⟩

theorem calls_of_rowOfCode?_eq_none (found : Table.rowOfCode? records (.integer code) = none) :
    (ofRecords moduleName records source).program.call "msg_type" (.integer code) =
        some .nothing ∧
      (ofRecords moduleName records source).program.call "decoder_for" (.integer code) =
        some (.unknownKey (.integer code)) :=
  ⟨call_of_none .messageType found, call_of_none .decoder found⟩

theorem call_of_rowOfName? (found : Table.rowOfName? records (.text name) = some row) :
    (ofRecords moduleName records source).program.call "msg_code" (.text name) =
      some (.value (.number row.code)) :=
  call_of_first .messageCode found

/-- A code of the table has a name and a decoder, both from one row with the code. -/
theorem exists_calls_of_mem (inside : row ∈ records) :
    ∃ first ∈ records, first.code = row.code ∧
      (ofRecords moduleName records source).program.call "msg_type" (.integer row.code) =
          some (.value (.text first.name)) ∧
        (ofRecords moduleName records source).program.call "decoder_for" (.integer row.code) =
          some (.value (.text first.decoder)) := by
  rcases Table.exists_rowOfCode? inside with ⟨first, found⟩
  rcases Table.mem_of_rowOfCode? found with ⟨firstInside, same⟩
  exact ⟨first, firstInside, same, calls_of_rowOfCode? found⟩

/-- A name of the table has the code of a row with the name. -/
theorem exists_call_of_mem (inside : row ∈ records) :
    ∃ first ∈ records, first.name = row.name ∧
      (ofRecords moduleName records source).program.call "msg_code" (.text row.name) =
        some (.value (.number first.code)) := by
  rcases Table.exists_rowOfName? inside with ⟨first, found⟩
  rcases Table.mem_of_rowOfName? found with ⟨firstInside, same⟩
  exact ⟨first, firstInside, same, call_of_rowOfName? found⟩

/--
What a code leads to is nothing and no decoder, or the name and the decoder of one row that
has it.
-/
theorem calls_cases (moduleName source : Text) (records : List Record) (code : Int) :
    ((ofRecords moduleName records source).program.call "msg_type" (.integer code) =
          some .nothing ∧
        (ofRecords moduleName records source).program.call "decoder_for" (.integer code) =
          some (.unknownKey (.integer code))) ∨
      ∃ row ∈ records, row.code = code ∧
        (ofRecords moduleName records source).program.call "msg_type" (.integer code) =
            some (.value (.text row.name)) ∧
          (ofRecords moduleName records source).program.call "decoder_for" (.integer code) =
            some (.value (.text row.decoder)) := by
  cases found : Table.rowOfCode? records (.integer code) with
  | none => exact Or.inl (calls_of_rowOfCode?_eq_none found)
  | some row =>
      rcases Table.mem_of_rowOfCode? found with ⟨inside, same⟩
      exact Or.inr ⟨row, inside, same, calls_of_rowOfCode? found⟩

/-- The lookups restore all rows of a table exactly when it is unambiguous. -/
theorem restores_iff :
    (∀ row ∈ records, Restores (ofRecords moduleName records source).program row) ↔
      Table.IsUnambiguous records := by
  constructor
  · intro restores
    constructor
    · intro row inside other otherInside same
      have names := (restores row inside).messageType
      have decoders := (restores row inside).decoder
      rw [same, (restores other otherInside).messageType] at names
      rw [same, (restores other otherInside).decoder] at decoders
      simp only [Option.some.injEq, Answer.value.injEq, Literal.text.injEq] at names decoders
      exact ⟨names.symm, decoders.symm⟩
    · intro row inside other otherInside same
      have codes := (restores row inside).messageCode
      rw [same, (restores other otherInside).messageCode] at codes
      simp only [Option.some.injEq, Answer.value.injEq, Literal.number.injEq] at codes
      exact codes.symm
  · intro unambiguous row inside
    rcases exists_calls_of_mem inside with ⟨first, firstInside, sameCode, messageType, decoder⟩
    rcases exists_call_of_mem inside with ⟨named, namedInside, sameName, messageCode⟩
    have ofCode := unambiguous.ofCode first firstInside row inside sameCode
    have ofName := unambiguous.ofName named namedInside row inside sameName
    rw [ofCode.left] at messageType
    rw [ofCode.right] at decoder
    rw [ofName] at messageCode
    exact ⟨messageType, decoder, messageCode⟩

end Calls

/--
The lookups of the program that the text written for a table is read as agree with
each other. A code has no name exactly when it has no decoder, and otherwise both are
of one row; its name leads to the code of a row with that name, which again has a name
and a decoder. They give every row back exactly when the table is unambiguous.
-/
theorem consistent_of_read_render {text : Text} {source : Option Text}
    {records : List Record} (accepted : Table.parse text source = .ok records)
    (moduleName origin : Text) :
    (∀ record ∈ records, (Text.numeralCharacters record.code).length ≤ Table.digitLimit) ∧
      ∃ program, Program.read (render moduleName records origin) = some program ∧
        (∀ code : Int,
          (program.call "msg_type" (.integer code) = some .nothing ↔
              program.call "decoder_for" (.integer code) =
                some (.unknownKey (.integer code))) ∧
            (program.call "msg_type" (.integer code) ≠ some .nothing →
              ∃ row ∈ records, row.code = code ∧
                program.call "msg_type" (.integer code) = some (.value (.text row.name)) ∧
                program.call "decoder_for" (.integer code) =
                  some (.value (.text row.decoder))) ∧
            ∀ name, program.call "msg_type" (.integer code) = some (.value (.text name)) →
              ∃ row ∈ records, row.name = name ∧
                program.call "msg_code" (.text name) = some (.value (.number row.code)) ∧
                ∃ other ∈ records, other.code = row.code ∧
                  program.call "msg_type" (.integer row.code) =
                    some (.value (.text other.name)) ∧
                  program.call "decoder_for" (.integer row.code) =
                    some (.value (.text other.decoder))) ∧
        ((∀ row ∈ records, Restores program row) ↔ Table.IsUnambiguous records) := by
  constructor
  · intro record inside
    exact Table.length_numeralCharacters_code_le accepted inside
  · refine ⟨_, read_render moduleName records origin, ?_, restores_iff⟩
    intro code
    rcases calls_cases moduleName origin records code with
      ⟨nothing, unknown⟩ | ⟨row, inside, same, messageType, decoder⟩
    · rw [nothing, unknown]
      refine ⟨by simp, fun absent => absurd rfl absent, ?_⟩
      rintro name ⟨⟩
    · rw [messageType, decoder]
      refine ⟨by simp, fun _ => ⟨row, inside, same, rfl, rfl⟩, ?_⟩
      rintro name ⟨⟩
      rcases exists_call_of_mem inside with ⟨named, namedInside, sameName, messageCode⟩
      exact ⟨named, namedInside, sameName, messageCode, exists_calls_of_mem namedInside⟩

/-- A name that leads from one code to another one, where a third row answers. -/
theorem consistent_of_read_render_third_row :
    ∃ records program,
      Table.parse "1,c,p\n1,d,q\n2,d,r" none = .ok records ∧
        Program.read (render "m" records "m.csv") = some program ∧
        (program.call "msg_type" (.integer 2) = some .nothing ↔
          program.call "decoder_for" (.integer 2) = some (.unknownKey (.integer 2))) ∧
        ¬∀ row ∈ records, Restores program row := by
  have accepted : Table.parse "1,c,p\n1,d,q\n2,d,r" none =
      .ok [⟨1, "c", "p_pb"⟩, ⟨1, "d", "q_pb"⟩, ⟨2, "d", "r_pb"⟩] := by decide
  rcases consistent_of_read_render accepted "m" "m.csv" with ⟨_, program, read, calls, restores⟩
  refine ⟨_, program, accepted, read, (calls 2).left, ?_⟩
  rw [restores]
  intro unambiguous
  have names := unambiguous.ofCode ⟨1, "c", "p_pb"⟩ (by simp) ⟨1, "d", "q_pb"⟩ (by simp) rfl
  exact absurd names.left (by decide)

end LookupModule

end MessageTables
