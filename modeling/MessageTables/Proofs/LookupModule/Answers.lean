import MessageTables.Proofs.LookupModule.RoundTrip
import MessageTables.Proofs.Table.Parsing

/-!
# What the module of a table answers

A table answers by its rows: the first row that has a code gives the code's name
and decoder, and the first row that has a name gives the name's code. The program
that the text written for a table is read as answers the same, for every argument
of its three procedures. Where no row has the argument, a name is missing and
everything else is an error that gives the argument back.
-/

namespace MessageTables

namespace Table

/-- The first row whose code equals a value. A truth value equals one or zero. -/
def rowOfCode? (records : List Record) (argument : Value) : Option Record :=
  records.find? fun record => argument.number? = some record.code

/-- The first row whose name equals a value. -/
def rowOfName? (records : List Record) (argument : Value) : Option Record :=
  records.find? fun record => argument = .text record.name

end Table

theorem Lookup.symbol_inj {one other : Lookup} : one.symbol = other.symbol ↔ one = other := by
  cases one <;> cases other <;> decide

namespace LookupModule

theorem clauses_ofRecords (moduleName : Text) (records : List Record) (source : Text)
    (lookup : Lookup) :
    (ofRecords moduleName records source).clauses lookup = records.map lookup.clause := by
  cases lookup <;> rfl

/-- A lookup is called by its symbol. -/
theorem procedure?_symbol (module : LookupModule) (lookup : Lookup) :
    module.program.procedure? lookup.symbol =
      some (lookup.procedure (module.clauses lookup)) := by
  cases lookup <;>
    simp [Program.procedure?, program, Lookup.all, Lookup.procedure, Lookup.symbol_inj]

theorem call_program (moduleName : Text) (records : List Record) (source : Text)
    (lookup : Lookup) (argument : Value) :
    (ofRecords moduleName records source).program.call lookup.symbol argument =
      some (match records.find? fun record => argument.equals (lookup.clause record).pattern with
        | some row => .value (lookup.clause row).answer
        | none => lookup.ending.reaction.answer argument) := by
  rw [Program.call, procedure?_symbol, Option.map_some, Procedure.reaction, Lookup.procedure,
    clauses_ofRecords, List.map_map, List.find?_map]
  simp only [Function.comp_def, Clause.matchCase]
  cases records.find? fun record => argument.equals (lookup.clause record).pattern with
  | none => rfl
  | some row => rfl

/--
The program that the text written for a table is read as answers every argument by
the first row that has it. Its numerals keep to the limit for the digits of codes,
so none of them is too long to be read.
-/
theorem call_of_read_render {text : Text} {source : Option Text} {records : List Record}
    (accepted : Table.parse text source = .ok records) (moduleName origin : Text) :
    (∀ record ∈ records, (Text.numeralCharacters record.code).length ≤ Table.digitLimit) ∧
      ∃ program, Program.read (render moduleName records origin) = some program ∧
        ∀ argument : Value,
          program.call "msg_type" argument =
              some (match Table.rowOfCode? records argument with
                | some row => .value (.text row.name)
                | none => .nothing) ∧
            program.call "decoder_for" argument =
              some (match Table.rowOfCode? records argument with
                | some row => .value (.text row.decoder)
                | none => .unknownKey argument) ∧
            program.call "msg_code" argument =
              some (match Table.rowOfName? records argument with
                | some row => .value (.number row.code)
                | none => .unknownKey argument) := by
  constructor
  · intro record inside
    exact Table.length_numeralCharacters_code_le accepted inside
  · refine ⟨_, read_render moduleName records origin, ?_⟩
    intro argument
    exact ⟨call_program moduleName records origin .messageType argument,
      call_program moduleName records origin .decoder argument,
      call_program moduleName records origin .messageCode argument⟩

/-- A repeated code, a repeated name and a name with both quotes, called with a truth value. -/
theorem call_of_read_render_repeated :
    ∃ records program,
      Table.parse "01,a'\"b,p\r1,c,q\n2,a'\"b,r" none = .ok records ∧
        Program.read (render "m" records "m.csv") = some program ∧
        program.call "msg_type" (.truth true) = some (.value (.text "a'\"b")) ∧
        program.call "decoder_for" (.integer 1) = some (.value (.text "p_pb")) ∧
        program.call "msg_code" (.text "a'\"b") = some (.value (.number 1)) ∧
        program.call "decoder_for" (.text "c") = some (.unknownKey (.text "c")) := by
  have accepted : Table.parse "01,a'\"b,p\r1,c,q\n2,a'\"b,r" none =
      .ok [⟨1, "a'\"b", "p_pb"⟩, ⟨1, "c", "q_pb"⟩, ⟨2, "a'\"b", "r_pb"⟩] := by decide
  rcases call_of_read_render accepted "m" "m.csv" with ⟨_, program, read, answers⟩
  refine ⟨_, program, accepted, read, ?_, ?_, ?_, ?_⟩
  · rw [(answers _).1]
    decide
  · rw [(answers _).2.1]
    decide
  · rw [(answers _).2.2]
    decide
  · rw [(answers _).2.1]
    decide

end LookupModule

end MessageTables
