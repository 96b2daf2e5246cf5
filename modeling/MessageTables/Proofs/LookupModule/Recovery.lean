import MessageTables.Proofs.LookupModule.RoundTrip

/-!
# What a lookup module was written from

The text of a module tells what it was written from: the module's name stands in
its documentation, each record in one case for its name and one for its decoder,
and the table's path in a comment, all but its line breaks. `recover` reads the
program and finds them there, for every table.

Texts of modules are therefore the same only for the same name, the same records in
the same order, and paths that differ in their line breaks at most.
-/

namespace MessageTables

namespace Record

/-- The record that gave a code its name and its decoder. -/
def ofCases? (messageType decoder : MatchCase) : Option Record :=
  match messageType, decoder with
  | ⟨.number code, .returns (.text name)⟩, ⟨.number other, .returns (.text decoder)⟩ =>
      if code = other then some ⟨code, name, decoder⟩ else none
  | _, _ => none

/-- The records that gave codes their names and their decoders, case by case. -/
def ofAllCases? : (messageTypes decoders : List MatchCase) → Option (List Record)
  | [], [] => some []
  | messageType :: messageTypes, decoder :: decoders => do
      let record ← ofCases? messageType decoder
      let records ← ofAllCases? messageTypes decoders
      return record :: records
  | _, _ => none

theorem ofCases?_clause (record : Record) :
    ofCases? (Lookup.messageType.clause record).matchCase
      (Lookup.decoder.clause record).matchCase = some record := by
  simp [ofCases?, Lookup.clause, Clause.matchCase]

theorem ofAllCases?_map_clause (records : List Record) :
    ofAllCases? ((records.map Lookup.messageType.clause).map Clause.matchCase)
      ((records.map Lookup.decoder.clause).map Clause.matchCase) = some records := by
  induction records with
  | nil => rfl
  | cons record records ih =>
      simp only [List.map_cons, ofAllCases?, ofCases?_clause, ih, Option.bind_eq_bind,
        Option.bind_some, Option.pure_def]

end Record

theorem Clause.length_lines (clause : Clause) : clause.lines.length = 2 :=
  rfl

theorem Lookup.length_lines (lookup : Lookup) (clauses : List Clause) :
    (lookup.lines clauses).length = 6 + 2 * clauses.length := by
  simp only [lines, List.length_append, List.length_flatMap, Clause.length_lines,
    List.map_const', List.sum_replicate, List.length_cons, List.length_nil, smul_eq_mul]
  omega

namespace LookupModule

theorem length_lines_ofRecords (moduleName : Text) (records : List Record) (source : Text) :
    (ofRecords moduleName records source).lines.length = 25 + 6 * records.length := by
  simp only [lines, headerLines, Lookup.all, List.flatMap_cons, List.flatMap_nil, clauses,
    ofRecords, List.length_append, Lookup.length_lines, List.length_map, List.length_cons,
    List.length_nil]
  omega

/-- The module's name, which its documentation gives. -/
def moduleName? (program : Program) : Option Text :=
  (between? (Text.toList "Message code mappings for ") (Text.toList ".")
    program.documentation.toList).map .ofList

/-- The path of the table, which the second comment gives. -/
def origin? (program : Program) : Option Text :=
  match program.comments with
  | [_, comment] =>
      (between? (Text.toList " ") (Text.toList ". DO NOT EDIT OR COMMIT THIS FILE!")
        comment.toList).map .ofList
  | _ => none

/-- The records that the cases of a module were made of. -/
def records? (program : Program) : Option (List Record) :=
  match program.procedures with
  | [messageTypes, _, decoders] => Record.ofAllCases? messageTypes.cases decoders.cases
  | _ => none

/-- Reads what a module was written from: its name, its records and the path of its table. -/
def recover (written : Text) : Option (Text × List Record × Text) := do
  let program ← Program.read written
  let moduleName ← moduleName? program
  let records ← records? program
  let origin ← origin? program
  return (moduleName, records, origin)

theorem between?_append_text (beginning inside ending : Text) :
    (between? beginning.toList ending.toList (beginning ++ inside ++ ending).toList).map .ofList =
      some inside := by
  rw [Text.toList_append, Text.toList_append, List.append_assoc, between?_append,
    Option.map_some, Text.ofList_toList]

theorem moduleName?_program (moduleName : Text) (records : List Record) (source : Text) :
    moduleName? (ofRecords moduleName records source).program = some moduleName :=
  between?_append_text "Message code mappings for " moduleName "."

theorem origin?_program (module : LookupModule) : origin? module.program = some module.origin :=
  between?_append_text " " module.origin ". DO NOT EDIT OR COMMIT THIS FILE!"

theorem records?_program (moduleName : Text) (records : List Record) (source : Text) :
    records? (ofRecords moduleName records source).program = some records :=
  Record.ofAllCases?_map_clause records

theorem recover_render (moduleName : Text) (records : List Record) (source : Text) :
    recover (render moduleName records source) =
      some (moduleName, records, Text.ofList (Text.joinBreaks source.toList)) := by
  simp only [recover, read_render, moduleName?_program, records?_program, origin?_program,
    Option.bind_eq_bind, Option.bind_some, Option.pure_def]
  rfl

/--
Texts of modules are the same only for the same names and records, and paths that differ in
line breaks at most.
-/
theorem render_injective {moduleName otherName source other : Text}
    {records others : List Record}
    (same : render moduleName records source = render otherName others other) :
    moduleName = otherName ∧ records = others ∧
      Text.joinBreaks source.toList = Text.joinBreaks other.toList := by
  have recovered := congrArg recover same
  rw [recover_render, recover_render] at recovered
  simpa using recovered

/--
A module of `n` records is written in `25 + 6 * n` lines, each ended by a line feed
and without any other break, and what it was written from is recovered from them.
-/
theorem render_recoverable (moduleName : Text) (records : List Record) (source : Text) :
    Symbol.char '\r' ∉ (render moduleName records source).toList ∧
      (∃ lines : List (List Symbol),
        (render moduleName records source).toList = lines.flatMap (· ++ [Symbol.char '\n']) ∧
          (∀ line ∈ lines, Symbol.char '\n' ∉ line) ∧
            lines.length = 25 + 6 * records.length) ∧
      recover (render moduleName records source) =
        some (moduleName, records, Text.ofList (Text.joinBreaks source.toList)) ∧
      ∀ (otherName : Text) (others : List Record) (other : Text),
        render moduleName records source = render otherName others other →
          moduleName = otherName ∧ records = others ∧
            Text.joinBreaks source.toList = Text.joinBreaks other.toList := by
  have text : (render moduleName records source).toList =
      (ofRecords moduleName records source).lines.flatMap (· ++ [Symbol.char '\n']) := rfl
  have unbroken := unbroken_lines moduleName records source
  refine ⟨?_, ⟨_, text, ?_, length_lines_ofRecords moduleName records source⟩,
    recover_render moduleName records source, fun _ _ _ => render_injective⟩
  · rw [text]
    intro inside
    rcases List.mem_flatMap.mp inside with ⟨line, written, within⟩
    rcases List.mem_append.mp within with early | last
    · exact (unbroken line written).not_mem rfl early
    · exact absurd last (by decide)
  · intro line written
    exact (unbroken line written).not_mem rfl

end LookupModule

end MessageTables
