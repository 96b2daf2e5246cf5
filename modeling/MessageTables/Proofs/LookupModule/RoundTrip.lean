import MessageTables.LookupModule.Printer
import MessageTables.LookupModule.Reader
import MessageTables.Proofs.Text.Lines
import MessageTables.Proofs.Text.Numeral
import MessageTables.Proofs.Text.Pieces
import MessageTables.Proofs.Text.Quoted

/-!
# A lookup module is a program

Reading the text of a lookup module gives a program, `LookupModule.program`: two
comments, the documentation, the exports, and one procedure for each lookup.

Nothing that comes from a table holds a line break once it is written, so cutting
the text at its breaks gives the lines that were written, and the rows of lines
between empty ones are the heading, two single lines and the lookups. Then each
part is read from its own lines: a constant from its characters, a case from two
lines, and the cases of a procedure by induction, where the line for every argument
is not taken for a case because no constant is written as an underscore.
-/

namespace MessageTables

theorem between?_append (beginning inside ending : List Symbol) :
    between? beginning ending (beginning ++ (inside ++ ending)) = some inside := by
  have front : beginning.isPrefixOf? (beginning ++ (inside ++ ending)) =
      some (inside ++ ending) := List.isPrefixOf?_eq_some_iff_append_eq.mpr rfl
  have back : ending.isSuffixOf? (inside ++ ending) = some inside :=
    List.isSuffixOf?_eq_some_iff_append_eq.mpr rfl
  simp only [between?, front, back]

theorem between?_append_nil (beginning inside : List Symbol) :
    between? beginning [] (beginning ++ inside) = some inside := by
  have unended := between?_append beginning inside []
  rwa [List.append_nil] at unended

/-! ## What modules are as programs -/

namespace Clause

/-- A clause as a case. -/
def matchCase (clause : Clause) : MatchCase :=
  ⟨clause.pattern, .returns clause.answer⟩

end Clause

namespace Ending

/-- What an ending does, as the reaction of a case. -/
def reaction : Ending → Reaction
  | nothing => .returnsNothing
  | unknownKey => .raisesUnknownKey

end Ending

namespace Lookup

/-- A lookup with the given clauses as a procedure. -/
def procedure (lookup : Lookup) (clauses : List Clause) : Procedure where
  name := lookup.symbol
  parameter := lookup.parameter
  cases := clauses.map Clause.matchCase
  otherwise := some lookup.ending.reaction

end Lookup

namespace LookupModule

/-- A module as a program. -/
def program (module : LookupModule) : Program where
  comments := [
    " This module contains message code mappings generated from",
    " " ++ module.origin ++ ". DO NOT EDIT OR COMMIT THIS FILE!"]
  documentation := module.documentation
  exports := module.exports
  procedures := Lookup.all.map fun lookup => lookup.procedure (module.clauses lookup)

end LookupModule

/-! ## Constants -/

namespace Literal

theorem read_characters (literal : Literal) : read literal.characters = some literal := by
  cases literal with
  | number value =>
      rcases Text.numeralCharacters_eq_cons value with ⟨first, rest, shape, start⟩
      have noQuote : ¬(first = '\'' ∨ first = '"') := by
        rcases start with digit | minus
        · rintro (rfl | rfl) <;> exact absurd digit (by decide)
        · subst minus
          decide
      have unquoted : Text.unquote (Text.numeralCharacters value) = none := by
        rw [shape, Text.unquote, if_neg noQuote]
      simp only [read, characters, unquoted, Text.readNumeral_numeralCharacters]
  | text value =>
      simp only [read, characters, Text.unquote_quoteCharacters, Text.ofList_toList]

theorem printable_characters (literal : Literal) : Text.Printable literal.characters := by
  cases literal with
  | number value => exact Text.printable_numeralCharacters value
  | text value => exact Text.printable_quoteCharacters value.toList

/-- What is read as no constant is none that is written. -/
theorem characters_ne {written : List Symbol} (unread : read written = none) (literal : Literal) :
    literal.characters ≠ written := by
  rintro rfl
  rw [read_characters] at unread
  cases unread

end Literal

/-! ## Cases -/

namespace Clause

variable (clause : Clause)

theorem read_answerLine (parameter : List Symbol) :
    Reaction.read parameter (answerLine clause.answer.characters) =
      some (.returns clause.answer) := by
  have returned : between? (Text.toList "            return ") []
      (answerLine clause.answer.characters) = some clause.answer.characters :=
    between?_append_nil _ _
  have something : clause.answer.characters ≠ Text.toList "None" :=
    clause.answer.characters_ne (by decide)
  simp only [Reaction.read, returned, if_neg something, Literal.read_characters, Option.map_some]

theorem between?_caseLine (pattern : List Symbol) :
    between? (Text.toList "        case ") (Text.toList ":") (caseLine pattern) = some pattern := by
  rw [caseLine, List.append_assoc]
  exact between?_append _ _ _

theorem printable_lines : ∀ line ∈ clause.lines, Text.Printable line := by
  have beginning : Text.Printable caseBeginning := Text.printable_of_ascii (by decide)
  have ending : Text.Printable caseEnding := Text.printable_of_ascii (by decide)
  have answer : Text.Printable answerBeginning := Text.printable_of_ascii (by decide)
  intro line inside
  simp only [lines, List.mem_cons, List.not_mem_nil, or_false] at inside
  rcases inside with rfl | rfl
  · exact (beginning.append clause.pattern.printable_characters).append ending
  · exact answer.append clause.answer.printable_characters

theorem nonempty_lines : ∀ line ∈ clause.lines, line ≠ [] := by
  intro line inside
  simp only [lines, List.mem_cons, List.not_mem_nil, or_false] at inside
  rcases inside with rfl | rfl <;> exact List.cons_ne_nil _ _

end Clause

namespace Lookup

variable (lookup : Lookup) (clauses : List Clause)

theorem read_endingLine :
    Reaction.read (Text.toList lookup.parameter) lookup.endingLine =
      some lookup.ending.reaction := by
  cases lookup <;> decide

theorem readDefinition_definitionLine :
    Procedure.readDefinition lookup.definitionLine =
      some (lookup.symbol.toList, lookup.parameter.toList) := by
  cases lookup <;> decide

theorem between?_matchLine :
    between? (Text.toList "    match ") (Text.toList ":") lookup.matchLine =
      some lookup.parameter.toList := by
  cases lookup <;> decide

theorem readCases_lines :
    Procedure.readCases lookup.parameter.toList
        (clauses.flatMap Clause.lines ++ [otherwiseLine, lookup.endingLine]) =
      some (clauses.map Clause.matchCase, some lookup.ending.reaction) := by
  induction clauses with
  | nil =>
      simp only [List.flatMap_nil, List.nil_append, Procedure.readCases, otherwiseLine,
        Clause.between?_caseLine, read_endingLine, Option.bind_eq_bind, Option.bind_some,
        if_true, Option.pure_def, List.map_nil]
  | cons clause clauses ih =>
      have constant : clause.pattern.characters ≠ Text.toList "_" :=
        clause.pattern.characters_ne (by decide)
      simp only [List.flatMap_cons, Clause.lines, List.cons_append, List.nil_append,
        Procedure.readCases, Clause.between?_caseLine, Clause.read_answerLine, if_neg constant,
        Literal.read_characters, ih, Option.bind_eq_bind, Option.bind_some, Option.pure_def,
        List.map_cons]
      rfl

/-- The lines of a lookup, without the empty lines in front. -/
def filledLines : List (List Symbol) :=
  lookup.definitionLine :: lookup.matchLine ::
    (clauses.flatMap Clause.lines ++ [otherwiseLine, lookup.endingLine])

theorem lines_eq : lookup.lines clauses = [[], []] ++ lookup.filledLines clauses := by
  simp only [lines, filledLines, List.cons_append, List.nil_append]

theorem read_filledLines :
    Procedure.read (lookup.filledLines clauses) = some (lookup.procedure clauses) := by
  have cases := lookup.readCases_lines clauses
  -- There is a line behind the first two whatever the clauses are.
  obtain ⟨first, rest, shape⟩ : ∃ first rest,
      clauses.flatMap Clause.lines ++ [otherwiseLine, lookup.endingLine] = first :: rest :=
    List.exists_cons_of_ne_nil (List.append_ne_nil_of_right_ne_nil _ (List.cons_ne_nil _ _))
  rw [shape] at cases
  rw [filledLines, shape]
  simp only [Procedure.read, readDefinition_definitionLine, between?_matchLine, cases,
    Option.bind_eq_bind, Option.bind_some, if_true, Option.pure_def]
  rfl

theorem nonempty_filledLines : ∀ line ∈ lookup.filledLines clauses, line ≠ [] := by
  have fixed : ∀ line ∈ [lookup.definitionLine, lookup.matchLine, otherwiseLine,
      lookup.endingLine], line ≠ [] := by
    cases lookup <;> decide
  intro line inside
  simp only [filledLines, List.mem_cons, List.mem_append, List.mem_flatMap, List.not_mem_nil,
    or_false] at inside
  rcases inside with rfl | rfl | ⟨clause, _, within⟩ | rfl | rfl
  · exact fixed _ (by simp)
  · exact fixed _ (by simp)
  · exact clause.nonempty_lines line within
  · exact fixed _ (by simp)
  · exact fixed _ (by simp)

theorem printable_lines : ∀ line ∈ lookup.lines clauses, Text.Printable line := by
  have definition : Text.Printable lookup.definitionLine := by
    cases lookup <;> exact Text.printable_of_ascii (by decide)
  have matching : Text.Printable lookup.matchLine := by
    cases lookup <;> exact Text.printable_of_ascii (by decide)
  have otherwise : Text.Printable otherwiseLine := Text.printable_of_ascii (by decide)
  have ending : Text.Printable lookup.endingLine := by
    cases lookup <;> exact Text.printable_of_ascii (by decide)
  intro line inside
  simp only [lines_eq, filledLines, List.cons_append, List.nil_append, List.mem_cons,
    List.mem_append, List.mem_flatMap, List.not_mem_nil, or_false] at inside
  rcases inside with rfl | rfl | rfl | rfl | ⟨clause, _, within⟩ | rfl | rfl
  · exact Text.printable_nil
  · exact Text.printable_nil
  · exact definition
  · exact matching
  · exact clause.printable_lines line within
  · exact otherwise
  · exact ending

end Lookup

/-! ## Modules -/

namespace Program

/-- The rows of lines between empty lines are pieces. -/
theorem blocks_eq_pieces (lines : List (List Symbol)) :
    blocks lines = Text.pieces List.isEmpty lines :=
  rfl

theorem blocks_cons_nil (rest : List (List Symbol)) : blocks ([] :: rest) = blocks rest :=
  Text.pieces_cons_of_separator rfl rest

theorem blocks_append {block : List (List Symbol)} (some : block ≠ [])
    (filled : ∀ line ∈ block, line ≠ []) (rest : List (List Symbol)) :
    blocks (block ++ [] :: rest) = block :: blocks rest := by
  have isPiece : Text.IsPiece List.isEmpty block :=
    ⟨some, fun line inside => List.isEmpty_eq_false_iff.mpr (filled line inside)⟩
  have apart : Text.StartsApart List.isEmpty ([] :: rest) := by
    rintro line ⟨⟩
    rfl
  rw [blocks_eq_pieces, Text.pieces_append isPiece apart, ← blocks_eq_pieces, blocks_cons_nil]

theorem readComment_cons (comment : List Symbol) :
    readComment ('#' :: comment) = some (Text.ofList comment) := by
  have behind : between? (Text.toList "#") [] ('#' :: comment) = some comment :=
    between?_append_nil _ _
  rw [readComment, behind, Option.map_some]

end Program

namespace LookupModule

variable (moduleName : Text) (records : List Record) (source : Text)

theorem readExports_exportsLine :
    Program.readExports (exportsLine (Lookup.all.map Lookup.symbol)) =
      some (Lookup.all.map Lookup.symbol) := by
  decide +kernel

/-- Only the line that names the table can hold something that is not printable. -/
theorem printable_or_eq_originLine {line : List Symbol}
    (inside : line ∈ (ofRecords moduleName records source).lines) :
    Text.Printable line ∨ line = originLine (Text.joinBreaks source.toList) := by
  rcases List.mem_append.mp inside with header | lookup
  · simp only [headerLines, List.mem_cons, List.not_mem_nil, or_false] at header
    rcases header with rfl | rfl | rfl | rfl | rfl | rfl | rfl
    · exact Or.inl (Text.printable_of_ascii (by decide))
    · exact Or.inr rfl
    · exact Or.inl (Text.printable_quoteCharacters _)
    · exact Or.inl Text.printable_nil
    · exact Or.inl (Text.printable_of_ascii (by decide))
    · exact Or.inl Text.printable_nil
    · have exports : Text.Printable (exportsLine (Lookup.all.map Lookup.symbol)) :=
        Text.printable_of_ascii (by decide)
      exact Or.inl exports
  · rcases List.mem_flatMap.mp lookup with ⟨lookup, _, within⟩
    exact Or.inl (lookup.printable_lines _ line within)

theorem unbroken_lines :
    ∀ line ∈ (ofRecords moduleName records source).lines, Text.Unbroken line := by
  intro line inside
  rcases printable_or_eq_originLine moduleName records source inside with printable | rfl
  · exact printable.unbroken
  · have beginning : Text.Unbroken originBeginning := by decide
    have ending : Text.Unbroken originEnding := by decide
    exact (beginning.append (Text.unbroken_joinBreaks _)).append ending

theorem lines_render :
    Text.lines (render moduleName records source).toList =
      (ofRecords moduleName records source).lines ++ [[]] := by
  rw [render, text, Text.toList_ofList,
    Text.lines_flatMap_lineFeed (unbroken_lines moduleName records source)]

variable {moduleName records source}

/-- The lines of the heading: the two comments and the documentation. -/
def heading (module : LookupModule) : List (List Symbol) :=
  [noticeLine, originLine module.origin.toList,
    Text.quoteCharacters module.documentation.toList]

theorem blocks_lines (module : LookupModule) :
    Program.blocks (module.lines ++ [[]]) =
      module.heading :: [importLine] :: [exportsLine module.exports] ::
        Lookup.all.map fun lookup => lookup.filledLines (module.clauses lookup) := by
  have shape : module.lines ++ [[]] =
      module.heading ++ [] :: ([importLine] ++ [] :: ([exportsLine module.exports] ++ [] ::
        [] :: (Lookup.messageType.filledLines (module.clauses .messageType) ++ [] ::
          [] :: (Lookup.messageCode.filledLines (module.clauses .messageCode) ++ [] ::
            [] :: (Lookup.decoder.filledLines (module.clauses .decoder) ++ [] :: []))))) := by
    simp only [lines, headerLines, heading, Lookup.all, List.flatMap_cons, List.flatMap_nil,
      Lookup.lines_eq, List.cons_append, List.nil_append, List.append_nil, List.append_assoc]
  have heading (rest : List (List Symbol)) :
      Program.blocks (module.heading ++ [] :: rest) = module.heading :: Program.blocks rest := by
    refine Program.blocks_append (List.cons_ne_nil _ _) (fun line inside => ?_) rest
    simp only [List.mem_cons, List.not_mem_nil, or_false] at inside
    rcases inside with rfl | rfl | rfl <;> exact List.cons_ne_nil _ _
  have single {line : List Symbol} (filled : line ≠ []) (rest : List (List Symbol)) :
      Program.blocks ([line] ++ [] :: rest) = [line] :: Program.blocks rest :=
    Program.blocks_append (List.cons_ne_nil _ _) (by simpa using filled) rest
  have lookup (lookup : Lookup) (rest : List (List Symbol)) :
      Program.blocks (lookup.filledLines (module.clauses lookup) ++ [] :: rest) =
        lookup.filledLines (module.clauses lookup) :: Program.blocks rest :=
    Program.blocks_append (List.cons_ne_nil _ _) (lookup.nonempty_filledLines _) rest
  have feature : importLine ≠ [] := List.cons_ne_nil _ _
  have exports : exportsLine module.exports ≠ [] := List.cons_ne_nil _ _
  rw [shape, heading, single feature, single exports, Program.blocks_cons_nil, lookup,
    Program.blocks_cons_nil, lookup, Program.blocks_cons_nil, lookup]
  rfl

theorem readComments_heading (module : LookupModule) :
    module.heading.dropLast.mapM Program.readComment = some module.program.comments := by
  have notice : Program.readComment noticeLine =
      some " This module contains message code mappings generated from" :=
    Program.readComment_cons _
  have origin : Program.readComment (originLine module.origin.toList) =
      some (" " ++ module.origin ++ ". DO NOT EDIT OR COMMIT THIS FILE!") :=
    Program.readComment_cons (' ' :: (module.origin.toList ++ originEnding))
  have comments : module.heading.dropLast =
      [noticeLine, originLine module.origin.toList] := rfl
  rw [comments]
  simp only [List.mapM_cons, List.mapM_nil, notice, origin, Option.bind_eq_bind,
    Option.bind_some, Option.pure_def]
  rfl

theorem readProcedures_filledLines (module : LookupModule) :
    (Lookup.all.map fun lookup => lookup.filledLines (module.clauses lookup)).mapM
      Procedure.read = some module.program.procedures := by
  simp only [Lookup.all, List.map_cons, List.map_nil, List.mapM_cons, List.mapM_nil,
    Lookup.read_filledLines, Option.bind_eq_bind, Option.bind_some, Option.pure_def]
  rfl

/-- The text of a lookup module says what the module is as a program. -/
theorem read_render (moduleName : Text) (records : List Record) (source : Text) :
    Program.read (render moduleName records source) =
      some (ofRecords moduleName records source).program := by
  have feature : importLine = Text.toList "from __future__ import annotations" := rfl
  have documentation : (ofRecords moduleName records source).heading.getLast? =
      some (Text.quoteCharacters (documentationOf moduleName).toList) := rfl
  have exports : Program.readExports (exportsLine (ofRecords moduleName records source).exports) =
      some (ofRecords moduleName records source).exports := readExports_exportsLine
  rw [Program.read, lines_render, blocks_lines]
  simp only [feature, if_true, documentation, Text.unquote_quoteCharacters, readComments_heading,
    exports, readProcedures_filledLines, Option.bind_eq_bind, Option.bind_some, Option.pure_def]
  rfl

end LookupModule

end MessageTables
