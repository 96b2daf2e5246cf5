import MessageTables.Generator
import MessageTables.Proofs.Path.Plain
import MessageTables.Proofs.Text.Spelling

/-!
# Where modules go

The name of a module is a part of a path, since it is that of a table with another
ending. So a module goes into the output directory itself, and two tables have
the same module exactly when their modules have the same file name.
-/

namespace MessageTables

namespace Generator

theorem mem_name_of_mem_moduleName {generator : Generator} {table : Path} {character : Symbol}
    (inside : character ∈ (generator.moduleName table).toList) :
    character ∈ table.name.toList := by
  rw [moduleName] at inside
  split at inside
  · rename_i stem cut
    rw [Text.toList_ofList] at inside
    rw [← List.isSuffixOf?_eq_some_iff_append_eq.mp cut]
    exact List.mem_append_left _ inside
  · exact inside

theorem slash_not_mem_moduleName (generator : Generator) (table : Path) :
    Symbol.char '/' ∉ (generator.moduleName table).toList :=
  fun inside => table.slash_not_mem_name (mem_name_of_mem_moduleName inside)

theorem isDecoded_name (table : Path) : table.name.IsDecoded := by
  rw [Path.name]
  split
  · decide
  · rename_i part _
    exact part.isPart.2.2.2

theorem isDecoded_moduleName (generator : Generator) (table : Path) :
    (generator.moduleName table).IsDecoded := by
  rw [moduleName]
  split
  · rename_i stem cut
    have whole : Text.isDecoded table.name.toList = true := isDecoded_name table
    rw [← List.isSuffixOf?_eq_some_iff_append_eq.mp cut] at whole
    exact Text.isDecoded_of_append whole
  · exact isDecoded_name table

/--
Whether a text makes a file name of every stem that it is put behind: it has no slash, and
not only dots.
-/
def IsEnding (text : Text) : Prop :=
  Symbol.char '/' ∉ text.toList ∧ ∃ character ∈ text.toList, character ≠ '.'

instance (text : Text) : Decidable (IsEnding text) :=
  @instDecidableAnd _ _ inferInstance (List.decidableBEx _ text.toList)

section Endings

variable {stem : Text} {ending : String} (isEnding : IsEnding ending)

include isEnding

theorem append_ne_dots {dots : Text} (only : ∀ character ∈ dots.toList, character = '.') :
    stem ++ ending ≠ dots := by
  rintro rfl
  rcases isEnding.2 with ⟨character, inside, noDot⟩
  refine noDot (only character ?_)
  rw [Text.toList_append]
  exact List.mem_append_right _ inside

theorem isPart_append (outside : Symbol.char '/' ∉ stem.toList) (decoded : stem.IsDecoded) :
    IsPart (stem ++ ending) := by
  refine ⟨append_ne_dots isEnding (by simp), append_ne_dots isEnding (by simp), ?_,
    decoded.append_ofString ending⟩
  rw [Text.toList_append, List.mem_append, not_or]
  exact ⟨outside, isEnding.1⟩

end Endings

/-- The file name of the module of a table, given that file names may end so. -/
def outputFile (generator : Generator) (isEnding : IsEnding generator.outputSuffix)
    (table : Path) : Part :=
  ⟨generator.moduleName table ++ generator.outputSuffix,
    isPart_append isEnding (slash_not_mem_moduleName generator table)
      (isDecoded_moduleName generator table)⟩

section OutputFile

variable {generator : Generator} (isEnding : IsEnding generator.outputSuffix)

theorem output_eq_child_outputFile (table directory : Path) :
    generator.output table directory = directory.child (generator.outputFile isEnding table) := by
  have read := Path.ofText_part (generator.outputFile isEnding table).isPart
  exact congrArg directory.join read

theorem outputFile_ne_up (table : Path) : generator.outputFile isEnding table ≠ Part.up := by
  intro same
  have texts : generator.moduleName table ++ generator.outputSuffix = ".." :=
    congrArg Part.text same
  exact append_ne_dots isEnding (by simp) texts

theorem outputFile_eq_iff {table other : Path} :
    generator.outputFile isEnding table = generator.outputFile isEnding other ↔
      generator.moduleName table = generator.moduleName other := by
  constructor
  · intro same
    have texts : generator.moduleName table ++ generator.outputSuffix =
        generator.moduleName other ++ generator.outputSuffix := congrArg Part.text same
    rw [← Text.toList_inj, Text.toList_append, Text.toList_append] at texts
    exact Text.toList_inj.mp (List.append_cancel_right texts)
  · intro same
    exact Part.ext (congrArg (· ++ Text.ofString generator.outputSuffix) same)

include isEnding in
theorem output_eq_iff_moduleName_eq {table other directory : Path} :
    generator.output table directory = generator.output other directory ↔
      generator.moduleName table = generator.moduleName other := by
  rw [output_eq_child_outputFile isEnding, output_eq_child_outputFile isEnding,
    Path.child_eq_child_iff, outputFile_eq_iff]

end OutputFile

theorem isEnding_py : IsEnding ".py" := by
  decide

theorem isPart_moduleFile (table : Path) :
    IsPart (messageCodes.moduleName table ++ ".py") :=
  isPart_append isEnding_py (slash_not_mem_moduleName messageCodes table)
    (isDecoded_moduleName messageCodes table)

/-- The file name of the module of a table. -/
def moduleFile (table : Path) : Part :=
  ⟨messageCodes.moduleName table ++ ".py", isPart_moduleFile table⟩

theorem output_eq_child (table directory : Path) :
    messageCodes.output table directory = directory.child (moduleFile table) :=
  output_eq_child_outputFile isEnding_py table directory

theorem output_eq_output_iff {table other directory : Path} :
    messageCodes.output table directory = messageCodes.output other directory ↔
      moduleFile table = moduleFile other := by
  rw [output_eq_child, output_eq_child, Path.child_eq_child_iff]

/-! ## Tables with the suffix of tables -/

theorem moduleFile_ne_up (table : Path) : moduleFile table ≠ Part.up :=
  outputFile_ne_up isEnding_py table

/-- What a name is cut to and what is cut off are the name. -/
theorem moduleName_append_inputSuffix {generator : Generator} {table : Path}
    (ending : (generator.inputSuffix : Text).toList <:+ table.name.toList) :
    generator.moduleName table ++ generator.inputSuffix = table.name := by
  rcases ending with ⟨stem, whole⟩
  have cut : (generator.inputSuffix : Text).toList.isSuffixOf? table.name.toList = some stem :=
    List.isSuffixOf?_eq_some_iff_append_eq.mpr whole
  have read : generator.moduleName table = Text.ofList stem := by
    rw [moduleName, cut]
  rw [read, ← Text.toList_inj, Text.toList_append, Text.toList_ofList, whole]

theorem moduleName_append {table : Path} (ending : (".csv" : Text).toList <:+ table.name.toList) :
    messageCodes.moduleName table ++ ".csv" = table.name :=
  moduleName_append_inputSuffix ending

/-- Tables with the suffix of tables have the same module only if they have the same file name. -/
theorem name_eq_of_moduleFile_eq {table other : Path}
    (ending : (".csv" : Text).toList <:+ table.name.toList)
    (otherEnding : (".csv" : Text).toList <:+ other.name.toList)
    (same : moduleFile table = moduleFile other) : table.name = other.name := by
  have names : messageCodes.moduleName table = messageCodes.moduleName other :=
    (outputFile_eq_iff isEnding_py).mp same
  rw [← moduleName_append ending, ← moduleName_append otherEnding, names]

end Generator

end MessageTables
