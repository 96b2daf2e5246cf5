import MessageTables.Proofs.Generation.Naming
import MessageTables.Proofs.Glob.Tables

/-!
# Searching and naming agree

Tables are searched for with a pattern, a star before the suffix, and modules are named
by cutting the suffix off. Both have the same names in view: what is found has a name
that ends in the suffix, and what is left of the name, together with the suffix, is the
name again. So no two names are cut to the same stem, the empty stem and stems of dots
included, and two tables share a module exactly when they share their file name.
-/

namespace MessageTables

namespace Generator

variable {generator : Generator} {tree : Tree} {links : LinkRule} {source table other : Path}
  {tables : List Path}

theorem exists_eq_child_of_mem_findTables (literal : Pattern.IsLiteral generator.inputSuffix)
    (found : tree.findTables links source generator.inputSuffix = .ok tables)
    (inside : table ∈ tables) :
    ∃ part : Part, table = table.parent.child part ∧ table.name = part.text ∧
      part.text = generator.moduleName table ++ generator.inputSuffix := by
  rcases Tree.exists_below_of_mem_findTables literal found inside with
    ⟨names, name, same, ending, _⟩
  have above : table.parent = source.below names := by
    rw [same, Path.parent_child]
  have named : table.name = name.text := by
    rw [same, Path.name_child]
    rfl
  refine ⟨name.part, by rw [above, ← same], named, ?_⟩
  rw [moduleName_append_inputSuffix (by rwa [named]), named]
  rfl

/--
The tables that a search finds are named by what is before the suffix. Their modules go
into the output directory itself, and two of them have one module exactly when their file
names are the same; so in one directory no two tables do.
-/
theorem names_of_findTables (literal : Pattern.IsLiteral generator.inputSuffix)
    (isEnding : IsEnding generator.outputSuffix)
    (found : tree.findTables links source generator.inputSuffix = .ok tables) (directory : Path) :
    (∀ table ∈ tables,
        table.name = generator.moduleName table ++ generator.inputSuffix ∧
        ∃ file : Part, file.text = generator.moduleName table ++ generator.outputSuffix ∧
          file ≠ Part.up ∧ generator.output table directory = directory.child file) ∧
      ∀ table ∈ tables, ∀ other ∈ tables,
        (generator.output table directory = generator.output other directory ↔
          table.name = other.name) ∧
        (table.parent = other.parent →
          generator.output table directory = generator.output other directory →
            table = other) := by
  have named (table : Path) (inside : table ∈ tables) :
      table.name = generator.moduleName table ++ generator.inputSuffix := by
    rcases exists_eq_child_of_mem_findTables literal found inside with ⟨part, _, named, whole⟩
    rw [named, whole]
  refine ⟨fun table inside => ⟨named table inside, generator.outputFile isEnding table, rfl,
    outputFile_ne_up isEnding table, output_eq_child_outputFile isEnding table directory⟩, ?_⟩
  intro table inside other among
  have agree : generator.output table directory = generator.output other directory ↔
      table.name = other.name := by
    rw [output_eq_iff_moduleName_eq isEnding]
    constructor
    · intro stems
      rw [named table inside, named other among, stems]
    · intro names
      simp only [moduleName, names]
  refine ⟨agree, fun parents outputs => ?_⟩
  rcases exists_eq_child_of_mem_findTables literal found inside with ⟨part, whole, name, _⟩
  rcases exists_eq_child_of_mem_findTables literal found among with
    ⟨otherPart, otherWhole, otherName, _⟩
  have parts : part = otherPart := by
    apply Part.ext
    rw [← name, ← otherName, agree.mp outputs]
  rw [whole, otherWhole, parents, parts]

/-- A generator for tables whose names end in two dots. -/
def dotted : Generator :=
  ⟨.base "dotted", "..", ".x."⟩

/-- A directory with a table that is named by dots alone, and two tables of one name. -/
def dottedTables : Tree :=
  ((((Tree.empty 0o700 ⟨0, 0⟩).addEntry [⟨"...", by decide⟩]
    (.file .empty 0o644 ⟨0, 0⟩) ⟨0, 0⟩).addEntry [⟨"w....", by decide⟩]
    (.file .empty 0o644 ⟨0, 0⟩) ⟨0, 0⟩).addEntry [⟨"z", by decide⟩]
    (.directory 0o755 ⟨0, 0⟩) ⟨0, 0⟩).addEntry [⟨"w....", by decide⟩, ⟨"z", by decide⟩]
    (.file .empty 0o644 ⟨0, 0⟩) ⟨0, 0⟩

theorem findTables_dottedTables :
    dottedTables.findTables .passes (.ofText ".") dotted.inputSuffix =
      .ok [.ofText "...", .ofText "w....", .ofText "z/w...."] :=
  Tree.findTables_of_select (by decide) (by cbv) (by cbv) (by cbv)

/--
What is left of a name of dots is a name of its own, and the tables of one name have one
module.
-/
theorem names_of_findTables_dottedTables :
    Pattern.IsLiteral dotted.inputSuffix ∧ IsEnding dotted.outputSuffix ∧
      dottedTables.findTables .passes (.ofText ".") dotted.inputSuffix =
        .ok [.ofText "...", .ofText "w....", .ofText "z/w...."] ∧
      (∃ file : Part, file.text = "..x." ∧
        dotted.output (.ofText "...") (.ofText "o") = (Path.ofText "o").child file) ∧
      dotted.output (.ofText "w....") (.ofText "o") =
        dotted.output (.ofText "z/w....") (.ofText "o") := by
  have literal : Pattern.IsLiteral dotted.inputSuffix := by decide
  have isEnding : IsEnding dotted.outputSuffix := by decide
  rcases names_of_findTables literal isEnding findTables_dottedTables (.ofText "o") with
    ⟨single, several⟩
  rcases single (.ofText "...") (by simp) with ⟨_, file, text, _, whole⟩
  have stem : dotted.moduleName (.ofText "...") = "." := by decide +kernel
  rw [stem] at text
  have shared := several (.ofText "w....") (by simp) (.ofText "z/w....") (by simp)
  exact ⟨literal, isEnding, findTables_dottedTables, ⟨file, text, whole⟩,
    shared.1.mpr (by decide +kernel)⟩

end Generator

end MessageTables
