import MessageTables.Path
import MessageTables.Text.Quoted

/-!
# Generators

A generator takes the tables with one suffix and gives their modules another.
The module of a table is named by the table's file name without the suffix, and
stands in the output directory, whatever directory the table is in.
-/

namespace MessageTables

/--
The kinds of generators: the one for message codes, and the named one that has no way to
generate yet.
-/
inductive GeneratorKind where
  | messageCodes
  | base (name : Text)
  deriving DecidableEq, Repr

/-- A generator: its kind, the suffix of its tables and the suffix of its modules. -/
structure Generator where
  kind : GeneratorKind
  inputSuffix : String
  outputSuffix : String
  deriving DecidableEq, Repr

namespace Generator

/-- The generator of lookup modules for message codes. -/
def messageCodes : Generator :=
  ⟨.messageCodes, ".csv", ".py"⟩

/-- The generator with the given name that has no way to generate yet. -/
def base (name : Text) : Generator :=
  ⟨.base name, "", ".py"⟩

/-- The name of a generator. -/
def name (generator : Generator) : Text :=
  match generator.kind with
  | .messageCodes => "msgcodes"
  | .base name => name

/-- A generator as it is shown to users. -/
def shown (generator : Generator) : Text :=
  match generator.kind with
  | .messageCodes => "MsgCodeGenerator(" ++ Text.quote generator.name ++ ")"
  | .base _ => "BaseGenerator(" ++ Text.quote generator.name ++ ")"

/-- The name of the module of a table: its file name without the suffix of tables, if it ends so. -/
def moduleName (generator : Generator) (table : Path) : Text :=
  match (Text.ofString generator.inputSuffix).toList.isSuffixOf? table.name.toList with
  | some stem => Text.ofList stem
  | none => table.name

/-- The path of the module of a table in an output directory. -/
def output (generator : Generator) (table directory : Path) : Path :=
  directory.join (.ofText (generator.moduleName table ++ generator.outputSuffix))

end Generator

end MessageTables
