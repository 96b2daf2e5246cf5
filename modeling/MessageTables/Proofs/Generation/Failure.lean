import MessageTables.Proofs.FileSystem.Replacement
import MessageTables.Proofs.Generation.Stages

/-!
# Failed runs

A run that fails leaves all files and links as they were, the output among them,
and no temporary file. It may have made directories, all of them above the
output; if it failed before the table was read, it has changed nothing.
-/

namespace MessageTables

namespace Tree

/-- What a failed run leaves: all that was there, and besides only directories above the output. -/
structure Survives (before after : Tree) (output : Path) : Prop where
  /-- Files and links are the same, with what they hold, their permissions and times. -/
  kept : ∀ location node, node.isDirectory = false →
    before.node? location = some node → after.node? location = some node
  /-- Directories have the same permissions; entries may have been made in them. -/
  directories : ∀ location mode time, before.node? location = some (.directory mode time) →
    ∃ later, after.node? location = some (.directory mode later)
  /-- What is new is a directory that a beginning of the path of the output's directory leads to. -/
  added : ∀ location node, before.node? location = none → after.node? location = some node →
    node.isDirectory = true ∧ ∃ ancestor : Path, ancestor.anchor = output.anchor ∧
      ancestor.parts <+: output.parent.parts ∧ after.locate ancestor = .ok location

variable {before after : Tree} {output : Path}

theorem survives_refl (tree : Tree) (output : Path) : tree.Survives tree output := by
  refine ⟨?_, ?_, ?_⟩
  · intro location node _ found
    exact found
  · intro location mode time found
    exact ⟨time, found⟩
  · intro location node absent found
    rw [absent] at found
    cases found

theorem survives_of_view (kept : before.KeptIn after)
    (added : ∀ location node, before.view location = none → after.view location = some node →
      node.isDirectory = true ∧ ∃ ancestor : Path, ancestor.anchor = output.anchor ∧
        ancestor.parts <+: output.parent.parts ∧ after.locate ancestor = .ok location) :
    before.Survives after output := by
  refine ⟨?_, ?_, ?_⟩
  · intro location node noDirectory found
    rw [node?_eq_some_iff_view noDirectory] at found ⊢
    exact kept location node found
  · intro location mode time found
    have seen : before.view location = some (.directory mode ⟨0, 0⟩) := view_of_node? found
    exact exists_directory_of_view (kept location _ seen)
  · intro location node absent found
    rcases added location node.lasting (view_eq_none_iff.mpr absent) (view_of_node? found) with
      ⟨directory, chain⟩
    rw [Node.isDirectory_lasting] at directory
    exact ⟨directory, chain⟩

end Tree

namespace TreeAction

theorem survives_makeDirectories (output : Path) (mode : Nat) (time : Timestamp)
    (before : Tree) {after : Tree}
    (unchanged : after.view = (treeAfter (makeDirectories output.anchor mode time
      output.parent.parts.reverse) before).view) : before.Survives after output := by
  have grows := grows_makeDirectories output.anchor mode time output.parent.parts.reverse before
  have later := Tree.keptIn_of_view_eq unchanged
  apply Tree.survives_of_view (grows.kept.trans later)
  intro location node absent seen
  rw [unchanged] at seen
  rcases grows.added location node absent seen with ⟨directory, above, within, located⟩
  refine ⟨directory, directoryPath output.anchor above, rfl, ?_, later.locate located⟩
  rw [directoryPath, ← List.reverse_suffix, List.reverse_reverse]
  exact within

theorem survives_of_replaceFile_error {output : Path} {text : Text} {mode : Nat} {draw : Draw}
    {time : Timestamp} {before after : Tree} {mishap : Mishap}
    (failed : replaceFile output text mode draw time before = .error mishap after) :
    before.Survives after output := by
  apply survives_makeDirectories output mode time before
  cases directories : makeDirectories output.anchor mode time output.parent.parts.reverse
    before with
  | error cause made =>
      rw [replaceFile_of_error directories] at failed
      cases failed
      rw [treeAfter_of_error directories]
  | ok _ made =>
      have ending := ending_of_makeDirectories text draw directories
      rw [failed] at ending
      rw [treeAfter_of_ok directories]
      rcases ending.error_cases with rfl | ⟨_, _, _, _, _, holds, rfl⟩
      · rfl
      · exact holds.view_removed time

end TreeAction

namespace Generator

variable {generator : Generator} {table output : Path} {session after : Session}
  {failure : Failure}

/-- A failed run leaves the tree that it found, or what the attempt to write has left. -/
theorem tree_of_generate_error
    (failed : generator.generate table output session = .error failure after) :
    after.tree = session.tree ∨ ∃ records mishap,
      Table.loaded session.tree table = .ok records ∧
      generator.writing table output records session session.tree = .error mishap after.tree := by
  cases kind : generator.kind with
  | base name =>
      rw [generate_of_base kind] at failed
      cases failed
      exact Or.inl rfl
  | messageCodes =>
      rcases generate_cases generator kind table output session with
        ⟨_, _, ended⟩ | ⟨_, _, _, _, ended⟩ | ⟨records, mishap, _, read, written, ended⟩
      · rw [ended] at failed
        cases failed
        exact Or.inl rfl
      · rw [ended] at failed
        cases failed
      · rw [ended] at failed
        cases failed
        exact Or.inr ⟨records, mishap, read, written⟩

theorem survives_of_failed
    (failed : generator.generate table output session = .error failure after) :
    session.tree.Survives after.tree output := by
  rcases tree_of_generate_error failed with same | ⟨records, mishap, _, written⟩
  · rw [same]
    exact Tree.survives_refl _ _
  · exact TreeAction.survives_of_replaceFile_error written

theorem loaded_ne_generation {tree : Tree} (unread : Table.loaded tree table = .error failure)
    (error : GenerationError) : failure ≠ .generation error := by
  unfold Table.loaded at unread
  split at unread
  · rename_i refusal _
    cases unread
    cases refusal <;> nofun
  · rename_i bytes _
    cases parsed : Table.parse (Table.textOf bytes) (some table.text) with
    | ok records =>
        rw [parsed] at unread
        cases unread
    | error rejection =>
        rw [parsed] at unread
        cases unread
        cases rejection <;> nofun

/-- An error of generating is about the table that was to be generated from. -/
theorem table_eq_of_generate_error {error : GenerationError}
    (failed : messageCodes.generate table output session = .error (.generation error) after) :
    error.table = table := by
  rcases generate_cases messageCodes rfl table output session with
    ⟨cause, unread, ended⟩ | ⟨_, _, _, _, ended⟩ | ⟨_, mishap, _, _, _, ended⟩
  · rw [ended] at failed
    cases cause with
    | generation other => exact absurd rfl (loaded_ne_generation unread other)
    | system reason =>
        cases failed
        rfl
    | invalidTable fault =>
        cases failed
        rfl
    | nullByte => cases failed
    | oversizedCode count => cases failed
    | unencodable text => cases failed
    | invalidPattern => cases failed
    | notImplemented => cases failed
  · rw [ended] at failed
    cases failed
  · rw [ended] at failed
    cases mishap with
    | refused error paths =>
        cases error with
        | code code =>
            cases failed
            rfl
        | nullByte => cases failed
    | crowded =>
        cases failed
        rfl
    | unencodable text => cases failed

/-- Whatever ends a run, the tree survives it; a table that is not read leaves it as it is. -/
theorem survives_of_generate_error
    (failed : generator.generate table output session = .error failure after) :
    session.tree.Survives after.tree output ∧
      ∀ cause stopped, Table.load table session = .error cause stopped →
        after.tree = session.tree := by
  refine ⟨survives_of_failed failed, ?_⟩
  intro cause stopped unread
  rcases tree_of_generate_error failed with same | ⟨records, mishap, read, _⟩
  · exact same
  · rw [Table.load_of_loaded read] at unread
    cases unread

/-- A session in a directory that holds a table and an empty directory. -/
def tableBesideDirectory : Session :=
  { Session.fresh 0o022 .passes fun _ => ⟨0, 0⟩ with
    tree := ((Tree.empty 0o700 ⟨0, 0⟩).addEntry [⟨"t.csv", by decide⟩]
      (.file "1,one,m.one\n".toUTF8 0o644 ⟨0, 0⟩) ⟨0, 0⟩).addEntry [⟨"d", by decide⟩]
      (.directory 0o755 ⟨0, 0⟩) ⟨0, 0⟩ }

/-- A directory stands at the output, so the temporary file is made, filled and removed again. -/
theorem survives_of_generate_error_directory_at_output :
    ∃ (failure : Failure) (after : Session),
      messageCodes.generate (.ofText "t.csv") (.ofText "d") tableBesideDirectory =
          .error failure after ∧
        tableBesideDirectory.tree.Survives after.tree (.ofText "d") ∧
        after.tree.entries.map Prod.fst = tableBesideDirectory.tree.entries.map Prod.fst := by
  have run : isStoppedWith (fun _ after => decide (after.tree.entries.map Prod.fst =
      tableBesideDirectory.tree.entries.map Prod.fst))
        (messageCodes.generate (.ofText "t.csv") (.ofText "d") tableBesideDirectory) =
          true := by
    decide +kernel
  rcases exists_of_isStoppedWith run with ⟨failure, after, failed, same⟩
  exact ⟨failure, after, failed, (survives_of_generate_error failed).1, of_decide_eq_true same⟩

end Generator

end MessageTables
