import MessageTables.Proofs.Error.OneLine
import MessageTables.Proofs.FileSystem.Apart
import MessageTables.Proofs.FileSystem.Refusals
import MessageTables.Proofs.Generation.Stages

/-!
# What a run comes to

In a tree without links it can be told beforehand how a run ends, how far it makes
directories and what it puts where. `Generator.yield` tells it, and `generate_yields`
that the run ends so and leaves just this.

The name of a temporary file is drawn, and the reason why a module was not written
may be about that file. So failures are compared without the paths of that reason.
-/

namespace MessageTables

namespace SystemError

/-- An error without the paths that it is about. -/
def withoutPaths : SystemError → SystemError
  | uncoded arguments => uncoded arguments
  | coded code reason _ => coded code reason []

end SystemError

namespace Failure

/-- A failure without the paths that the reason of an unwritten module is about. -/
def withoutPaths : Failure → Failure
  | generation ⟨table, .unwritable output reason⟩ =>
      generation ⟨table, .unwritable output reason.withoutPaths⟩
  | failure => failure

/--
Whether two failures are the same, wording included, but for the paths that the reason of an
unwritten module is about.
-/
structure Alike (one other : Failure) : Prop where
  same : one.withoutPaths = other.withoutPaths
  text : one.text = other.text

namespace Alike

theorem refl (failure : Failure) : failure.Alike failure :=
  ⟨rfl, rfl⟩

variable {one other third : Failure}

theorem symm (alike : one.Alike other) : other.Alike one :=
  ⟨alike.same.symm, alike.text.symm⟩

theorem trans (alike : one.Alike other) (further : other.Alike third) : one.Alike third :=
  ⟨alike.same.trans further.same, alike.text.trans further.text⟩

end Alike

/-- What stops an action tells why a module is not written, whatever paths it is about. -/
theorem alike_of_bare_eq {mishap bare : Mishap} (same : mishap.bare = bare)
    (table output : Path) :
    ((ofMishap mishap).whileWriting table output).Alike
      ((ofMishap bare).whileWriting table output) := by
  subst same
  cases mishap with
  | refused error paths =>
      cases error with
      | code code =>
          refine ⟨rfl, ?_⟩
          simp only [ofMishap, whileWriting, Mishap.bare, text, GenerationError.text,
            GenerationError.message, GenerationError.position, SystemError.briefText_ofRefusal]
      | nullByte => exact .refl _
  | crowded => exact .refl _
  | unencodable text => exact .refl _

end Failure

/-- How two runs end alike: both are done, or both fail alike. -/
inductive EndAlike : Except Failure Unit → Except Failure Unit → Prop where
  | done : EndAlike (.ok ()) (.ok ())
  | failed {one other : Failure} (alike : one.Alike other) : EndAlike (.error one) (.error other)

namespace EndAlike

variable {one other third : Except Failure Unit}

theorem symm (alike : EndAlike one other) : EndAlike other one := by
  cases alike with
  | done => exact .done
  | failed alike => exact .failed alike.symm

theorem trans (alike : EndAlike one other) (further : EndAlike other third) :
    EndAlike one third := by
  cases alike with
  | done => exact further
  | failed alike =>
      cases further with
      | failed further => exact .failed (alike.trans further)

end EndAlike

namespace Session

/-- What a run answers, or how it fails. -/
def outcome {α : Type} : EStateM.Result Failure Session α → Except Failure α
  | .ok answer _ => .ok answer
  | .error failure _ => .error failure

end Session

namespace Generator

/--
What a run comes to: how it ends, up to paths, how far directories are made, and what is put
where.
-/
structure Yield where
  outcome : Except Failure Unit
  reached : Location
  target : Option Location
  bytes : ByteArray

namespace Yield

/-- A run that ends before anything is written. -/
def unwritten (failure : Failure) : Yield :=
  ⟨.error failure, [], none, .empty⟩

/-- A run that gets to write its module. -/
def written (table output : Path) (bytes : ByteArray) (delivery : Delivery) : Yield where
  outcome :=
    match delivery.target with
    | .ok _ => .ok ()
    | .error mishap => .error ((Failure.ofMishap mishap).whileWriting table output)
  reached := delivery.reached
  target := delivery.target.toOption
  bytes := bytes

end Yield

/-- What a run comes to in a tree. -/
def yield (generator : Generator) (table output : Path) (mode : Nat) (tree : Tree) : Yield :=
  match generator.kind with
  | .base _ => .unwritten .notImplemented
  | .messageCodes =>
      match Table.loaded tree table with
      | .error failure => .unwritten (failure.whileReading table)
      | .ok records =>
          let text := generator.render table records
          .written table output text.bytes (tree.delivery mode output text)

variable (generator : Generator) {session : Session} {table output other : Path}

theorem yield_cases (table output : Path) (mode : Nat) (tree : Tree) :
    (∃ failure, generator.yield table output mode tree = .unwritten failure) ∨
      ∃ text : Text, generator.yield table output mode tree =
        .written table output text.bytes (tree.delivery mode output text) := by
  rw [yield]
  cases generator.kind with
  | base name => exact Or.inl ⟨_, rfl⟩
  | messageCodes =>
      cases Table.loaded tree table with
      | error failure => exact Or.inl ⟨_, rfl⟩
      | ok records => exact Or.inr ⟨_, rfl⟩

/-- A run ends and leaves what its tree tells beforehand. -/
theorem generate_yields (table : Path) (linkFree : session.tree.LinkFree)
    (descends : output.Descends) (some : output.parts ≠ []) :
    let yield := generator.yield table output (Action.newDirectoryMode session) session.tree
    let ended := generator.generate table output session
    EndAlike (Session.outcome ended) yield.outcome ∧
      session.tree.Leaves (Session.left ended).tree (Action.newDirectoryMode session)
        yield.reached yield.target
        (.file yield.bytes TreeAction.replacementMode (session.clock session.readings)) ∧
      (Session.left ended).umask = session.umask := by
  cases kind : generator.kind with
  | base name =>
      simp only [yield, kind, generate_of_base kind]
      exact ⟨.failed (.refl _), Tree.Leaves.refl _ _ _, rfl⟩
  | messageCodes =>
      cases read : Table.loaded session.tree table with
      | error failure =>
          simp only [yield, kind, read, generate_of_not_loaded kind read]
          exact ⟨.failed (.refl _), Tree.Leaves.refl _ _ _, rfl⟩
      | ok records =>
          rcases Tree.exists_directoryPath_eq some with ⟨part, above, shape⟩
          have descending : Part.up ∉ part :: above := by
            intro among
            rw [shape] at descends
            exact descends (List.mem_reverse.mpr among)
          rcases TreeAction.exists_replaceFile_endsAs linkFree descending output.anchor
            (generator.render table records) (Action.newDirectoryMode session)
            (session.draws session.readings) (session.clock session.readings) with
              ⟨after, ends, leaves⟩
          rw [← shape] at ends leaves
          simp only [yield, kind, read, Yield.written]
          cases aimed : (session.tree.delivery (Action.newDirectoryMode session) output
            (generator.render table records)).target with
          | ok target =>
              rw [Delivery.obstacle, aimed] at ends
              rw [aimed] at leaves
              rw [generate_of_written kind read ends]
              exact ⟨.done, leaves, rfl⟩
          | error bare =>
              rw [Delivery.obstacle, aimed] at ends
              rw [aimed] at leaves
              rcases ends with ⟨mishap, same, ends⟩
              rw [generate_of_not_written kind read ends]
              exact ⟨.failed (Failure.alike_of_bare_eq same table output), leaves, rfl⟩

variable {before after : Tree} {mode : Nat} {file : Node}

/-- What is put somewhere is put at the output. -/
theorem parts_of_yield {key : Location} (some : output.parts ≠ [])
    (aimed : (generator.yield table output mode before).target = Option.some key) :
    key.map Name.part = output.parts.reverse := by
  rcases Tree.exists_directoryPath_eq some with ⟨part, above, shape⟩
  rcases generator.yield_cases table output mode before with ⟨failure, same⟩ | ⟨text, same⟩
  · rw [same] at aimed
    cases aimed
  · rw [same, shape] at aimed
    have lands := (Tree.parts_of_delivery before mode output.anchor part above text).2
    rw [lands key (toOption_eq_some_iff.mp aimed), shape]
    exact (List.reverse_reverse _).symm

theorem differsAt_of_yield (some : output.parts ≠ [])
    (leaves : before.Leaves after mode (generator.yield table output mode before).reached
      (generator.yield table output mode before).target file) :
    before.DiffersAt after mode output := by
  rcases generator.yield_cases table output mode before with ⟨failure, same⟩ | ⟨text, same⟩
  · rw [same] at leaves
    exact Tree.differsAt_of_view_eq leaves.view_eq mode output
  · rw [same] at leaves
    exact leaves.differsAt some

end Generator

end MessageTables
