import MessageTables.Proofs.FileSystem.Delivering
import MessageTables.Proofs.FileSystem.LaterReach

/-!
# Files that are put apart

Two files are apart if the path of neither equals the path of the other or lies
above it. What is left by putting one of them is steady along the way of the other,
so both are put in the same way in either order, and the trees that are left differ
at most in times. Directories that both ways need are made by whichever comes first.
-/

namespace MessageTables

namespace Path

/-- Whether neither of two paths that start at one place equals the other or lies above it. -/
structure Apart (path other : Path) : Prop where
  anchors : path.anchor = other.anchor
  notAbove : ¬path.parts <+: other.parts
  notBelow : ¬other.parts <+: path.parts

instance (path other : Path) : Decidable (path.Apart other) :=
  decidable_of_iff (path.anchor = other.anchor ∧ ¬path.parts <+: other.parts ∧
      ¬other.parts <+: path.parts)
    ⟨fun ⟨anchors, notAbove, notBelow⟩ => ⟨anchors, notAbove, notBelow⟩,
      fun ⟨anchors, notAbove, notBelow⟩ => ⟨anchors, notAbove, notBelow⟩⟩

variable {path other : Path}

theorem Apart.symm (apart : path.Apart other) : other.Apart path :=
  ⟨apart.anchors.symm, apart.notBelow, apart.notAbove⟩

theorem Apart.parts_ne_nil (apart : path.Apart other) : path.parts ≠ [] := by
  intro none
  apply apart.notAbove
  rw [none]
  exact List.nil_prefix

end Path

namespace Tree

open TreeAction

variable {before middle after tree one two : Tree} {mode : Nat} {output : Path} {text : Text}
  {anchor otherAnchor : Anchor} {part otherPart : Part} {above otherAbove : List Part}
  {key reached : Location} {target : Option Location} {file : Node}

/-! ## What is touched -/

theorem allows_of_delivery (within : key <:+ (tree.delivery mode output text).reached)
    (missing : tree.view key = none) : key ≠ [] ∧ tree.allows mode key.tail .write = true := by
  rcases reached_delivery tree mode output text with none | same
  · rw [none] at within
    rw [List.suffix_nil.mp within] at missing
    cases missing
  · rw [same] at within
    exact allows_of_course within missing

theorem Leaves.steadyAt
    (leaves : before.Leaves after mode (before.delivery mode output text).reached target file)
    (differs : target ≠ some key) : before.SteadyAt after mode key := by
  have view := leaves key
  rw [if_neg differs] at view
  split at view
  · rename_i made
    exact Or.inr ⟨made.2, view, allows_of_delivery made.1 made.2⟩
  · exact Or.inl view

theorem Leaves.isSome (leaves : before.Leaves after mode reached target file)
    (present : (before.view key).isSome = true) : (after.view key).isSome = true := by
  rw [leaves key]
  split
  · rfl
  split
  · rfl
  · exact present

theorem Leaves.linkFree (leaves : before.Leaves after mode reached target file)
    (linkFree : before.LinkFree) (plain : file.isLink = false) : after.LinkFree := by
  rw [linkFree_iff_view] at linkFree ⊢
  intro location node seen
  rw [leaves location] at seen
  split at seen
  · cases seen
    exact plain
  split at seen
  · cases seen
    rfl
  · exact linkFree location node seen

/--
A tree that differs from an earlier one at most where a path leads: by new
directories on the way, and by anything at the end.
-/
structure DiffersAt (before after : Tree) (mode : Nat) (output : Path) : Prop where
  steady : ∀ key : Location, key.map Name.part ≠ output.parts.reverse →
    before.SteadyAt after mode key
  beside : ∀ key : Location, ¬key.map Name.part <:+ output.parts.reverse →
    after.view key = before.view key
  isSome : ∀ key : Location, (before.view key).isSome = true → (after.view key).isSome = true

theorem differsAt_of_view_eq (same : after.view = before.view) (mode : Nat) (output : Path) :
    before.DiffersAt after mode output := by
  refine ⟨fun key _ => Or.inl (congrFun same key), fun key _ => congrFun same key, ?_⟩
  intro key present
  rwa [same]

theorem Leaves.view_eq (leaves : before.Leaves after mode [] none file) :
    after.view = before.view := by
  funext key
  rw [leaves key, if_neg (Option.some_ne_none key).symm, if_neg]
  rintro ⟨within, absent⟩
  rw [List.suffix_nil.mp within] at absent
  cases absent

theorem exists_directoryPath_eq {path : Path} (some : path.parts ≠ []) :
    ∃ part above, path = directoryPath path.anchor (part :: above) := by
  rcases List.exists_cons_of_ne_nil (List.reverse_ne_nil_iff.mpr some) with ⟨part, above, same⟩
  refine ⟨part, above, ?_⟩
  rw [directoryPath, ← same, List.reverse_reverse]

theorem Leaves.differsAt (some : output.parts ≠ [])
    (leaves : before.Leaves after mode (before.delivery mode output text).reached
      (before.delivery mode output text).target.toOption file) :
    before.DiffersAt after mode output := by
  rcases exists_directoryPath_eq some with ⟨part, above, shape⟩
  generalize output.anchor = anchor at shape
  subst shape
  have whole : (directoryPath anchor (part :: above)).parts.reverse = part :: above :=
    List.reverse_reverse _
  rcases parts_of_delivery before mode anchor part above text with ⟨reaches, lands⟩
  have aimed {key : Location} (aims : (before.delivery mode
      (directoryPath anchor (part :: above)) text).target.toOption = Option.some key) :
      key.map Name.part = part :: above := by
    apply lands
    exact toOption_eq_some_iff.mp aims
  refine ⟨?_, ?_, fun key => leaves.isSome⟩
  · intro key other
    rw [whole] at other
    exact leaves.steadyAt fun aims => other (aimed aims)
  · intro key outside
    rw [whole] at outside
    rw [leaves key, if_neg, if_neg]
    · rintro ⟨within, _⟩
      apply outside
      exact ((within.map Name.part).trans reaches).trans (List.suffix_cons part above)
    · intro aims
      exact outside (aimed aims ▸ List.suffix_refl _)

/-! ## What is apart is not touched -/

variable {other table : Path}

/-- Whether the temporary path for an output with a token leads to nothing. -/
def FreeTemporary (tree : Tree) (output : Path) (token : Token) : Prop :=
  ∀ location, output.temporary token = .plain output.anchor.absolute location →
    tree.node? location = none

/--
Whether something that is done where another path leads makes no difference to the
temporary names for an output: none is free, or one is that the other path does not
lead through.
-/
def Spares (tree : Tree) (output other : Path) : Prop :=
  (∀ token, ¬tree.FreeTemporary output token) ∨
    ∃ token, tree.FreeTemporary output token ∧
      ¬(output.temporary token).parts <+: other.parts

/-- A path with short parts leads through no temporary file. -/
theorem spares_of_short (tree : Tree) (output : Path)
    (short : ∀ part ∈ other.parts, part.text.byteSize < 14) : tree.Spares output other := by
  by_cases free : ∃ token, tree.FreeTemporary output token
  · rcases free with ⟨token, free⟩
    refine Or.inr ⟨token, free, ?_⟩
    intro through
    rw [Path.temporary_eq_child] at through
    have among := through.subset (List.mem_append_right _ List.mem_cons_self)
    exact absurd rfl (Path.temporaryText_ne output.name token (short _ among))
  · exact Or.inl (not_exists.mp free)

theorem freeTemporary_plain_iff {name : Name} {directory : Location}
    (short : name.text.byteSize ≤ 241) (token : Token) :
    tree.FreeTemporary (.plain anchor (name :: directory)) token ↔
      tree.view (Path.temporaryName short token :: directory) = none := by
  have anchored : (Path.plain anchor (name :: directory)).anchor = anchor := rfl
  rw [FreeTemporary, Path.temporary_eq short, view_eq_none_iff, anchored]
  constructor
  · intro free
    exact free _ rfl
  · intro absent location same
    rwa [← Path.destination_plain anchor.absolute location, ← same, Path.destination_plain]

/-- A directory is crowded with temporary names as before, if one that is free is spared. -/
theorem DiffersAt.crowded_iff {name : Name} {directory : Location}
    (differs : before.DiffersAt after mode other) (short : name.text.byteSize ≤ 241)
    (spares : before.Spares (.plain anchor (name :: directory)) other) :
    after.Crowded directory short ↔ before.Crowded directory short := by
  constructor
  · intro crowded token
    rcases spares with taken | ⟨free, unused, outside⟩
    · have present := taken token
      rwa [freeTemporary_plain_iff short, ← Ne, ← Option.isSome_iff_ne_none] at present
    · have filled := crowded free
      rw [freeTemporary_plain_iff short] at unused
      rw [differs.beside, unused] at filled
      · cases filled
      · intro within
        apply outside
        rw [Path.temporary_eq short, ← List.reverse_suffix, Path.plain, List.reverse_reverse]
        exact within
  · intro crowded token
    exact differs.isSome _ (crowded token)

/-- A file is put in the same way after something has been done apart from it. -/
theorem DiffersAt.delivery_eq (differs : before.DiffersAt after mode other)
    (apart : output.Apart other) (spares : before.Spares output other) (text : Text) :
    after.delivery mode output text = before.delivery mode output text := by
  rcases exists_directoryPath_eq apart.parts_ne_nil with ⟨part, above, shape⟩
  generalize output.anchor = anchor at shape
  subst shape
  have below : ¬other.parts.reverse <:+ part :: above := by
    intro within
    apply apart.notBelow
    rw [← List.reverse_suffix]
    exact within.trans (by rw [directoryPath, List.reverse_reverse])
  have notAbove : ¬part :: above <:+ other.parts.reverse := by
    intro within
    apply apart.notAbove
    rw [← List.reverse_suffix]
    exact (by rw [directoryPath, List.reverse_reverse] : _ <:+ _).trans within
  have steady (key : Location) (within : key.map Name.part <:+ above) :
      before.SteadyAt after mode key := by
    apply differs.steady
    rintro same
    exact below (same ▸ within.trans (List.suffix_cons part above))
  apply delivery_congr (course_congr steady)
  · intro key same _ right
    exact (steady key (same ▸ List.suffix_refl _)).allows_eq right
  · intro name directory short same
    apply differs.crowded_iff short
    rw [← same] at spares
    exact spares
  · intro key same
    rw [isDirectory_eq_view, isDirectory_eq_view, differs.beside]
    rwa [same]

/-- Whether a directory is missing that is above both of two paths. -/
def SharesMissing (tree : Tree) (path other : Path) : Prop :=
  ∃ location : Location, tree.node? location = none ∧
    location.map Name.part <:+ path.parent.parts.reverse ∧
    location.map Name.part <:+ other.parent.parts.reverse

/--
The ways in which a file can be missed once directories above it have been made, but
for something missing again.
-/
inductive MissedAs (mode : Nat) (path : Path) : ErrorCode → Prop where
  | overlong {part : Part} (among : part ∈ path.parts) (long : 255 < part.text.byteSize) :
      MissedAs mode path .nameTooLong
  | closed (unentered : mode.testBit Right.enter.bit = false) : MissedAs mode path .denied

theorem FailsBehind.missedAs {code : ErrorCode} (fails : FailsBehind mode table.parts.reverse code)
    (descends : table.Descends) (missed : tree.read table = .error (.code .noEntry)) :
    MissedAs mode table code := by
  cases fails with
  | closed unentered => exact .closed unentered
  | @unnamed part among unnamed =>
      have inside := List.mem_reverse.mp among
      have valid : checkPath table = .ok () := by
        cases checked : checkPath table with
        | ok _ => rfl
        | error error =>
            rw [read_of_unchecked checked] at missed
            cases missed
            rcases Path.checkPath_error_cases checked with impossible | ⟨impossible, _⟩
            · cases impossible
            · cases impossible
      refine .overlong inside ?_
      by_contra short
      rw [Name.ofText?, dif_pos] at unnamed
      · cases unnamed
      · refine ⟨part.isPart, ?_, (Path.checkPath_eq_ok_iff.mp valid).1 part inside, by omega⟩
        intro up
        rw [show part = Part.up from Part.ext up] at inside
        exact descends inside

/--
A file is read as before after something has been done apart from it, unless a
directory on its way was missing and has been made.
-/
theorem DiffersAt.read_cases (differs : before.DiffersAt after mode other)
    (linkFree : before.LinkFree) (later : after.LinkFree) (descends : table.Descends)
    (apart : table.Apart other) :
    after.read table = before.read table ∨
      before.SharesMissing table other ∧ ∃ code, MissedAs mode table code ∧
        before.read table = .error (.code .noEntry) ∧ after.read table = .error (.code code) := by
  rcases exists_directoryPath_eq apart.parts_ne_nil with ⟨part, above, shape⟩
  rcases exists_directoryPath_eq apart.symm.parts_ne_nil with ⟨last, rest, otherShape⟩
  generalize table.anchor = anchor at shape
  generalize other.anchor = otherAnchor at otherShape
  subst shape otherShape
  have whole (anchor : Anchor) (part : Part) (above : List Part) :
      (directoryPath anchor (part :: above)).parts.reverse = part :: above :=
    List.reverse_reverse _
  have below : ¬last :: rest <:+ part :: above := fun within =>
    apart.notBelow (List.reverse_prefix.mpr within)
  have notAbove : ¬part :: above <:+ last :: rest := fun within =>
    apart.notAbove (List.reverse_prefix.mpr within)
  have descending : Part.up ∉ part :: above := fun among => descends (List.mem_reverse.mpr among)
  rcases differs with ⟨steady, beside, _⟩
  simp only [whole] at steady beside
  rcases read_later linkFree later descending anchor
    (fun key within => steady key fun same => below (same ▸ within))
    (fun key same => beside key fun within => notAbove (same ▸ within)) with
      same | ⟨location, code, absent, present, within, fails, missed, missedLater⟩
  · exact Or.inl same
  · have touched : location.map Name.part <:+ last :: rest := by
      by_contra outside
      rw [beside location outside, absent] at present
      cases present
    have further : location.map Name.part <:+ rest := by
      rcases List.suffix_cons_iff.mp touched with same | further
      · exact absurd (same ▸ within.trans (List.suffix_cons part above)) below
      · exact further
    rw [← whole anchor part above] at fails
    refine Or.inr ⟨⟨location, view_eq_none_iff.mp absent, ?_, ?_⟩, code,
      fails.missedAs descends missed, missed, missedLater⟩
    · rwa [parent_parts]
    · rwa [parent_parts]

end Tree

/-! ## Both orders -/

namespace Node

/-- A node without its time. -/
def timeless : Node → Node
  | file bytes mode _ => file bytes mode ⟨0, 0⟩
  | directory mode _ => directory mode ⟨0, 0⟩
  | link target => link target

theorem timeless_lasting (node : Node) : node.lasting.timeless = node.timeless := by
  cases node <;> rfl

end Node

namespace Tree

/-- What stands at a location, without times. -/
def timeless (tree : Tree) (location : Location) : Option Node :=
  (tree.node? location).map Node.timeless

variable {tree one two oneTwo twoOne : Tree} {mode : Nat} {reached otherReached : Location}
  {target otherTarget : Option Location} {file otherFile laterFile otherLaterFile : Node}

theorem timeless_eq_view (tree : Tree) (location : Location) :
    tree.timeless location = (tree.view location).map Node.timeless := by
  rw [timeless, view, Option.map_map]
  congr 1
  funext node
  exact node.timeless_lasting.symm

/--
What is left by putting two files in different places does not depend on the order,
but for times.
-/
theorem timeless_eq_of_leaves
    (first : tree.Leaves one mode reached target file)
    (second : tree.Leaves two mode otherReached otherTarget otherFile)
    (thenSecond : one.Leaves oneTwo mode otherReached otherTarget otherLaterFile)
    (thenFirst : two.Leaves twoOne mode reached target laterFile)
    (files : laterFile.timeless = file.timeless)
    (otherFiles : otherLaterFile.timeless = otherFile.timeless)
    (different : ∀ key, target = some key → otherTarget ≠ some key) :
    oneTwo.timeless = twoOne.timeless := by
  funext key
  rw [timeless_eq_view, timeless_eq_view, thenSecond key, thenFirst key, first key, second key]
  by_cases here : target = some key
  · have elsewhere := different key here
    simp [here, elsewhere, files]
  · by_cases there : otherTarget = some key
    · simp [here, there, otherFiles]
    · cases seen : tree.view key with
      | none => by_cases within : key <:+ reached <;> by_cases other : key <:+ otherReached <;>
          simp [here, there, within, other]
      | some node => simp [here, there]

end Tree

end MessageTables
