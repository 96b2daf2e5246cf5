import MessageTables.Proofs.FileSystem.DirectoryMaking
import MessageTables.Proofs.FileSystem.Writing

/-!
# What replacing a file comes to

In a tree without links it can be told beforehand what replacing a file comes to:
how far its directories are made, and where the file is put or why it is not.
`Tree.delivery` tells it, whatever tokens are drawn, and `exists_replaceFile_endsAs`
that the program does the same and leaves nothing else behind.

The delivery of a file reads the directories on the way, whether a temporary name
is free beside the output, and what stands at the output. So it stays the same in a
later tree in which none of these are different.
-/

namespace MessageTables

/--
How far the directories of a file are made, and where it is put, or the mishap without its
paths.
-/
structure Delivery where
  reached : Location
  target : Except Mishap Location

namespace Tree

open TreeAction

/-- Whether all names of temporary files for a name are taken in a directory. -/
def Crowded (tree : Tree) (directory : Location) {name : Name}
    (short : name.text.byteSize ≤ 241) : Prop :=
  ∀ token, (tree.view (Path.temporaryName short token :: directory)).isSome = true

instance (tree : Tree) (directory : Location) {name : Name}
    (short : name.text.byteSize ≤ 241) : Decidable (tree.Crowded directory short) :=
  decidable_of_iff
    ((Draw.inOrder.pick fun token =>
      (tree.view (Path.temporaryName short token :: directory)).isSome) = none) <| by
    constructor
    · exact Draw.inOrder.taken_of_pick
    · intro crowded
      by_contra drawn
      rcases Option.ne_none_iff_exists'.mp drawn with ⟨token, picked⟩
      have free := Draw.inOrder.pick_free picked
      rw [crowded token] at free
      cases free

/-- A check, as something that an action may be stopped by. -/
def stops {α : Type} (result : Except AccessError α) : Except Mishap α :=
  result.mapError (.refused · [])

/-- The name of an output beside which a temporary file can be made. -/
def staging (tree : Tree) (mode : Nat) (output : Path) (directory : Location) :
    Except Mishap Name :=
  stops (checkPath (output.temporary .first)) >>= fun _ =>
    if !tree.allows mode directory .enter then .error (.ofCode .denied)
    else
      match Name.ofText? output.name with
      | none => .error (.ofCode .nameTooLong)
      | some name =>
          if short : name.text.byteSize ≤ 241 then
            if tree.Crowded directory short then .error .crowded
            else if !tree.allows mode directory .write then .error (.ofCode .denied)
            else .ok name
          else .error (.ofCode .nameTooLong)

/--
Where a file with a text is put once its directory is there. The text has to have
bytes, and the file does not take the place of a directory.
-/
def landing (tree : Tree) (mode : Nat) (output : Path) (text : Text) (directory : Location) :
    Except Mishap Location :=
  tree.staging mode output directory >>= fun name =>
    if text.encode?.isNone then .error (.unencodable text)
    else if (tree.view (name :: directory)).any Node.isDirectory then
      .error (.ofCode .isDirectory)
    else .ok (name :: directory)

/-- What replacing a file comes to. -/
def delivery (tree : Tree) (mode : Nat) (output : Path) (text : Text) : Delivery :=
  match stops (checkPath output.parent) with
  | .error mishap => ⟨[], .error mishap⟩
  | .ok _ =>
      match tree.course mode output.parent.parts.reverse with
      | ⟨reached, some code⟩ => ⟨reached, .error (.ofCode code)⟩
      | ⟨reached, none⟩ => ⟨reached, tree.landing mode output text reached⟩

variable {tree before after : Tree} {mode : Nat} {output : Path} {text : Text}
  {directory location : Location} {name : Name}

theorem stops_eq_ok_iff {α : Type} {result : Except AccessError α} {value : α} :
    stops result = .ok value ↔ result = .ok value :=
  mapError_eq_ok_iff

/-- An output that can be staged has a name and may be written beside. -/
theorem staging_eq_ok (staged : tree.staging mode output directory = .ok name) :
    checkPath (output.temporary .first) = .ok () ∧
      tree.allows mode directory .enter = true ∧ tree.allows mode directory .write = true ∧
      name.text = output.name := by
  rcases bind_eq_ok_iff.mp staged with ⟨_, valid, passed⟩
  refine ⟨stops_eq_ok_iff.mp valid, ?_⟩
  split at passed
  · cases passed
  rename_i entered
  split at passed
  · cases passed
  rename_i other named
  split at passed
  · split at passed
    · cases passed
    split at passed
    · cases passed
    rename_i written
    cases passed
    exact ⟨by simpa using entered, by simpa using written, Name.eq_of_ofText? named⟩
  · cases passed

theorem landing_eq_ok (landed : tree.landing mode output text directory = .ok location) :
    ∃ name : Name, name.text = output.name ∧ location = name :: directory := by
  rcases bind_eq_ok_iff.mp landed with ⟨name, staged, passed⟩
  split at passed
  · cases passed
  split at passed
  · cases passed
  cases passed
  exact ⟨name, (staging_eq_ok staged).2.2.2, rfl⟩

/-- The ways in which the delivery of a file is found. -/
theorem delivery_cases (tree : Tree) (mode : Nat) (output : Path) (text : Text) :
    (∃ error, checkPath output.parent = .error error ∧
        tree.delivery mode output text = ⟨[], .error (.refused error [])⟩) ∨
      checkPath output.parent = .ok () ∧
        ((∃ reached code, tree.course mode output.parent.parts.reverse = ⟨reached, some code⟩ ∧
            tree.delivery mode output text = ⟨reached, .error (.ofCode code)⟩) ∨
          ∃ reached, tree.course mode output.parent.parts.reverse = ⟨reached, none⟩ ∧
            tree.delivery mode output text =
              ⟨reached, tree.landing mode output text reached⟩) := by
  rw [delivery]
  cases checkPath output.parent with
  | error error => exact Or.inl ⟨error, rfl, rfl⟩
  | ok _ =>
      right
      rcases tree.course mode output.parent.parts.reverse with ⟨reached, _ | code⟩
      · exact ⟨rfl, Or.inr ⟨reached, rfl, rfl⟩⟩
      · exact ⟨rfl, Or.inl ⟨reached, code, rfl, rfl⟩⟩

/-- The directories of a file are made as far as their course gets, or not at all. -/
theorem reached_delivery (tree : Tree) (mode : Nat) (output : Path) (text : Text) :
    (tree.delivery mode output text).reached = [] ∨
      (tree.delivery mode output text).reached =
        (tree.course mode output.parent.parts.reverse).reached := by
  rcases delivery_cases tree mode output text with
    ⟨error, _, same⟩ | ⟨_, ⟨reached, code, gets, same⟩ | ⟨reached, gets, same⟩⟩
  · exact Or.inl (by rw [same])
  · exact Or.inr (by rw [same, gets])
  · exact Or.inr (by rw [same, gets])

section Parts

variable {anchor : Anchor} {part : Part} {above : List Part}

theorem parent_parts (anchor : Anchor) (part : Part) (above : List Part) :
    (directoryPath anchor (part :: above)).parent.parts.reverse = above := by
  rw [directoryPath_cons, Path.parent_child]
  exact List.reverse_reverse above

theorem name_parts (anchor : Anchor) (part : Part) (above : List Part) :
    (directoryPath anchor (part :: above)).name = part.text := by
  rw [directoryPath_cons, Path.name_child]

/-- A file is put where its path says, in directories that its path names. -/
theorem parts_of_delivery (tree : Tree) (mode : Nat) (anchor : Anchor) (part : Part)
    (above : List Part) (text : Text) :
    (tree.delivery mode (directoryPath anchor (part :: above)) text).reached.map Name.part <:+
        above ∧
      ∀ location, (tree.delivery mode (directoryPath anchor (part :: above)) text).target =
        .ok location → location.map Name.part = part :: above := by
  have course := parts_of_course tree mode above
  rcases delivery_cases tree mode (directoryPath anchor (part :: above)) text with
    ⟨error, _, same⟩ | ⟨_, ⟨reached, code, gets, same⟩ | ⟨reached, gets, same⟩⟩
  · rw [same]
    refine ⟨List.nil_suffix, ?_⟩
    rintro location ⟨⟩
  · rw [parent_parts] at gets
    rw [gets] at course
    rw [same]
    refine ⟨course.1, ?_⟩
    rintro location ⟨⟩
  · rw [parent_parts] at gets
    rw [gets] at course
    rw [same]
    refine ⟨course.1, ?_⟩
    intro location landed
    rcases landing_eq_ok landed with ⟨name, names, rfl⟩
    rw [name_parts] at names
    rw [List.map_cons, course.2 rfl]
    exact congrArg (· :: above) (Part.ext names)

end Parts

/-! ## Deliveries in another tree -/

theorem staging_congr (allows : ∀ right,
      after.allows mode directory right = before.allows mode directory right)
    (crowded : ∀ (name : Name) (short : name.text.byteSize ≤ 241), name.text = output.name →
      (after.Crowded directory short ↔ before.Crowded directory short)) :
    after.staging mode output directory = before.staging mode output directory := by
  rw [staging, staging, allows, allows]
  cases named : Name.ofText? output.name with
  | none => rfl
  | some name => simp only [crowded name _ (Name.eq_of_ofText? named)]

theorem landing_congr (staged : after.staging mode output directory =
      before.staging mode output directory)
    (same : ∀ name : Name, name.text = output.name →
      after.isDirectory (name :: directory) = before.isDirectory (name :: directory)) :
    after.landing mode output text directory = before.landing mode output text directory := by
  simp only [isDirectory_eq_view] at same
  rw [landing, landing, staged]
  cases staging : before.staging mode output directory with
  | error mishap => rfl
  | ok name =>
      simp only [bind, Except.bind, same name (staging_eq_ok staging).2.2.2]

/--
A file is placed in the same way in another tree if the course of its directories is
the same there, and the rights in the last one and what stands at the end are alike.
-/
theorem delivery_congr {anchor : Anchor} {part : Part} {above : List Part}
    (course : after.course mode above = before.course mode above)
    (allows : ∀ key : Location, key.map Name.part = above →
      (before.course mode above).reached = key → ∀ right,
        after.allows mode key right = before.allows mode key right)
    (crowded : ∀ (name : Name) (directory : Location) (short : name.text.byteSize ≤ 241),
      (name :: directory).map Name.part = part :: above →
        (after.Crowded directory short ↔ before.Crowded directory short))
    (same : ∀ key : Location, key.map Name.part = part :: above →
      after.isDirectory key = before.isDirectory key) :
    after.delivery mode (directoryPath anchor (part :: above)) text =
      before.delivery mode (directoryPath anchor (part :: above)) text := by
  have parts := (parts_of_course before mode above).2
  rw [delivery, delivery, parent_parts, course]
  cases checkPath (directoryPath anchor (part :: above)).parent with
  | error error => rfl
  | ok _ =>
      rcases shape : before.course mode above with ⟨reached, _ | code⟩
      · rw [shape] at parts allows
        have lands : after.landing mode (directoryPath anchor (part :: above)) text reached =
            before.landing mode (directoryPath anchor (part :: above)) text reached := by
          have whole (name : Name)
              (text : name.text = (directoryPath anchor (part :: above)).name) :
              (name :: reached).map Name.part = part :: above := by
            rw [name_parts] at text
            rw [List.map_cons, parts rfl]
            exact congrArg (· :: above) (Part.ext text)
          apply landing_congr
          · apply staging_congr
            · exact allows reached (parts rfl) rfl
            · intro name short text
              exact crowded name reached short (whole name text)
          · intro name text
            exact same _ (whole name text)
        simp only [lands]
      · rfl

/--
At the top, where everything is allowed, nothing but names that are all taken is in the way
of a new file.
-/
theorem delivery_top {time : Timestamp} (short : name.text.byteSize ≤ 241)
    (top : tree.view [] = some (.directory 0o700 time)) (absent : tree.view [name] = none)
    {text : Text} {bytes : ByteArray} (encodes : text.encode? = some bytes) :
    tree.delivery mode (.plain .relative [name]) text =
      ⟨[], if tree.Crowded [] short then .error .crowded else .ok [name]⟩ := by
  have parent : checkPath (Path.plain .relative [name]).parent = .ok () := by
    rw [Path.parent_plain, List.tail_cons]
    exact Path.checkPath_plain (by decide)
  have room : checkPath ((Path.plain .relative [name]).temporary .first) = .ok () := by
    have size := Path.size_text_temporary_le .relative name [] .first
    rw [Path.size_text_plain, List.map_nil, List.sum_nil,
      show Anchor.relative.text.byteSize = 0 from rfl] at size
    rw [Path.temporary_eq short] at size ⊢
    apply Path.checkPath_plain
    rw [pathLimit]
    omega
  have isOpen (right : Right) : (Node.directory 0o700 time).grants right = true := by
    change Nat.testBit 0o700 right.bit = true
    cases right <;> decide
  have granted (right : Right) : tree.allows mode [] right = true := by
    rw [allows, top]
    exact isOpen right
  have enter : tree.grants [] .enter = true := by
    rw [grants_eq_view, top]
    exact isOpen .enter
  have ended : tree.course mode [] = ⟨[], none⟩ := by
    rw [course, enter]
    rfl
  have parts : (Path.plain .relative [name]).parent.parts.reverse = [] := by
    rw [Path.parent_plain]
    rfl
  rw [delivery, parent, parts, ended]
  simp only [stops, Except.mapError, landing, staging, room, granted, Path.name_plain,
    Name.ofText?_text, encodes, bind, Except.bind]
  by_cases crowded : tree.Crowded [] short
  · simp [short, crowded]
  · simp [short, crowded, absent]

end Tree

end MessageTables
