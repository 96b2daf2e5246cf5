import MessageTables.Proofs.FileSystem.Directories

/-!
# What replacing a file does

A temporary file is made where nothing was, with a token that was free. It is filled
unless the text holds stray bytes, and filling it and giving it its permissions
cannot fail otherwise. So there is one tree that everything after the directories is
seen against: when the file is not filled or cannot take the output's place it is
removed and the view is that tree's again, and when it can, the view differs from
that tree's only at the output.
-/

namespace MessageTables

namespace TreeAction

section Temporary

variable {output : Path} {draw : Draw} {time : Timestamp} {token : Token} {tree : Tree}

/-- Whether a temporary file cannot be made because something has its name. -/
def IsTaken (output : Path) (time : Timestamp) (tree : Tree) (token : Token) : Prop :=
  createTemporary (output.temporary token) time tree = .error (.code .alreadyExists)

theorem matches_alreadyExists_iff {result : Except AccessError Tree} :
    (result matches .error (.code .alreadyExists)) = true ↔
      result = .error (.code .alreadyExists) := by
  constructor
  · intro matches'
    split at matches'
    next => rfl
    next => cases matches'
  · rintro rfl
    rfl

/-- How a temporary file is made, or not: a token that is not taken decides, if there is one. -/
theorem makeTemporary_cases (output : Path) (draw : Draw) (time : Timestamp) (tree : Tree) :
    ((∀ token, IsTaken output time tree token) ∧
        makeTemporary output draw time tree = .error .crowded tree) ∨
      ∃ token, ¬IsTaken output time tree token ∧
        makeTemporary output draw time tree =
          match createTemporary (output.temporary token) time tree with
          | .ok started => .ok (output.temporary token) started
          | .error error => .error (.refused error [output.temporary token]) tree := by
  have current : (get : TreeAction Tree) tree = .ok tree tree := rfl
  rw [makeTemporary, bind_of_ok current]
  cases drawn : draw.pick fun token =>
      createTemporary (output.temporary token) time tree matches
        .error (.code .alreadyExists) with
  | none =>
      exact Or.inl
        ⟨fun token => matches_alreadyExists_iff.mp (draw.taken_of_pick drawn token), rfl⟩
  | some token =>
      have untaken : ¬IsTaken output time tree token := by
        intro taken
        have free := draw.pick_free drawn
        rw [matches_alreadyExists_iff.mpr taken] at free
        cases free
      refine Or.inr ⟨token, untaken, ?_⟩
      cases created : createTemporary (output.temporary token) time tree with
      | ok started =>
          have creates : change [output.temporary token]
              (createTemporary (output.temporary token) time) tree = .ok () started :=
            change_of_ok created
          simp only
          rw [bind_of_ok creates]
          rfl
      | error error =>
          have refuses : change [output.temporary token]
              (createTemporary (output.temporary token) time) tree =
                .error (.refused error [output.temporary token]) tree :=
            change_of_error created
          simp only
          rw [bind_of_error refuses]

/-- Without a temporary file nothing has changed, and no text was to be encoded. -/
theorem makeTemporary_error {mishap : Mishap} {after : Tree}
    (refused : makeTemporary output draw time tree = .error mishap after) :
    after = tree ∧ ∀ text, mishap ≠ .unencodable text := by
  rcases makeTemporary_cases output draw time tree with ⟨_, ends⟩ | ⟨token, _, ends⟩
  · rw [ends] at refused
    cases refused
    exact ⟨rfl, nofun⟩
  · rw [ends] at refused
    split at refused
    · cases refused
    · cases refused
      exact ⟨rfl, nofun⟩

end Temporary

end TreeAction

namespace Tree

/-- A tree that differs from another by a file where a temporary path leads to. -/
structure HoldsTemporary (made filled : Tree) (temporary : Path) (location : Location)
    (bytes : ByteArray) (mode : Nat) (time : Timestamp) : Prop where
  found : made.entryLocation? temporary = some location
  absent : made.node? location = none
  granted : made.grants location.tail .write = true
  there : filled.node? location = some (.file bytes mode time)
  beside : ∀ key, key ≠ location → key ≠ location.tail → filled.node? key = made.node? key
  view : ∀ key, filled.view key =
    if key = location then some (.file bytes mode time) else made.view key

variable {made filled after : Tree} {temporary : Path} {location : Location} {bytes : ByteArray}
  {mode : Nat} {time : Timestamp}

theorem holdsTemporary_of_create (created :
    made.create temporary (.file bytes mode time) time = .ok filled) :
    ∃ location, made.HoldsTemporary filled temporary location bytes mode time := by
  rcases create_eq_ok_iff.mp created with ⟨location, found, absent, granted, rfl⟩
  have fits := fits_of_entryLocation? found (isDirectory_eq_false_of_node?_eq_none absent)
    (.file bytes mode time)
  refine ⟨location, found, absent, granted, ?_, ?_, view_addEntry fits time⟩
  · rw [node?_addEntry fits time (tail_ne_self (entryLocation?_ne_nil found)), if_pos rfl]
  · intro key differs outside
    rw [node?_addEntry fits time outside, if_neg differs]

namespace HoldsTemporary

theorem kept (holds : made.HoldsTemporary filled temporary location bytes mode time) :
    made.KeptIn filled :=
  keptIn_of_view_eq_update holds.absent holds.view

theorem set (holds : made.HoldsTemporary filled temporary location bytes mode time)
    (newBytes : ByteArray) (newMode : Nat) (now : Timestamp) :
    made.HoldsTemporary (filled.set location (.file newBytes newMode now)) temporary location
      newBytes newMode now := by
  have found := holds.kept.entryLocation? holds.found
  have noDirectory : filled.isDirectory location = false := by
    rw [isDirectory, holds.there]
    rfl
  have fits := fits_of_entryLocation? found noDirectory (.file newBytes newMode now)
  refine ⟨holds.found, holds.absent, holds.granted, ?_, ?_, ?_⟩
  · rw [node?_set fits, if_pos rfl]
  · intro key differs outside
    rw [node?_set fits, if_neg differs, holds.beside key differs outside]
  · intro key
    rw [view_set fits]
    split
    · rfl
    · rename_i differs
      rw [holds.view, if_neg differs]

theorem write (holds : made.HoldsTemporary filled temporary location bytes mode time)
    (writable : mode.testBit Right.write.bit = true) (newBytes : ByteArray) (newMode : Nat)
    (now : Timestamp) :
    filled.write temporary newBytes newMode now =
      .ok (filled.set location (.file newBytes mode now)) :=
  write_file (holds.kept.entryLocation? holds.found) holds.there writable newBytes newMode now

theorem changeMode (holds : made.HoldsTemporary filled temporary location bytes mode time)
    (newMode : Nat) :
    filled.changeMode temporary newMode = .ok (filled.set location (.file bytes newMode time)) :=
  changeMode_file (holds.kept.entryLocation? holds.found) holds.there newMode

theorem isDirectory_eq (holds : made.HoldsTemporary filled temporary location bytes mode time)
    (key : Location) : filled.isDirectory key = made.isDirectory key := by
  rw [isDirectory_eq_view, isDirectory_eq_view, holds.view]
  split
  · rename_i here
    rw [here, view_eq_none_iff.mpr holds.absent]
    rfl
  · rfl

/-- Nothing was at the temporary location, so nothing was below it. -/
theorem absent_below (holds : made.HoldsTemporary filled temporary location bytes mode time)
    {key : Location} (below : location <:+ key) : made.view key = none := by
  by_cases here : key = location
  · rw [here, view_eq_none_iff.mpr holds.absent]
  · exact view_eq_none_of_suffix (isDirectory_eq_false_of_node?_eq_none holds.absent) below here

theorem view_removed (holds : made.HoldsTemporary filled temporary location bytes mode time)
    (now : Timestamp) : (filled.removeEntry location now).view = made.view := by
  funext key
  rw [view_removeEntry (entryLocation?_ne_nil holds.found)]
  split
  · rename_i below
    exact (holds.absent_below below).symm
  · rename_i beside
    have differs : key ≠ location := by
      rintro rfl
      exact beside (List.suffix_refl _)
    rw [holds.view, if_neg differs]

theorem node?_removed (holds : made.HoldsTemporary filled temporary location bytes mode time)
    (now : Timestamp) {key : Location} (outside : key ≠ location.tail) :
    (filled.removeEntry location now).node? key = made.node? key := by
  rw [node?_removeEntry (entryLocation?_ne_nil holds.found) now outside]
  split
  · rename_i below
    exact (view_eq_none_iff.mp (holds.absent_below below)).symm
  · rename_i beside
    apply holds.beside key _ outside
    rintro rfl
    exact beside (List.suffix_refl _)

theorem unlink (holds : made.HoldsTemporary filled temporary location bytes mode time)
    (now : Timestamp) :
    filled.unlink temporary now = .ok (filled.removeEntry location now) := by
  have found := holds.kept.entryLocation? holds.found
  have granted := holds.kept.grants holds.granted
  exact unlink_file found holds.there granted now

/-- A file that has taken the output's place is the only difference left. -/
theorem rename (holds : made.HoldsTemporary filled temporary location bytes mode time)
    {output : Path} {now : Timestamp} (renamed : filled.rename temporary output now = .ok after) :
    ∃ target, filled.entryLocation? output = some target ∧ made.isDirectory target = false ∧
      (∀ key, after.view key =
        if key = target then some (.file bytes mode time) else made.view key) ∧
      ∀ key, key ≠ location.tail → key ≠ target.tail → after.node? key =
        if key = target then some (.file bytes mode time) else made.node? key := by
  rcases rename_eq_ok_iff.mp renamed with
    ⟨origin, target, node, originFound, there, targetFound, noDirectory, _, _, rfl⟩
  have same : origin = location := by
    have found := holds.kept.entryLocation? holds.found
    rw [originFound] at found
    exact Option.some.inj found
  subst same
  have moved : node = .file bytes mode time := by
    rw [holds.there] at there
    exact (Option.some.inj there).symm
  subst moved
  have unmade : made.isDirectory target = false := by rw [← holds.isDirectory_eq, noDirectory]
  have fits : (filled.removeEntry origin now).Fits target (.file bytes mode time) := by
    cases target with
    | nil => exact absurd rfl (entryLocation?_ne_nil targetFound)
    | cons name parent =>
        apply fits_of_not_isDirectory
        · rw [isDirectory_eq_view, holds.view_removed, ← isDirectory_eq_view,
            ← holds.isDirectory_eq]
          exact isDirectory_of_entryLocation? targetFound
        · rw [isDirectory_eq_view, holds.view_removed, ← isDirectory_eq_view, unmade]
  refine ⟨target, targetFound, unmade, ?_, ?_⟩
  · intro key
    rw [view_addEntry fits, holds.view_removed]
    rfl
  · intro key outside beside
    rw [node?_addEntry fits now beside, holds.node?_removed now outside]

end HoldsTemporary

end Tree

namespace TreeAction

variable {made started : Tree} {temporary : Path} {time : Timestamp} {text : Text}

/-- A temporary file that has been made can be filled with a text that can be encoded. -/
theorem exists_filled {bytes : ByteArray} (encodes : text.encode? = some bytes)
    (created : createTemporary temporary time made = .ok started) :
    ∃ location filled,
      made.HoldsTemporary filled temporary location bytes replacementMode time ∧
        ∀ next : TreeAction Unit,
          (do
            fillTemporary temporary text time
            change [temporary] (·.changeMode temporary replacementMode)
            next) started = next filled := by
  rcases Tree.holdsTemporary_of_create created with ⟨location, holds⟩
  have writes : fillTemporary temporary text time started =
      .ok () (started.set location (.file bytes temporaryMode time)) := by
    rw [fillTemporary, encodes]
    exact change_of_ok (holds.write (by decide) bytes temporaryMode time)
  have written := holds.set bytes temporaryMode time
  have grants : change [temporary] (·.changeMode temporary replacementMode) _ = .ok () _ :=
    change_of_ok (written.changeMode replacementMode)
  refine ⟨location, _, written.set bytes replacementMode time, ?_⟩
  intro next
  rw [bind_of_ok writes, bind_of_ok grants]

theorem dropTemporary_of_holds {filled : Tree} {location : Location} {bytes : ByteArray}
    {mode : Nat} (holds : made.HoldsTemporary filled temporary location bytes mode time) :
    dropTemporary temporary time filled = .ok () (filled.removeEntry location time) := by
  have removes : change [temporary] (·.unlink temporary time) filled =
      .ok () (filled.removeEntry location time) :=
    change_of_ok (holds.unlink time)
  exact tryCatch_of_ok removes _

section Replacing

/-- The ways in which replacing a file ends once the directories are there. -/
inductive Ending (output : Path) (text : Text) (time : Timestamp) (made : Tree) :
    EStateM.Result Mishap Tree Unit → Prop where
  /-- No temporary file can be made. -/
  | unstarted {draw : Draw} {mishap : Mishap}
      (refused : makeTemporary output draw time made = .error mishap made) :
      Ending output text time made (.error mishap made)
  /-- The text has no bytes to fill the temporary file with, which is removed. -/
  | unfilled {started after : Tree} {token : Token} {location : Location}
      (holds : made.HoldsTemporary started (output.temporary token) location .empty
        temporaryMode time)
      (unencodable : text.encode? = none)
      (removed : after = started.removeEntry location time) :
      Ending output text time made (.error (.unencodable text) after)
  /-- The temporary file cannot take the place of the output, and is removed. -/
  | undone {bytes : ByteArray} {error : AccessError} {filled after : Tree} {token : Token}
      {location : Location}
      (holds : made.HoldsTemporary filled (output.temporary token) location bytes
        replacementMode time)
      (refused : filled.rename (output.temporary token) output time = .error error)
      (removed : after = filled.removeEntry location time) :
      Ending output text time made (.error (.refused error [output.temporary token, output]) after)
  | done {bytes : ByteArray} {filled after : Tree} {token : Token} {location : Location}
      (holds : made.HoldsTemporary filled (output.temporary token) location bytes
        replacementMode time)
      (encodes : text.encode? = some bytes)
      (renamed : filled.rename (output.temporary token) output time = .ok after) :
      Ending output text time made (.ok () after)

variable {output : Path} {mode : Nat} {draw : Draw} {tree : Tree} {token : Token}

/--
A failure leaves the tree with the directories, or that tree with a temporary file made and
removed.
-/
theorem Ending.error_cases {mishap : Mishap} {after : Tree}
    (ending : Ending output text time made (.error mishap after)) :
    after = made ∨ ∃ filled token location bytes mode,
      made.HoldsTemporary filled (output.temporary token) location bytes mode time ∧
        after = filled.removeEntry location time := by
  cases ending with
  | unstarted refused => exact Or.inl rfl
  | unfilled holds unencodable removed => exact Or.inr ⟨_, _, _, _, _, holds, removed⟩
  | undone holds refused removed => exact Or.inr ⟨_, _, _, _, _, holds, removed⟩

theorem replaceFile_of_error {mishap : Mishap}
    (failed : makeDirectories output.anchor mode time output.parent.parts.reverse tree =
      .error mishap made) :
    replaceFile output text mode draw time tree = .error mishap made :=
  bind_of_error failed _

section Made

variable (directories : makeDirectories output.anchor mode time output.parent.parts.reverse tree =
  .ok () made)

include directories

theorem replaceFile_of_not_made {mishap : Mishap}
    (refused : makeTemporary output draw time made = .error mishap made) :
    replaceFile output text mode draw time tree = .error mishap made := by
  rw [replaceFile, bind_of_ok directories, bind_of_error refused]

variable (created : createTemporary (output.temporary token) time made = .ok started)
  (makes : makeTemporary output draw time made = .ok (output.temporary token) started)

include created makes

/-- A text that cannot be encoded comes to nothing once the temporary file is made. -/
theorem replaceFile_of_unencodable (unencodable : text.encode? = none) :
    ∃ location,
      made.HoldsTemporary started (output.temporary token) location .empty temporaryMode time ∧
        replaceFile output text mode draw time tree =
          .error (.unencodable text) (started.removeEntry location time) := by
  rcases Tree.holdsTemporary_of_create created with ⟨location, holds⟩
  have fails : fillTemporary (output.temporary token) text time started =
      .error (.unencodable text) started := by
    rw [fillTemporary, unencodable]
    rfl
  refine ⟨location, holds, ?_⟩
  rw [replaceFile, bind_of_ok directories, bind_of_ok makes,
    tryCatch_of_error (bind_of_error fails _), bind_of_ok (dropTemporary_of_holds holds)]
  rfl

/-- Once the temporary file is made, the rest is whether it can take the output's place. -/
theorem replaceFile_of_encoded {bytes : ByteArray} (encodes : text.encode? = some bytes) :
    ∃ location filled,
      made.HoldsTemporary filled (output.temporary token) location bytes replacementMode time ∧
        replaceFile output text mode draw time tree =
          match filled.rename (output.temporary token) output time with
          | .ok after => .ok () after
          | .error error =>
              .error (.refused error [output.temporary token, output])
                (filled.removeEntry location time) := by
  rcases exists_filled encodes created with ⟨location, filled, holds, fills⟩
  refine ⟨location, filled, holds, ?_⟩
  rw [replaceFile, bind_of_ok directories, bind_of_ok makes]
  cases renamed : filled.rename (output.temporary token) output time with
  | ok after =>
      have renames : change [output.temporary token, output]
          (·.rename (output.temporary token) output time) filled = .ok () after :=
        change_of_ok renamed
      rw [tryCatch_of_ok ((fills _).trans renames)]
  | error error =>
      have refuses : change [output.temporary token, output]
          (·.rename (output.temporary token) output time) filled =
            .error (.refused error [output.temporary token, output]) filled :=
        change_of_error renamed
      rw [tryCatch_of_error ((fills _).trans refuses), bind_of_ok (dropTemporary_of_holds holds)]
      rfl

end Made

variable (text draw) in
theorem ending_of_makeDirectories
    (directories : makeDirectories output.anchor mode time output.parent.parts.reverse tree =
      .ok () made) :
    Ending output text time made (replaceFile output text mode draw time tree) := by
  rcases makeTemporary_cases output draw time made with ⟨_, refused⟩ | ⟨token, _, makes⟩
  · rw [replaceFile_of_not_made directories refused]
    exact .unstarted refused
  cases created : createTemporary (output.temporary token) time made with
  | error error =>
      rw [created] at makes
      rw [replaceFile_of_not_made directories makes]
      exact .unstarted makes
  | ok started =>
      rw [created] at makes
      cases encodes : text.encode? with
      | none =>
          rcases replaceFile_of_unencodable directories created makes encodes with
            ⟨location, holds, same⟩
          rw [same]
          exact .unfilled holds encodes rfl
      | some bytes =>
          rcases replaceFile_of_encoded directories created makes encodes with
            ⟨location, filled, holds, same⟩
          rw [same]
          cases renamed : filled.rename (output.temporary token) output time with
          | ok after => exact .done holds encodes renamed
          | error error => exact .undone holds renamed rfl

/-- Whether the directories above an output can be made, and a temporary file for it then. -/
def IsStaged (output : Path) (mode : Nat) (draw : Draw) (time : Timestamp) (tree : Tree) : Prop :=
  ∃ made temporary started,
    makeDirectories output.anchor mode time output.parent.parts.reverse tree = .ok () made ∧
      makeTemporary output draw time made = .ok temporary started

theorem exists_replaceFile_of_unencodable (staged : IsStaged output mode draw time tree)
    (unencodable : text.encode? = none) :
    ∃ after, replaceFile output text mode draw time tree = .error (.unencodable text) after := by
  rcases staged with ⟨made, temporary, started, directories, makes⟩
  rcases makeTemporary_cases output draw time made with ⟨_, ends⟩ | ⟨token, _, ends⟩
  · rw [makes] at ends
    cases ends
  · cases created : createTemporary (output.temporary token) time made with
    | error error =>
        rw [makes, created] at ends
        cases ends
    | ok opened =>
        rw [created] at ends
        rcases replaceFile_of_unencodable directories created ends unencodable with
          ⟨_, _, failed⟩
        exact ⟨_, failed⟩

/-- Only the text itself cannot be encoded, and that is known once there is a file for it. -/
theorem eq_of_replaceFile_unencodable {other : Text} {after : Tree}
    (failed : replaceFile output text mode draw time tree = .error (.unencodable other) after) :
    other = text ∧ text.encode? = none ∧ IsStaged output mode draw time tree := by
  cases directories : makeDirectories output.anchor mode time output.parent.parts.reverse tree with
  | error mishap made =>
      rcases exists_refused_of_makeDirectories _ mode time directories with
        ⟨error, paths, rfl⟩
      rw [replaceFile_of_error directories] at failed
      cases failed
  | ok _ made =>
      cases makes : makeTemporary output draw time made with
      | error mishap last =>
          rcases makeTemporary_error makes with ⟨rfl, apart⟩
          rw [replaceFile_of_not_made directories makes] at failed
          cases failed
          exact absurd rfl (apart other)
      | ok temporary started =>
          have ending := ending_of_makeDirectories text draw directories
          rw [failed] at ending
          cases ending with
          | unfilled holds unencodable removed =>
              exact ⟨rfl, unencodable, made, temporary, started, directories, makes⟩
          | unstarted refused => exact absurd rfl ((makeTemporary_error refused).2 other)

end Replacing

end TreeAction

end MessageTables
