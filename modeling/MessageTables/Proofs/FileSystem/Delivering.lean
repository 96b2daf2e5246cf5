import MessageTables.Proofs.FileSystem.Delivery

/-!
# Files are replaced as their delivery says

The program makes the directories of a file, then a temporary file beside it, and
moves that to its place. Each of these ends as the delivery of the file says, and
what is left is the tree with the directories that were missing and, if nothing was
in the way, the file.
-/

namespace MessageTables

namespace Tree

theorem create_of_unchecked {tree : Tree} {path : Path} {error : AccessError}
    (unchecked : checkPath path = .error error) (node : Node) (time : Timestamp) :
    tree.create path node time = .error error := by
  rw [create, entry, unchecked]
  rfl

theorem ensureDirectory_of_unchecked {tree : Tree} {path : Path} {error : AccessError}
    (unchecked : checkPath path = .error error) (mode : Nat) (time : Timestamp) :
    tree.ensureDirectory path mode time = .error error := by
  have created : tree.create path (.directory mode time) time = .error error :=
    create_of_unchecked unchecked _ _
  have asked : tree.nodeAt path = .error error := by
    rw [nodeAt, locate, place, unchecked]
    rfl
  rw [ensureDirectory, created]
  rcases Path.checkPath_error_cases unchecked with rfl | ⟨rfl, _⟩
  · rfl
  · simp only [test, asked]

end Tree

namespace TreeAction

/-! ## Temporary files -/

variable {tree made : Tree} {anchor : Anchor} {part : Part} {above : List Part}
  {directory : Location} {mode : Nat} {time : Timestamp} {output : Path} {token : Token}

section Made

variable (linkFree : made.LinkFree) (descends : Part.up ∉ part :: above)
  (reached : made.reach above = .ok directory) (isDirectory : made.isDirectory directory = true)

include linkFree descends reached

theorem createTemporary_eq (valid : Tree.checkPath
      ((directoryPath anchor (part :: above)).temporary token) = .ok ()) :
    createTemporary ((directoryPath anchor (part :: above)).temporary token) time made =
      (made.createPart directory (Path.temporaryPart part token)
        (.file .empty temporaryMode time) time).mapError .code := by
  have upward : Part.up ∉ above := fun among => descends (List.mem_cons_of_mem part among)
  have further : Part.up ∉ Path.temporaryPart part token :: above := by
    rw [List.mem_cons, not_or]
    exact ⟨(Path.temporaryPart_ne_up part token).symm, upward⟩
  rw [Path.temporary_parts upward] at valid ⊢
  rw [createTemporary, Tree.create_parts linkFree further valid, reached]
  rfl

/--
Under a name that leaves room, a temporary file is made if it is free and the
directory may be written.
-/
theorem createTemporary_of_room {name : Name} (short : name.text.byteSize ≤ 241)
    (same : name.part = part) (entered : made.checkEnter directory = .ok ())
    (valid : Tree.checkPath ((directoryPath anchor (part :: above)).temporary token) = .ok ())
    (time : Timestamp) :
    createTemporary ((directoryPath anchor (part :: above)).temporary token) time made =
      if (made.view (Path.temporaryName short token :: directory)).isSome then
        .error (.code .alreadyExists)
      else if made.grants directory .write then
        .ok (made.addEntry (Path.temporaryName short token :: directory)
          (.file .empty temporaryMode time) time)
      else .error (.code .denied) := by
  have named : Name.ofText? (Path.temporaryPart part token).text =
      some (Path.temporaryName short token) := by
    subst same
    exact Name.ofText?_text (Path.temporaryName short token)
  rw [createTemporary_eq linkFree descends reached valid, Tree.createPart, entered,
    Tree.isSome_view]
  simp only [bind, Except.bind, named]
  split
  · rfl
  · split <;> rfl

/-- The name of a temporary file is too long if the name of its output leaves no room. -/
theorem createTemporary_of_overlong
    (long : ∀ name, Name.ofText? part.text = some name → ¬name.text.byteSize ≤ 241)
    (entered : made.checkEnter directory = .ok ())
    (valid : Tree.checkPath ((directoryPath anchor (part :: above)).temporary token) = .ok ()) :
    createTemporary ((directoryPath anchor (part :: above)).temporary token) time made =
      .error (.code .nameTooLong) := by
  have differs : part ≠ Part.up := by
    rintro rfl
    exact descends List.mem_cons_self
  have overlong : Name.ofText? (Path.temporaryPart part token).text = none := by
    apply dif_neg
    intro isName
    rcases Path.isName_of_temporaryText differs isName with ⟨isPartName, short⟩
    exact long ⟨part.text, isPartName⟩ (dif_pos isPartName) short
  rw [createTemporary_eq linkFree descends reached valid, Tree.createPart, entered]
  simp only [bind, Except.bind, overlong]
  rfl

include isDirectory

/--
The staging of an output comes to what the making of its temporary file comes to:
with every token the same refusal, or with each what stands at its name decides.
-/
theorem staging_cases (anchor : Anchor) (mode : Nat) (time : Timestamp) :
    (∃ error, error ≠ .code .alreadyExists ∧
        (∀ token, createTemporary ((directoryPath anchor (part :: above)).temporary token) time
          made = .error error) ∧
        made.staging mode (directoryPath anchor (part :: above)) directory =
          .error (.refused error [])) ∨
      ∃ (name : Name) (short : name.text.byteSize ≤ 241), name.part = part ∧
        (∀ token, createTemporary ((directoryPath anchor (part :: above)).temporary token) time
          made =
            if (made.view (Path.temporaryName short token :: directory)).isSome then
              .error (.code .alreadyExists)
            else if made.grants directory .write then
              .ok (made.addEntry (Path.temporaryName short token :: directory)
                (.file .empty temporaryMode time) time)
            else .error (.code .denied)) ∧
        made.staging mode (directoryPath anchor (part :: above)) directory =
          if made.Crowded directory short then .error .crowded
          else if made.grants directory .write then .ok name
          else .error (.ofCode .denied) := by
  have upward : Part.up ∉ above := fun among => descends (List.mem_cons_of_mem part among)
  rw [Tree.staging, Tree.name_parts, Tree.allows_eq_grants isDirectory,
    Tree.allows_eq_grants isDirectory]
  cases checked : Tree.checkPath ((directoryPath anchor (part :: above)).temporary .first) with
  | error error =>
      refine Or.inl ⟨error, ?_, ?_, rfl⟩
      · rcases Path.checkPath_error_cases checked with rfl | ⟨rfl, _⟩ <;> decide
      · intro token
        rw [Path.checkPath_temporary_eq upward .first token] at checked
        exact Tree.create_of_unchecked checked _ _
  | ok _ =>
      have valid (token : Token) :
          Tree.checkPath ((directoryPath anchor (part :: above)).temporary token) = .ok () := by
        rw [Path.checkPath_temporary_eq upward token .first, checked]
      simp only [Tree.stops, Except.mapError, bind, Except.bind]
      cases granted : made.grants directory .enter with
      | false =>
          refine Or.inl ⟨.code .denied, by decide, ?_, rfl⟩
          intro token
          rw [createTemporary_eq linkFree descends reached (valid token)]
          simp [Tree.createPart, Tree.checkEnter, isDirectory, granted, bind, Except.bind,
            Except.mapError]
      | true =>
          have entered : made.checkEnter directory = .ok () :=
            Tree.checkEnter_eq_ok_iff.mpr ⟨isDirectory, granted⟩
          have overlong
              (long : ∀ name, Name.ofText? part.text = some name → ¬name.text.byteSize ≤ 241)
              (token : Token) :
              createTemporary ((directoryPath anchor (part :: above)).temporary token) time made =
                .error (.code .nameTooLong) :=
            createTemporary_of_overlong linkFree descends reached long entered (valid token)
          cases named : Name.ofText? part.text with
          | none =>
              refine Or.inl ⟨.code .nameTooLong, by decide, overlong ?_, rfl⟩
              intro name other
              rw [named] at other
              cases other
          | some name =>
              by_cases short : name.text.byteSize ≤ 241
              · have same : name.part = part := Part.ext (Name.eq_of_ofText? named)
                refine Or.inr ⟨name, short, same, fun token =>
                  createTemporary_of_room linkFree descends reached short same entered
                    (valid token) time, ?_⟩
                cases made.grants directory .write <;> simp [short]
              · refine Or.inl ⟨.code .nameTooLong, by decide, overlong ?_, ?_⟩
                · intro other alsoNamed
                  cases named.symm.trans alsoNamed
                  exact short
                · simp [short, Mishap.ofCode]

/-- A temporary file is made if the staging of its output says so, whatever is drawn. -/
theorem makeTemporary_cases_of_staging (anchor : Anchor) (mode : Nat) (draw : Draw)
    (time : Timestamp) :
    (∃ mishap : Mishap,
        makeTemporary (directoryPath anchor (part :: above)) draw time made =
          .error mishap made ∧
        made.staging mode (directoryPath anchor (part :: above)) directory =
          .error mishap.bare) ∨
      ∃ name token started, name.part = part ∧
        made.staging mode (directoryPath anchor (part :: above)) directory = .ok name ∧
        createTemporary ((directoryPath anchor (part :: above)).temporary token) time made =
          .ok started ∧
        makeTemporary (directoryPath anchor (part :: above)) draw time made =
          .ok ((directoryPath anchor (part :: above)).temporary token) started := by
  have staged := staging_cases linkFree descends reached isDirectory anchor mode time
  rcases makeTemporary_cases (directoryPath anchor (part :: above)) draw time made with
    ⟨taken, ends⟩ | ⟨token, untaken, ends⟩
  · rcases staged with ⟨error, other, refused, _⟩ | ⟨name, short, _, creates, stages⟩
    · have same := taken .first
      rw [IsTaken, refused .first] at same
      exact absurd (Except.error.inj same) other
    · have crowded : made.Crowded directory short := by
        intro token
        by_contra free
        have same := taken token
        rw [IsTaken, creates token, if_neg free] at same
        split at same
        · cases same
        · cases same
      rw [if_pos crowded] at stages
      exact Or.inl ⟨_, ends, stages⟩
  · rcases staged with ⟨error, _, refused, stages⟩ | ⟨name, short, same, creates, stages⟩
    · rw [refused token] at ends
      exact Or.inl ⟨_, ends, stages⟩
    · have created := creates token
      have free : ¬(made.view (Path.temporaryName short token :: directory)).isSome = true := by
        intro present
        rw [if_pos present] at created
        exact untaken created
      rw [if_neg free] at created
      rw [if_neg fun crowded => free (crowded token)] at stages
      cases written : made.grants directory .write with
      | true =>
          simp only [written, if_true] at created stages
          rw [created] at ends
          exact Or.inr ⟨name, token, _, same, stages, created, ends⟩
      | false =>
          simp only [written, Bool.false_eq_true, if_false] at created stages
          rw [created] at ends
          exact Or.inl ⟨_, ends, stages⟩

end Made

/-! ## The output -/

theorem checkPath_of_temporary (descends : Part.up ∉ above)
    (valid : Tree.checkPath ((directoryPath anchor (part :: above)).temporary token) = .ok ()) :
    Tree.checkPath (directoryPath anchor (part :: above)) = .ok () := by
  rw [Path.temporary_parts descends] at valid
  rw [Path.checkPath_eq_ok_iff] at valid ⊢
  constructor
  · simpa only [Path.NullFree, directoryPath, List.mem_reverse, List.forall_mem_cons,
      Path.temporaryPart, Path.null_mem_temporaryText_iff] using valid.1
  · have longer : anchor.text.byteSize ≤ anchor.absolute.text.byteSize := by
      cases anchor <;> decide
    have short := valid.2
    simp only [directoryPath, Path.size_text, Path.temporaryPart, Path.byteSize_temporaryText]
      at short ⊢
    omega

end TreeAction

namespace Tree

open TreeAction

variable {tree before middle made filled after : Tree} {anchor : Anchor} {part : Part}
  {above : List Part} {directory reached location : Location} {mode fileMode : Nat}
  {time : Timestamp} {output temporary : Path} {text : Text} {bytes : ByteArray}

theorem entryLocation?_parts {name : Name} (linkFree : made.LinkFree)
    (descends : Part.up ∉ part :: above)
    (valid : checkPath (directoryPath anchor (part :: above)) = .ok ())
    (reached : made.reach above = .ok directory) (entered : made.checkEnter directory = .ok ())
    (same : name.part = part) :
    made.entryLocation? (directoryPath anchor (part :: above)) = some (name :: directory) := by
  subst same
  rw [entryLocation?_eq_some_iff]
  refine ⟨directory, name.text, name, ?_, name.ofText?_text, rfl⟩
  rw [entry_parts linkFree descends valid, reached]
  simp only [bind, Except.bind, entered, Except.mapError]
  rfl

/-- A temporary file cannot take the place of a directory. -/
theorem HoldsTemporary.rename_of_isDirectory {target : Location}
    (holds : made.HoldsTemporary filled temporary location bytes fileMode time)
    (found : made.entryLocation? output = some target)
    (isDirectory : made.isDirectory target = true)
    (granted : made.grants target.tail .write = true) (now : Timestamp) :
    filled.rename temporary output now = .error (.code .isDirectory) := by
  rcases entryLocation?_eq_some_iff.mp (holds.kept.entryLocation? holds.found) with
    ⟨origin, text, name, entered, named, rfl⟩
  rcases entryLocation?_eq_some_iff.mp (holds.kept.entryLocation? found) with
    ⟨parent, otherText, other, reached, otherNamed, rfl⟩
  have first := holds.kept.grants holds.granted
  have second := holds.kept.grants granted
  have replaced := holds.isDirectory_eq (other :: parent)
  rw [isDirectory, Tree.isDirectory] at replaced
  rw [List.tail_cons] at first second
  rw [Tree.rename, entered, reached]
  simp only [bind, Except.bind, entryNamed, named, otherNamed, holds.there, first, second,
    replaced, Bool.and_self, Bool.not_true, Bool.false_eq_true, if_false, if_true]
  rfl

/-! ## What is left -/

/--
A tree in which directories have been made down to a location and, perhaps, a file has been
put somewhere.
-/
def Leaves (before after : Tree) (mode : Nat) (reached : Location) (target : Option Location)
    (file : Node) : Prop :=
  ∀ key, after.view key =
    if target = some key then some file
    else if key <:+ reached ∧ before.view key = none then some (.directory mode ⟨0, 0⟩)
    else before.view key

theorem Fills.leaves {target : Option Location} {file : Node}
    (fills : before.Fills middle mode reached)
    (put : ∀ key, after.view key = if target = some key then some file else middle.view key) :
    before.Leaves after mode reached target file := by
  intro key
  rw [put, fills.view]

theorem Leaves.refl (tree : Tree) (mode : Nat) (file : Node) :
    tree.Leaves tree mode [] none file := by
  exact (fills_of_isDirectory tree.isDirectory_nil mode).leaves fun _ => rfl

/-- Where a file lands is not changed by the directories that are made for it. -/
theorem Follows.landing_eq (follows : before.Follows after mode above) (output : Path)
    (text : Text) :
    after.landing mode output text (before.course mode above).reached =
      before.landing mode output text (before.course mode above).reached := by
  have view (name : Name) : after.view (name :: (before.course mode above).reached) =
      before.view (name :: (before.course mode above).reached) := by
    rw [follows.fills.view, if_neg fun within => not_cons_suffix name _ within.1]
  apply landing_congr
  · apply staging_congr
    · exact (follows.steadyAt _).allows_eq
    · intro name short _
      simp only [Crowded, view]
  · intro name _
    rw [isDirectory_eq_view, view, ← isDirectory_eq_view]

end Tree

/-- What keeps a file from being put somewhere. -/
def Delivery.obstacle (delivery : Delivery) : Option Mishap :=
  match delivery.target with
  | .ok _ => none
  | .error mishap => some mishap

namespace TreeAction

variable {tree made : Tree} {anchor : Anchor} {part : Part} {above : List Part}
  {directory : Location} {mode : Nat} {time : Timestamp}

/-- The directories of a file are those that its path has above the last part. -/
theorem makeDirectories_parent (part : Part) :
    makeDirectories (directoryPath anchor (part :: above)).anchor mode time
        (directoryPath anchor (part :: above)).parent.parts.reverse =
      makeDirectories anchor mode time above := by
  rw [Tree.parent_parts]
  rfl

theorem makeDirectories_of_unchecked {error : AccessError} {parts : List Part}
    (unchecked : Tree.checkPath (directoryPath anchor parts) = .error error) (mode : Nat)
    (time : Timestamp) (tree : Tree) :
    ∃ paths, makeDirectories anchor mode time parts tree =
      .error (.refused error paths) tree := by
  have refused : tree.ensureDirectory (directoryPath anchor parts) mode time = .error error :=
    Tree.ensureDirectory_of_unchecked unchecked mode time
  cases parts with
  | nil =>
      have refuses : makeDirectories anchor mode time [] tree = .error (.refused error _) tree :=
        change_of_error refused
      exact ⟨_, refuses⟩
  | cons part above =>
      rcases makeDirectories_cons_cases anchor mode time part above tree with
        ⟨after, made, _⟩ | ⟨other, _, failed, same⟩ | ⟨missing, _⟩
      · rw [refused] at made
        cases made
      · rw [refused] at failed
        cases failed
        exact ⟨_, same⟩
      · rw [refused] at missing
        cases missing
        rcases Path.checkPath_error_cases unchecked with impossible | ⟨impossible, _⟩
        · cases impossible
        · cases impossible

/-- Once the directories of a file are there, it is put where it lands. -/
theorem exists_replaceFile_of_made (linkFree : made.LinkFree) (descends : Part.up ∉ part :: above)
    (text : Text) (draw : Draw)
    (directories : makeDirectories anchor mode time above tree = .ok () made)
    (reached : made.reach above = .ok directory)
    (isDirectory : made.isDirectory directory = true) :
    ∃ after,
      EndsAs (replaceFile (directoryPath anchor (part :: above)) text mode draw time tree)
        (Delivery.obstacle
          ⟨directory, made.landing mode (directoryPath anchor (part :: above)) text directory⟩)
        after ∧
      ∀ key, after.view key =
        if (made.landing mode (directoryPath anchor (part :: above)) text directory).toOption =
          some key then some (.file text.bytes replacementMode time) else made.view key := by
  have upward : Part.up ∉ above := fun among => descends (List.mem_cons_of_mem part among)
  rw [← makeDirectories_parent part] at directories
  rw [Tree.landing]
  rcases makeTemporary_cases_of_staging linkFree descends reached isDirectory anchor mode draw time
    with ⟨mishap, makes, staged⟩ | ⟨name, token, started, same, staged, created, makes⟩
  · rw [staged]
    exact ⟨made, ⟨mishap, rfl, replaceFile_of_not_made directories makes⟩, fun _ => rfl⟩
  rw [staged]
  simp only [bind, Except.bind]
  cases encodes : text.encode? with
  | none =>
      rcases replaceFile_of_unencodable directories created makes encodes with
        ⟨location, holds, ends⟩
      refine ⟨_, ⟨_, rfl, ends⟩, ?_⟩
      intro key
      rw [holds.view_removed]
      rfl
  | some bytes =>
      cases Text.eq_bytes_of_encode? encodes
      rcases replaceFile_of_encoded directories created makes encodes with
        ⟨location, filled, holds, ends⟩
      rcases Tree.staging_eq_ok staged with ⟨valid, entered, written, _⟩
      rw [Tree.allows_eq_grants isDirectory] at entered written
      have found := Tree.entryLocation?_parts linkFree descends
        (checkPath_of_temporary upward valid) reached
        (Tree.checkEnter_eq_ok_iff.mpr ⟨isDirectory, entered⟩) same
      simp only [Option.isNone_some, Bool.false_eq_true, if_false, ← Tree.isDirectory_eq_view]
      cases replaced : made.isDirectory (name :: directory) with
      | true =>
          rw [holds.rename_of_isDirectory found replaced written time] at ends
          refine ⟨filled.removeEntry location time, ⟨_, rfl, ends⟩, ?_⟩
          intro key
          rw [holds.view_removed]
          rfl
      | false =>
          rcases holds.exists_rename found replaced written time with ⟨after, renamed⟩
          rw [renamed] at ends
          refine ⟨after, ends, ?_⟩
          rcases holds.rename renamed with ⟨target, there, _, view, _⟩
          rw [holds.kept.entryLocation? found] at there
          cases there
          intro key
          simp only [view, Bool.false_eq_true, if_false, Except.toOption]
          by_cases here : key = name :: directory
          · rw [if_pos here, if_pos (congrArg some here.symm)]
          · rw [if_neg here, if_neg fun same => here (Option.some.inj same).symm]

/-- A file is replaced as its delivery says, whatever is drawn, and nothing else is left behind. -/
theorem exists_replaceFile_endsAs (linkFree : tree.LinkFree) (descends : Part.up ∉ part :: above)
    (anchor : Anchor) (text : Text) (mode : Nat) (draw : Draw) (time : Timestamp) :
    let delivery := tree.delivery mode (directoryPath anchor (part :: above)) text
    ∃ after,
      EndsAs (replaceFile (directoryPath anchor (part :: above)) text mode draw time tree)
        delivery.obstacle after ∧
      tree.Leaves after mode delivery.reached delivery.target.toOption
        (.file text.bytes replacementMode time) := by
  have upward : Part.up ∉ above := fun among => descends (List.mem_cons_of_mem part among)
  have parent : (directoryPath anchor (part :: above)).parent = directoryPath anchor above := by
    rw [directoryPath_cons, Path.parent_child]
  rcases Tree.delivery_cases tree mode (directoryPath anchor (part :: above)) text with
    ⟨error, unchecked, same⟩ | ⟨valid, ends⟩
  · rw [parent] at unchecked
    rcases makeDirectories_of_unchecked unchecked mode time tree with ⟨paths, refused⟩
    rw [← makeDirectories_parent part] at refused
    simp only [same]
    exact ⟨tree, ⟨_, rfl, replaceFile_of_error refused⟩, Tree.Leaves.refl tree mode _⟩
  rw [parent] at valid
  rw [Tree.parent_parts] at ends
  rcases exists_makeDirectories_eq linkFree upward valid mode time with ⟨made, makes, follows⟩
  have fills := follows.fills
  rcases ends with ⟨reached, code, gets, same⟩ | ⟨reached, gets, same⟩
  · rw [gets] at makes fills
    rcases makes with ⟨mishap, bare, makes⟩
    rw [← makeDirectories_parent part] at makes
    simp only [same]
    exact ⟨made, ⟨mishap, bare, replaceFile_of_error makes⟩, fills.leaves fun _ => rfl⟩
  · have clear : (tree.course mode above).obstacle = none := by rw [gets]
    have leads := follows.reach_eq clear
    have directory := follows.isDirectory clear
    have lands := follows.landing_eq (directoryPath anchor (part :: above)) text
    rw [gets] at makes fills directory leads lands
    rcases exists_replaceFile_of_made (fills.linkFree linkFree) descends text draw makes leads
      directory with ⟨after, replaced, put⟩
    rw [lands] at replaced put
    simp only [same]
    exact ⟨after, replaced, fills.leaves put⟩

end TreeAction

end MessageTables
