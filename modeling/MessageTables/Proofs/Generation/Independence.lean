import MessageTables.Proofs.FileSystem.Entries
import MessageTables.Proofs.Generation.Success
import MessageTables.Proofs.Generation.Yield

/-!
# Independent runs

Two runs are independent if neither's output gets into the way of the other's table
or output. What a run comes to is told by the tree that it starts in, and each of two
independent runs finds everything that it looks at as if it came first, but for
directories above its table that the other has made. So they may come in either order.

There are two exceptions. A missing table may be missed in a different way: behind a
directory that was missing and has been made, a name that is too long or a directory
that may not be entered is found before the table is. And an output may be the last
free name for a temporary file beside the other one.
-/

namespace MessageTables

namespace Generator

variable (generator : Generator) {session : Session} {table output other : Path}
  {before after : Tree} {mode : Nat}

/-! ## Runs after other runs -/

/-- The failure of a run whose table cannot be read. -/
def unread (table : Path) (code : ErrorCode) : Failure :=
  (Failure.ofAccess table.text (.code code)).whileReading table

theorem outcome_of_unread {code : ErrorCode} (kind : generator.kind = .messageCodes)
    (output : Path) (missed : session.tree.read table = .error (.code code)) :
    Session.outcome (generator.generate table output session) = .error (unread table code) := by
  have failed : Table.loaded session.tree table = .error (.ofAccess table.text (.code code)) := by
    rw [Table.loaded, missed]
  rw [generate_of_not_loaded kind failed]
  rfl

theorem yield_of_unread {code : ErrorCode} (kind : generator.kind = .messageCodes)
    (missed : before.read table = .error (.code code)) :
    generator.yield table output mode before = .unwritten (unread table code) := by
  simp only [yield, kind, Table.loaded, missed]
  rfl

theorem number_of_unread_alike {code another : ErrorCode}
    (alike : (unread table code).Alike (unread table another)) :
    code.number = another.number := by
  have same : unread table code = unread table another := alike.same
  simp only [unread, Failure.ofAccess, Failure.whileReading, SystemError.ofCode] at same
  cases code <;> cases another <;> simp_all [SystemError.ofRefusal, ErrorCode.number]

/-- How the outcome of a run compares with its outcome after another run. -/
inductive SameOutcome (tree : Tree) (mode : Nat) (table other : Path) :
    Except Failure Unit → Except Failure Unit → Prop where
  | alike {one another : Except Failure Unit} (alike : EndAlike one another) :
      SameOutcome tree mode table other one another
  /-- The table is missing, and is missed differently since a directory above it has been made. -/
  | missed {code : ErrorCode} (shares : tree.SharesMissing table other)
      (missed : Tree.MissedAs mode table code) :
      SameOutcome tree mode table other (.error (unread table .noEntry))
        (.error (unread table code))

/--
What a run comes to stays the same when something is done apart from it, unless its table is
missed differently.
-/
theorem yield_later (differs : before.DiffersAt after mode other) (linkFree : before.LinkFree)
    (later : after.LinkFree) (descends : table.Descends) (reads : table.Apart other)
    (writes : output.Apart other) (spares : before.Spares output other) :
    generator.yield table output mode after = generator.yield table output mode before ∨
      before.SharesMissing table other ∧ ∃ code, Tree.MissedAs mode table code ∧
        generator.kind = .messageCodes ∧ before.read table = .error (.code .noEntry) ∧
        after.read table = .error (.code code) := by
  cases kind : generator.kind with
  | base name =>
      left
      simp only [yield, kind]
  | messageCodes =>
      rcases differs.read_cases linkFree later descends reads with
        same | ⟨shares, code, missed, earlier, afterwards⟩
      · left
        simp only [yield, kind, Table.loaded, same, differs.delivery_eq writes spares]
      · exact Or.inr ⟨shares, code, missed, rfl, earlier, afterwards⟩

/-- A run after another one ends in the same way, and leaves the same but for times. -/
theorem generate_later {later : Session} (umask : later.umask = session.umask)
    (differs : session.tree.DiffersAt later.tree (Action.newDirectoryMode session) other)
    (linkFree : session.tree.LinkFree) (laterLinkFree : later.tree.LinkFree)
    (tableDescends : table.Descends) (outputDescends : output.Descends)
    (reads : table.Apart other) (writes : output.Apart other)
    (spares : session.tree.Spares output other) :
    let yield := generator.yield table output (Action.newDirectoryMode session) session.tree
    SameOutcome session.tree (Action.newDirectoryMode session) table other
        (Session.outcome (generator.generate table output session))
        (Session.outcome (generator.generate table output later)) ∧
      ∃ time, later.tree.Leaves (Session.left (generator.generate table output later)).tree
        (Action.newDirectoryMode session) yield.reached yield.target
        (.file yield.bytes TreeAction.replacementMode time) := by
  have modes : Action.newDirectoryMode later = Action.newDirectoryMode session := by
    rw [Action.newDirectoryMode, umask, Action.newDirectoryMode]
  rcases generator.generate_yields table linkFree outputDescends writes.parts_ne_nil with
    ⟨earlier, _⟩
  rcases generator.generate_yields table laterLinkFree outputDescends writes.parts_ne_nil with
    ⟨afterwards, leaves, _⟩
  rw [modes] at afterwards leaves
  rcases generator.yield_later differs linkFree laterLinkFree tableDescends reads writes spares with
    same | ⟨shares, code, missed, kind, first, second⟩
  · rw [same] at afterwards leaves
    exact ⟨.alike (earlier.trans afterwards.symm), _, leaves⟩
  · rw [generator.yield_of_unread kind second] at leaves
    rw [generator.outcome_of_unread kind output first,
      generator.outcome_of_unread kind output second, generator.yield_of_unread kind first]
    exact ⟨.missed shares missed, _, leaves⟩

/-! ## Either order -/

/--
Whether two runs are independent: their paths start at one place and none leads up,
and the output of each is apart from the table and the output of the other.
-/
structure Independent (table output otherTable otherOutput : Path) : Prop where
  tableDescends : table.Descends
  outputDescends : output.Descends
  otherTableDescends : otherTable.Descends
  otherOutputDescends : otherOutput.Descends
  outputs : output.Apart otherOutput
  reads : table.Apart otherOutput
  otherReads : otherTable.Apart output

/-- Independent runs end in the same way and leave the same, but for times, in either order. -/
theorem generate_commutes {otherTable otherOutput : Path} (linkFree : session.tree.LinkFree)
    (independent : Independent table output otherTable otherOutput)
    (spares : session.tree.Spares output otherOutput)
    (otherSpares : session.tree.Spares otherOutput output) :
    let first := generator.generate table output
    let second := generator.generate otherTable otherOutput
    SameOutcome session.tree (Action.newDirectoryMode session) table otherOutput
        (Session.outcome (first session))
        (Session.outcome (first (Session.left (second session)))) ∧
      SameOutcome session.tree (Action.newDirectoryMode session) otherTable output
        (Session.outcome (second session))
        (Session.outcome (second (Session.left (first session)))) ∧
      (Session.left (second (Session.left (first session)))).tree.timeless =
        (Session.left (first (Session.left (second session)))).tree.timeless := by
  have some := independent.outputs.parts_ne_nil
  have otherSome := independent.outputs.symm.parts_ne_nil
  rcases generator.generate_yields table linkFree independent.outputDescends some with
    ⟨_, leaves, umask⟩
  rcases generator.generate_yields otherTable linkFree independent.otherOutputDescends
      otherSome with
    ⟨_, otherLeaves, otherUmask⟩
  rcases generator.generate_later otherUmask (generator.differsAt_of_yield otherSome otherLeaves)
    linkFree (otherLeaves.linkFree linkFree rfl) independent.tableDescends
    independent.outputDescends independent.reads independent.outputs spares with
    ⟨same, time, thenFirst⟩
  rcases generator.generate_later umask (generator.differsAt_of_yield some leaves)
    linkFree (leaves.linkFree linkFree rfl) independent.otherTableDescends
    independent.otherOutputDescends
    independent.otherReads independent.outputs.symm otherSpares with
      ⟨otherSame, otherTime, thenSecond⟩
  refine ⟨same, otherSame, ?_⟩
  apply Tree.timeless_eq_of_leaves leaves otherLeaves thenSecond thenFirst rfl rfl
  intro key aimed otherAimed
  have parts := generator.parts_of_yield some aimed
  rw [generator.parts_of_yield otherSome otherAimed, List.reverse_inj] at parts
  exact independent.outputs.notAbove (parts ▸ List.prefix_refl _)

/-- A session in a directory with two tables. -/
def twoTables : Session :=
  { Session.fresh 0o022 .passes fun _ => ⟨0, 0⟩ with
    tree := ((Tree.empty 0o700 ⟨0, 0⟩).addEntry [⟨"numbers.csv", by decide⟩]
      (.file "1,one,m.one\n".toUTF8 0o644 ⟨0, 0⟩) ⟨0, 0⟩).addEntry [⟨"words.csv", by decide⟩]
      (.file "2,two,m.two\n".toUTF8 0o644 ⟨0, 0⟩) ⟨0, 0⟩ }

/-- Both modules go into a directory that is made by the run that comes first. -/
theorem generate_commutes_new_directory :
    let first := messageCodes.generate (.ofText "numbers.csv") (.ofText "new/numbers.py")
    let second := messageCodes.generate (.ofText "words.csv") (.ofText "new/words.py")
    Session.outcome (first twoTables) = .ok () ∧ Session.outcome (second twoTables) = .ok () ∧
      SameOutcome twoTables.tree 0o755 (.ofText "numbers.csv") (.ofText "new/words.py")
        (Session.outcome (first twoTables))
        (Session.outcome (first (Session.left (second twoTables)))) ∧
      SameOutcome twoTables.tree 0o755 (.ofText "words.csv") (.ofText "new/numbers.py")
        (Session.outcome (second twoTables))
        (Session.outcome (second (Session.left (first twoTables)))) ∧
      (Session.left (second (Session.left (first twoTables)))).tree.timeless =
        (Session.left (first (Session.left (second twoTables)))).tree.timeless := by
  have independent : Independent (.ofText "numbers.csv") (.ofText "new/numbers.py")
      (.ofText "words.csv") (.ofText "new/words.py") :=
    ⟨by decide, by decide, by decide, by decide, by decide, by decide, by decide⟩
  exact ⟨by decide +kernel, by decide +kernel, messageCodes.generate_commutes
    (by decide +kernel) independent (Tree.spares_of_short _ _ (by decide))
    (Tree.spares_of_short _ _ (by decide))⟩

/-- Whether a run ends in the same way when another one comes first. -/
def Undisturbed (session : Session) (table output otherTable otherOutput : Path) : Prop :=
  EndAlike (Session.outcome (messageCodes.generate table output session))
    (Session.outcome (messageCodes.generate table output
      (Session.left (messageCodes.generate otherTable otherOutput session))))

/-! ## A table that is missed differently -/

/-- A directory that is not there, as a part of a path. -/
def newPart : Part :=
  ⟨"new", by decide⟩

/-- A table below a directory that is not there. -/
def overlongTable : Path :=
  TreeAction.directoryPath .relative [overlongPart, newPart]

theorem checkPath_overlongTable : Tree.checkPath overlongTable = .ok () := by
  rw [Path.checkPath_eq_ok_iff, overlongTable, TreeAction.directoryPath, Path.size_text,
    size_overlongPart]
  refine ⟨?_, by decide⟩
  intro part among
  rcases List.mem_pair.mp (List.mem_reverse.mp among) with rfl | rfl
  · rw [text_overlongPart, Text.toList_ofList]
    intro repeated
    exact absurd (List.mem_replicate.mp repeated).2 (by decide)
  · decide

theorem independent_overlongTable : Independent overlongTable (.ofText "numbers.py")
    (.ofText "words.csv") (.ofText "new/words.py") :=
  ⟨by decide +kernel, by decide, by decide, by decide, by decide, by decide +kernel, by decide⟩

theorem read_overlongTable_of_absent {tree : Tree} (linkFree : tree.LinkFree)
    (nowhere : tree.reach [newPart] = .error .noEntry) :
    tree.read overlongTable = .error (.code .noEntry) := by
  have descends : Part.up ∉ [overlongPart, newPart] := by decide +kernel
  apply Tree.read_parts_of_error linkFree descends checkPath_overlongTable
  rw [Tree.reach, nowhere]
  rfl

theorem read_overlongTable_of_present {tree : Tree} {location : Location}
    (linkFree : tree.LinkFree) (led : tree.reach [newPart] = .ok location)
    (entered : tree.checkEnter location = .ok ()) :
    tree.read overlongTable = .error (.code .nameTooLong) := by
  have descends : Part.up ∉ [overlongPart, newPart] := by decide +kernel
  have unnamed : Name.ofText? overlongPart.text = none :=
    Name.ofText?_eq_none_of_long (by rw [size_overlongPart]; decide)
  apply Tree.read_parts_of_error linkFree descends checkPath_overlongTable
  exact Tree.reach_of_unnamed led entered unnamed

/--
Whether the directory or the name of a table is at fault can depend on a run that comes
first.
-/
theorem not_undisturbed_overlongTable :
    ¬Undisturbed twoTables overlongTable (.ofText "numbers.py") (.ofText "words.csv")
      (.ofText "new/words.py") := by
  intro ended
  have missing : twoTables.tree.read overlongTable = .error (.code .noEntry) :=
    read_overlongTable_of_absent (by decide +kernel) (by decide +kernel)
  rw [Undisturbed, outcome_of_unread messageCodes rfl _ missing] at ended
  generalize made : Session.left (messageCodes.generate (.ofText "words.csv")
    (.ofText "new/words.py") twoTables) = later at ended
  have tooLong : later.tree.read overlongTable = .error (.code .nameTooLong) := by
    have linkFree : later.tree.LinkFree := by
      subst made
      decide +kernel
    have led : later.tree.reach [newPart] = .ok [⟨"new", by decide⟩] := by
      subst made
      decide +kernel
    have entered : later.tree.checkEnter [⟨"new", by decide⟩] = .ok () := by
      subst made
      decide +kernel
    exact read_overlongTable_of_present linkFree led entered
  rw [outcome_of_unread messageCodes rfl _ tooLong] at ended
  cases ended with
  | failed alike => exact absurd (number_of_unread_alike alike) (by decide)

/-! ## Temporary names that are all taken but one -/

/-- The name of a module. -/
def wordsName : Name :=
  ⟨"words.py", by decide⟩

theorem short_wordsName : wordsName.text.byteSize ≤ 241 := by
  decide

/-- Two tables, and files with those temporary names for a module that some tokens give. -/
def taken (tokens : List Token) : Tree :=
  tokens.foldr (fun token tree => tree.addEntry [Path.temporaryName short_wordsName token]
    (.file .empty 0o644 ⟨0, 0⟩) ⟨0, 0⟩) twoTables.tree

/-- Nothing but the two tables has a name in the directory with two tables. -/
theorem view_twoTables_of_long {name : Name} (long : 14 < name.text.byteSize) :
    twoTables.tree.view [name] = none := by
  have listed : ∀ location ∈ twoTables.tree.entries.map Prod.fst, ∀ other ∈ location,
      other.text.byteSize ≤ 14 := by
    decide +kernel
  rw [Tree.view_eq_none_iff, ← Option.not_isSome_iff_eq_none]
  intro present
  have size := listed _ (Tree.mem_map_entries.mpr present) name (List.mem_singleton_self name)
  omega

theorem view_taken (tokens : List Token) (key : Location) :
    (taken tokens).view key =
      if ∃ token ∈ tokens, key = [Path.temporaryName short_wordsName token] then
        some (.file .empty 0o644 ⟨0, 0⟩)
      else twoTables.tree.view key := by
  induction tokens generalizing key with
  | nil => simp [taken]
  | cons token tokens ih =>
      have top : (taken tokens).isDirectory [] = true := (taken tokens).isDirectory_nil
      have noDirectory :
          (taken tokens).isDirectory [Path.temporaryName short_wordsName token] = false := by
        rw [Tree.isDirectory_eq_view, ih]
        split
        · rfl
        · rw [view_twoTables_of_long]
          · rfl
          · rw [Path.byteSize_temporaryName]
            decide
      have added : (taken (token :: tokens)).view key = _ :=
        Tree.view_addEntry (Tree.fits_of_not_isDirectory top noDirectory _) _ key
      rw [added, ih]
      simp only [List.exists_mem_cons_iff]
      by_cases here : key = [Path.temporaryName short_wordsName token]
      · rw [if_pos here, if_pos (Or.inl here)]
        rfl
      · rw [if_neg here]
        simp only [here, false_or]

/-- A name that is too short or too long for a temporary one is not taken by it. -/
theorem view_taken_of_size (tokens : List Token) {name : Name}
    (size : name.text.byteSize ≠ wordsName.text.byteSize + 14) :
    (taken tokens).view [name] = twoTables.tree.view [name] := by
  rw [view_taken, if_neg]
  rintro ⟨token, _, same⟩
  apply size
  rw [List.singleton_inj.mp same, Path.byteSize_temporaryName]

/-- Whether a tree holds a table and grants everything. -/
structure HoldsWords (tree : Tree) : Prop where
  linkFree : tree.LinkFree
  permits : tree.Permits
  top : tree.view [] = some (.directory 0o700 ⟨0, 0⟩)
  table : tree.view [⟨"words.csv", by decide⟩] = some (.file "2,two,m.two\n".toUTF8 0o644 ⟨0, 0⟩)

/-- Files at the top take nothing from a tree that holds a table. -/
theorem HoldsWords.of_files {before after : Tree} (holds : HoldsWords before)
    (keeps : after.view [] = before.view [])
    (view : ∀ key, after.view key = before.view key ∨
      before.view key = none ∧ ∃ bytes time, after.view key = some (.file bytes 0o644 time)) :
    HoldsWords after := by
  have any {property : Node → Prop} (files : ∀ bytes time, property (.file bytes 0o644 time))
      (all : ∀ location node, before.view location = some node → property node) :
      ∀ location node, after.view location = some node → property node := by
    intro location node seen
    rcases view location with same | ⟨_, bytes, time, put⟩
    · exact all location node (same.symm.trans seen)
    · cases put.symm.trans seen
      exact files bytes time
  have linkFree := any (fun _ _ => rfl) (Tree.linkFree_iff_view.mp holds.linkFree)
  have permits := any (fun _ _ => rfl) (Tree.permits_iff_view.mp holds.permits)
  refine ⟨Tree.linkFree_iff_view.mpr linkFree, Tree.permits_iff_view.mpr permits,
    keeps.trans holds.top, ?_⟩
  rcases view [⟨"words.csv", by decide⟩] with same | ⟨absent, _⟩
  · exact same.trans holds.table
  · rw [holds.table] at absent
    cases absent

theorem holdsWords_taken (tokens : List Token) : HoldsWords (taken tokens) := by
  have start : HoldsWords twoTables.tree :=
    ⟨by decide +kernel, by decide +kernel, by decide +kernel, by decide +kernel⟩
  apply start.of_files
  · rw [view_taken, if_neg]
    rintro ⟨_, _, impossible⟩
    cases impossible
  · intro key
    rw [view_taken]
    split
    · rename_i among
      rcases among with ⟨token, _, rfl⟩
      exact Or.inr ⟨view_twoTables_of_long (by rw [Path.byteSize_temporaryName]; decide),
        _, _, rfl⟩
    · exact Or.inl rfl

/-- What a run at the top comes to. -/
theorem HoldsWords.exists_yield {tree : Tree} (holds : HoldsWords tree) {name : Name}
    (short : name.text.byteSize ≤ 241) (absent : tree.view [name] = none) (mode : Nat) :
    ∃ bytes, messageCodes.yield (.ofText "words.csv") (.plain .relative [name]) mode tree =
      .written (.ofText "words.csv") (.plain .relative [name]) bytes
        ⟨[], if tree.Crowded [] short then .error .crowded else .ok [name]⟩ := by
  have found := (Tree.node?_eq_some_iff_view rfl).mpr holds.table
  have shape : Path.ofText "words.csv" = .plain .relative [⟨"words.csv", by decide⟩] := by decide
  have read : tree.read (.ofText "words.csv") = .ok "2,two,m.two\n".toUTF8 := by
    rw [shape]
    exact Table.read_of_file holds.linkFree holds.permits (Path.checkPath_plain (by decide)) found
  have loaded : Table.loaded tree (.ofText "words.csv") = .ok [⟨2, "two", "m.two_pb"⟩] :=
    Table.loaded_eq_ok_iff.mpr ⟨_, read, by cbv⟩
  have encodable : (messageCodes.render (.ofText "words.csv") [⟨2, "two", "m.two_pb"⟩]).encode? ≠
      none := by
    decide +kernel
  rcases Option.ne_none_iff_exists'.mp encodable with ⟨bytes, encodes⟩
  have kind : messageCodes.kind = .messageCodes := rfl
  refine ⟨(messageCodes.render (.ofText "words.csv") [⟨2, "two", "m.two_pb"⟩]).bytes, ?_⟩
  simp only [yield, kind, loaded]
  rw [Tree.delivery_top short holds.top absent encodes]

/-- A run at the top is done, unless all its temporary names are taken. -/
theorem HoldsWords.outcome {session : Session} (holds : HoldsWords session.tree) {name : Name}
    (short : name.text.byteSize ≤ 241) (absent : session.tree.view [name] = none) :
    EndAlike
      (Session.outcome
        (messageCodes.generate (.ofText "words.csv") (.plain .relative [name]) session))
      (if session.tree.Crowded [] short then
        .error ((Failure.ofMishap .crowded).whileWriting (.ofText "words.csv")
          (.plain .relative [name]))
      else .ok ()) := by
  rcases messageCodes.generate_yields (.ofText "words.csv") holds.linkFree
    (Path.descends_plain .relative [name]) (by simp [Path.plain]) with ⟨ends, _⟩
  rcases holds.exists_yield short absent (Action.newDirectoryMode session) with ⟨bytes, yields⟩
  rw [yields, Yield.written] at ends
  by_cases crowded : session.tree.Crowded [] short
  · simpa only [if_pos crowded] using ends
  · simpa only [if_neg crowded] using ends

/-- A run at the top leaves a tree that holds the table, and the module unless it fails. -/
theorem HoldsWords.left {session : Session} (holds : HoldsWords session.tree) {name : Name}
    (short : name.text.byteSize ≤ 241) (absent : session.tree.view [name] = none)
    (uncrowded : ¬session.tree.Crowded [] short) :
    ∃ bytes time, ∀ key,
      (Session.left (messageCodes.generate (.ofText "words.csv") (.plain .relative [name])
        session)).tree.view key =
      if key = [name] then some (.file bytes 0o644 time) else session.tree.view key := by
  rcases messageCodes.generate_yields (.ofText "words.csv") holds.linkFree
    (Path.descends_plain .relative [name]) (by simp [Path.plain]) with ⟨_, leaves, _⟩
  rcases holds.exists_yield short absent (Action.newDirectoryMode session) with ⟨bytes, yields⟩
  rw [yields, Yield.written, if_neg uncrowded] at leaves
  change session.tree.Leaves _ _ [] (some [name])
    (.file bytes 0o644 (session.clock session.readings)) at leaves
  refine ⟨bytes, session.clock session.readings, fun key => ?_⟩
  rw [leaves key]
  by_cases here : key = [name]
  · rw [here, if_pos rfl, if_pos rfl]
  · rw [if_neg here, if_neg fun same => here (Option.some.inj same).symm, if_neg]
    rintro ⟨within, missing⟩
    rw [List.suffix_nil.mp within, holds.top] at missing
    cases missing

/-- The temporary name that is left. -/
def lastName : Name :=
  Path.temporaryName short_wordsName .first

theorem size_lastName : lastName.text.byteSize = wordsName.text.byteSize + 14 :=
  Path.byteSize_temporaryName short_wordsName .first

theorem short_lastName : lastName.text.byteSize ≤ 241 := by
  rw [size_lastName]
  decide

variable {tokens : List Token}

theorem view_taken_wordsName : (taken tokens).view [wordsName] = none := by
  rw [view_taken_of_size tokens (by omega)]
  decide +kernel

theorem view_taken_lastName (left : .first ∉ tokens) : (taken tokens).view [lastName] = none := by
  rw [view_taken, if_neg]
  · apply view_twoTables_of_long
    rw [size_lastName]
    decide
  · rintro ⟨token, among, same⟩
    have same := (Path.temporaryName_inj short_wordsName).mp (List.singleton_inj.mp same)
    exact left (same ▸ among)

/-- Temporary names for the name that is left are longer, and none of them is taken. -/
theorem not_crowded_lastName : ¬(taken tokens).Crowded [] short_lastName := by
  intro crowded
  have present := crowded .first
  have size := Path.byteSize_temporaryName short_lastName .first
  rw [size_lastName] at size
  rw [view_taken_of_size tokens (by omega), view_twoTables_of_long (by omega)] at present
  cases present

/-- With the name that is left, all temporary names are taken. -/
theorem crowded_of_lastName {tree : Tree} (listed : ∀ token, token ≠ .first → token ∈ tokens)
    (left : tree.view [lastName] ≠ none)
    (others : ∀ key, key ≠ [lastName] → tree.view key = (taken tokens).view key) :
    tree.Crowded [] short_wordsName := by
  intro token
  by_cases last : token = .first
  · subst last
    exact Option.isSome_iff_ne_none.mpr left
  · rw [others, view_taken, if_pos ⟨token, listed token last, rfl⟩]
    · rfl
    · intro same
      exact last ((Path.temporaryName_inj short_wordsName).mp (List.singleton_inj.mp same))

theorem independent_lastName : Independent (.ofText "words.csv") (.plain .relative [wordsName])
    (.ofText "words.csv") (.plain .relative [lastName]) :=
  ⟨by decide, by decide, by decide, by decide, by decide +kernel, by decide +kernel, by decide⟩

/-- A run may take the last temporary name that is left for another one. -/
theorem not_undisturbed_lastName (listed : ∀ token, token ∈ tokens ↔ token ≠ .first) :
    ¬Undisturbed { twoTables with tree := taken tokens } (.ofText "words.csv")
      (.plain .relative [wordsName]) (.ofText "words.csv") (.plain .relative [lastName]) := by
  intro alike
  rw [Undisturbed] at alike
  generalize same : ({ twoTables with tree := taken tokens } : Session) = session at alike
  have tree : session.tree = taken tokens := by rw [← same]
  have holds : HoldsWords session.tree := tree ▸ holdsWords_taken tokens
  have absent : session.tree.view [wordsName] = none := tree ▸ view_taken_wordsName
  have lastAbsent : session.tree.view [lastName] = none :=
    tree ▸ view_taken_lastName fun among => (listed _).mp among rfl
  have uncrowded : ¬session.tree.Crowded [] short_wordsName := by
    intro crowded
    have present := crowded .first
    change (session.tree.view [lastName]).isSome = true at present
    rw [lastAbsent] at present
    cases present
  have first := holds.outcome short_wordsName absent
  rw [if_neg uncrowded] at first
  rcases holds.left short_lastName lastAbsent (tree ▸ not_crowded_lastName) with
    ⟨bytes, time, view⟩
  generalize Session.left (messageCodes.generate (.ofText "words.csv")
    (.plain .relative [lastName]) session) = later at alike view
  have laterHolds : HoldsWords later.tree := by
    apply holds.of_files
    · rw [view, if_neg (List.cons_ne_nil _ _).symm]
    · intro key
      rw [view]
      split
      · rename_i here
        exact Or.inr ⟨here ▸ lastAbsent, bytes, time, rfl⟩
      · exact Or.inl rfl
  have laterAbsent : later.tree.view [wordsName] = none := by
    rw [view, if_neg (by decide +kernel), absent]
  have crowded : later.tree.Crowded [] short_wordsName := by
    apply crowded_of_lastName fun token => (listed token).mpr
    · rw [view, if_pos rfl]
      exact Option.some_ne_none _
    · intro key elsewhere
      rw [view, if_neg elsewhere, tree]
  have second := laterHolds.outcome short_wordsName laterAbsent
  rw [if_pos crowded] at second
  cases (first.symm.trans alike).trans second

/--
Independent runs may disturb each other in two ways: even if temporary names are spared, a
table can be missed differently, and even if no directory above a table is missing, the
temporary names may run out.
-/
theorem not_forall_endAlike :
    (¬∀ (session : Session) (table output otherTable otherOutput : Path),
      session.tree.LinkFree →
      (∀ path ∈ [table, output, otherTable, otherOutput], path.anchor = .relative) →
      Independent table output otherTable otherOutput →
      session.tree.Spares output otherOutput → session.tree.Spares otherOutput output →
      Undisturbed session table output otherTable otherOutput) ∧
    ¬∀ (session : Session) (table output otherTable otherOutput : Path),
      session.tree.LinkFree →
      (∀ path ∈ [table, output, otherTable, otherOutput], path.anchor = .relative) →
      Independent table output otherTable otherOutput →
      ¬session.tree.SharesMissing table otherOutput →
      Undisturbed session table output otherTable otherOutput := by
  constructor
  · intro undisturbed
    refine not_undisturbed_overlongTable (undisturbed _ _ _ _ _ (by decide +kernel)
      (by decide +kernel) independent_overlongTable ?_ ?_)
    · exact Tree.spares_of_short _ _ (by decide)
    · exact Tree.spares_of_short _ _ (by decide)
  · intro undisturbed
    rcases Token.exists_others .first with ⟨tokens, listed⟩
    refine not_undisturbed_lastName listed (undisturbed _ _ _ _ _
      (holdsWords_taken tokens).linkFree ?_ independent_lastName ?_)
    · simp only [List.forall_mem_cons]
      exact ⟨by decide, rfl, by decide, rfl, fun _ among => (List.not_mem_nil among).elim⟩
    · -- The top, which the other output is in, is there.
      rintro ⟨location, missing, _, within⟩
      rw [Path.parent_plain, List.tail_cons] at within
      rw [List.map_eq_nil_iff.mp (List.suffix_nil.mp within)] at missing
      cases missing

end Generator

end MessageTables
