import MessageTables.Proofs.FileSystem.Writing
import MessageTables.Proofs.Generation.Stages
import MessageTables.Proofs.LookupModule.Encoding
import MessageTables.Proofs.Table.Parsing

/-!
# Successful runs

In a tree without links, a module is generated exactly if the table can be
parsed, nothing but directories is above the output, the output's name leaves
room for a temporary one, the output is no directory and the table's path, which
the module names, has a spelling in UTF-8; what else could stand in the way are
permissions, the length of a whole path and temporary names that are all taken.
The output then holds the rendering of the table.
-/

namespace MessageTables

namespace Tree

/-- What the tree has to be like for the module of a table to be generated. -/
structure Admits (tree : Tree) (table output : Path) : Prop where
  /-- The table is a file that is accepted. -/
  accepted : ∃ bytes mode time records,
    tree.node? table.destination = some (.file bytes mode time) ∧
      Table.parse (Text.ofList (Text.decodeBytes bytes)) (some table.text) = .ok records
  /-- What is above the output is a directory if it is there. -/
  chained : ∀ above node, above <:+ output.parent.destination →
    tree.node? above = some node → node.isDirectory = true
  /-- The output's name leaves room for a temporary one. -/
  short : output.name.byteSize ≤ 241
  /-- The output is no directory. -/
  noDirectory : tree.isDirectory output.destination = false

end Tree

/-- That nothing else stands in the way of generating a module. -/
structure Session.Unhindered (session : Session) (table output : Path) : Prop where
  permits : session.tree.Permits
  /-- New directories can be entered and changed. -/
  umask : session.umask &&& 0o300 = 0
  tableRoom : table.text.byteSize ≤ Tree.pathLimit
  outputRoom : output.text.byteSize ≤ Tree.pathLimit
  temporaryRoom : ∀ token, (output.temporary token).text.byteSize ≤ Tree.pathLimit
  /-- Of the temporary names, which are more than a disk has room for, one is not taken. -/
  temporary : ∃ token, ∀ node, session.tree.nodeAt (output.temporary token) ≠ .ok node

namespace Table

variable {tree : Tree} {table : Path} {records : List Record}

theorem loaded_eq_ok_iff :
    loaded tree table = .ok records ↔ ∃ bytes, tree.read table = .ok bytes ∧
      parse (Text.ofList (Text.decodeBytes bytes)) (some table.text) = .ok records := by
  unfold loaded
  cases tree.read table with
  | error error => simp
  | ok bytes =>
      simp only [mapError_eq_ok_iff, textOf, parse_unifyBreaks, Except.ok.injEq, exists_eq_left']

section Plain

variable {anchor : Anchor} {location : Location} {bytes : ByteArray}

theorem exists_file_of_read (linkFree : tree.LinkFree)
    (read : tree.read (.plain anchor location) = .ok bytes) :
    ∃ mode time, tree.node? location = some (.file bytes mode time) := by
  rcases Tree.read_eq_ok_iff.mp read with ⟨mode, time, asked, _⟩
  rcases Tree.nodeAt_eq_ok_iff.mp asked with ⟨other, located, found⟩
  rw [Tree.eq_of_locate_plain linkFree located] at found
  exact ⟨mode, time, found⟩

theorem read_of_file {mode : Nat} {time : Timestamp} (linkFree : tree.LinkFree)
    (permits : tree.Permits) (valid : Tree.checkPath (.plain anchor location) = .ok ())
    (found : tree.node? location = some (.file bytes mode time)) :
    tree.read (.plain anchor location) = .ok bytes := by
  have asked := Tree.nodeAt_plain_of_node? linkFree permits valid found
  exact Tree.read_eq_ok_iff.mpr ⟨mode, time, asked, permits location _ found⟩

end Plain

end Table

namespace Action

/-- What the umask leaves alone is granted in new directories. -/
theorem testBit_newDirectoryMode {session : Session} {bit : Nat}
    (umask : session.umask &&& 0o300 = 0) (small : bit < 9)
    (masked : (0o300).testBit bit = true) : (newDirectoryMode session).testBit bit = true := by
  have cleared := congrArg (·.testBit bit) umask
  have kept : session.umask.testBit bit = false := by
    simpa [Nat.testBit_and, masked] using cleared
  have all : ∀ bit < 9, (0o777).testBit bit = true := by decide
  rw [newDirectoryMode, Nat.testBit_xor, Nat.testBit_and, kept, all bit small]
  rfl

end Action

namespace Generator

variable {generator : Generator} {table output : Path} {session after : Session}

theorem eq_plain_of_named {path : Path} (isPlain : path.IsPlain) (named : path.parts ≠ []) :
    ∃ name above, path = .plain path.anchor (name :: above) := by
  cases location : path.destination with
  | nil =>
      have same := isPlain.eq_plain
      rw [location] at same
      exact absurd (congrArg Path.parts same) named
  | cons name above => exact ⟨name, above, location ▸ isPlain.eq_plain⟩

/-- What a run that succeeds has done, and the conditions that must have held. -/
theorem written_of_generate (kind : generator.kind = .messageCodes)
    (linkFree : session.tree.LinkFree) (tablePlain : table.IsPlain) (outputPlain : output.IsPlain)
    (named : output.parts ≠ [])
    (done : generator.generate table output session = .ok () after) :
    (session.tree.Admits table output ∧ ∃ spelled, table.text.encode? = some spelled) ∧
      ∃ bytes mode time records written,
        session.tree.node? table.destination = some (.file bytes mode time) ∧
        Table.parse (Text.ofList (Text.decodeBytes bytes)) (some table.text) = .ok records ∧
        (LookupModule.render (generator.moduleName table) records table.text).encode? =
          some written ∧
        session.tree.Written after.tree output.destination written
          (Action.newDirectoryMode session) := by
  rcases exists_loaded_of_generate kind done with ⟨records, loaded, written⟩
  rcases Table.loaded_eq_ok_iff.mp loaded with ⟨bytes, read, parsed⟩
  rw [tablePlain.eq_plain] at read
  rcases Table.exists_file_of_read linkFree read with ⟨mode, time, found⟩
  rcases eq_plain_of_named outputPlain named with ⟨name, above, shape⟩
  rw [shape] at written ⊢
  rcases TreeAction.written_of_replaceFile linkFree written with
    ⟨⟨encoded, encodes, written⟩, noDirectory, short, chained⟩
  have spelled : table.text.encode? ≠ none := by
    intro stray
    rw [Generator.render, (LookupModule.encode?_render_eq_none_iff _ _ _).mpr stray] at encodes
    cases encodes
  rw [Path.destination_plain]
  refine ⟨⟨⟨⟨bytes, mode, time, records, found, parsed⟩, ?_, ?_, ?_⟩,
    Option.ne_none_iff_exists'.mp spelled⟩, bytes, mode, time, records, encoded, found, parsed,
    encodes, written⟩
  · rw [Path.parent_plain, Path.destination_plain]
    exact chained
  · rw [Path.name_plain]
    exact short
  · rw [Path.destination_plain]
    exact noDirectory

/-- A run succeeds if the conditions hold and nothing else stands in the way. -/
theorem exists_generate (kind : generator.kind = .messageCodes)
    (linkFree : session.tree.LinkFree) (tablePlain : table.IsPlain) (outputPlain : output.IsPlain)
    (named : output.parts ≠ []) (unhindered : session.Unhindered table output)
    (admits : session.tree.Admits table output) {spelled : ByteArray}
    (spells : table.text.encode? = some spelled) :
    ∃ after, generator.generate table output session = .ok () after := by
  rcases admits with ⟨⟨bytes, mode, time, records, found, parsed⟩, chained, short, noDirectory⟩
  rcases unhindered with ⟨permits, umask, tableRoom, outputRoom, room, token, free⟩
  have loaded : Table.loaded session.tree table = .ok records := by
    refine Table.loaded_eq_ok_iff.mpr ⟨bytes, ?_, parsed⟩
    rw [tablePlain.eq_plain] at tableRoom ⊢
    exact Table.read_of_file linkFree permits (Path.checkPath_plain tableRoom) found
  rcases eq_plain_of_named outputPlain named with ⟨name, above, shape⟩
  rw [shape, Path.parent_plain, Path.destination_plain] at chained
  rw [shape, Path.name_plain] at short
  rw [shape, Path.destination_plain] at noDirectory
  rw [shape] at outputRoom room free ⊢
  have unused : session.tree.node? (Path.temporaryName short token :: above) = none := by
    have fits := room token
    rw [Path.temporary_eq short] at fits free
    apply Option.eq_none_iff_forall_ne_some.mpr
    intro node found
    exact free node (Tree.nodeAt_plain_of_node? linkFree permits (Path.checkPath_plain fits) found)
  have encodable : (generator.render table records).encode? ≠ none := by
    intro stray
    rw [Generator.render, LookupModule.encode?_render_eq_none_iff, spells] at stray
    cases stray
  rcases Option.ne_none_iff_exists'.mp encodable with ⟨encoded, encodes⟩
  have writes : (Action.newDirectoryMode session).testBit Right.write.bit = true :=
    Action.testBit_newDirectoryMode umask (by decide) (by decide)
  have enters : (Action.newDirectoryMode session).testBit Right.enter.bit = true :=
    Action.testBit_newDirectoryMode umask (by decide) (by decide)
  rcases TreeAction.exists_replaceFile linkFree permits short room outputRoom writes enters
    unused chained noDirectory encodes with ⟨tree, written⟩
  exact ⟨_, generate_of_written kind loaded written⟩

/--
When a run succeeds, and what it has done then. A run that nothing else stands in the
way of succeeds if the tree admits it and the table's path has a spelling in UTF-8.
-/
theorem generate_iff_admits_and_written (kind : generator.kind = .messageCodes)
    (linkFree : session.tree.LinkFree) (tablePlain : table.IsPlain) (outputPlain : output.IsPlain)
    (named : output.parts ≠ []) :
    (session.Unhindered table output →
        ((∃ after, generator.generate table output session = .ok () after) ↔
          session.tree.Admits table output ∧ ∃ spelled, table.text.encode? = some spelled)) ∧
      ∀ after, generator.generate table output session = .ok () after →
        (session.tree.Admits table output ∧ ∃ spelled, table.text.encode? = some spelled) ∧
          ∃ bytes mode time records written,
            session.tree.node? table.destination = some (.file bytes mode time) ∧
            Table.parse (Text.ofList (Text.decodeBytes bytes)) (some table.text) =
              .ok records ∧
            (LookupModule.render (generator.moduleName table) records table.text).encode? =
              some written ∧
            session.tree.Written after.tree output.destination written
              (Action.newDirectoryMode session) := by
  constructor
  · intro unhindered
    constructor
    · rintro ⟨after, done⟩
      exact (written_of_generate kind linkFree tablePlain outputPlain named done).1
    · rintro ⟨admits, spelled, spells⟩
      exact exists_generate kind linkFree tablePlain outputPlain named unhindered admits spells
  · intro after
    exact written_of_generate kind linkFree tablePlain outputPlain named

/-- The name of a table that begins with a byte of no character. -/
def strayName : Name :=
  ⟨.ofList (.stray 127 :: Text.toList ".csv"), by decide⟩

/-- A session in a directory with one table, whose name has no spelling in UTF-8. -/
def strayTableAlone : Session :=
  { Session.fresh 0o022 .passes fun _ => ⟨0, 0⟩ with
    tree := (Tree.empty 0o700 ⟨0, 0⟩).addEntry [strayName]
      (.file "0,A,p\n".toUTF8 0o644 ⟨0, 0⟩) ⟨0, 0⟩ }

/-- That the tree admits a module is not enough when the table's name is no UTF-8. -/
theorem not_forall_generate_iff_admits :
    ¬∀ (session : Session) (table output : Path), session.tree.LinkFree → table.IsPlain →
      output.IsPlain → output.parts ≠ [] → session.Unhindered table output →
        ((∃ after, messageCodes.generate table output session = .ok () after) ↔
          session.tree.Admits table output) := by
  intro always
  let table : Path := .plain .relative [strayName]
  let output : Path := .plain .relative [⟨"m.py", by decide⟩]
  have unhindered : strayTableAlone.Unhindered table output := by
    refine ⟨by decide +kernel, by decide, by decide, by decide, ?_, Token.first, ?_⟩
    · intro token
      exact (Path.size_text_temporary_le _ _ _ token).trans (by decide)
    · have absent : strayTableAlone.tree.nodeAt (output.temporary Token.first) =
          .error (.code .noEntry) := by decide +kernel
      intro node
      rw [absent]
      nofun
  have admits : strayTableAlone.tree.Admits table output := by
    have found : strayTableAlone.tree.node? table.destination =
        some (.file "0,A,p\n".toUTF8 0o644 ⟨0, 0⟩) := by decide +kernel
    have parsed : Table.parse (Text.ofList (Text.decodeBytes "0,A,p\n".toUTF8))
        (some table.text) = .ok [⟨0, "A", "p_pb"⟩] := by cbv
    refine ⟨⟨_, _, _, _, found, parsed⟩, ?_, by decide, by decide +kernel⟩
    intro above node within there
    rw [List.suffix_nil.mp within] at there
    cases there
    rfl
  have done := (always strayTableAlone table output (by decide +kernel) (by decide) (by decide)
    (by decide) unhindered).mpr admits
  have stopped : isStoppedWith (fun _ _ => true)
      (messageCodes.generate table output strayTableAlone) = true := by
    decide +kernel
  rcases exists_of_isStoppedWith stopped with ⟨failure, after, failed, _⟩
  rcases done with ⟨_, done⟩
  rw [failed] at done
  cases done

/-- A session in a directory with one table, where new directories are closed to others. -/
def tableAlone : Session :=
  { Session.fresh 0o077 .passes fun _ => ⟨0, 0⟩ with
    tree := (Tree.empty 0o700 ⟨0, 0⟩).addEntry [⟨"m.csv", by decide⟩]
      (.file "1,one,m.one\n".toUTF8 0o644 ⟨0, 0⟩) ⟨0, 0⟩ }

/-- The module goes into a directory that is made for it. -/
theorem generate_iff_admits_and_written_new_directory :
    tableAlone.Unhindered (.ofText "m.csv") (.ofText "d/m.py") ∧
      tableAlone.tree.Admits (.ofText "m.csv") (.ofText "d/m.py") ∧
      ∃ after bytes, messageCodes.generate (.ofText "m.csv") (.ofText "d/m.py") tableAlone =
          .ok () after ∧
        tableAlone.tree.Written after.tree (Path.ofText "d/m.py").destination bytes 0o700 := by
  have unhindered : tableAlone.Unhindered (.ofText "m.csv") (.ofText "d/m.py") := by
    refine ⟨by decide +kernel, by decide, by decide, by decide, ?_, Token.first, ?_⟩
    · have shape : Path.ofText "d/m.py" =
          .plain .relative [⟨"m.py", by decide⟩, ⟨"d", by decide⟩] := by decide
      intro token
      rw [shape]
      exact (Path.size_text_temporary_le _ _ _ token).trans (by decide)
    · have absent : tableAlone.tree.nodeAt ((Path.ofText "d/m.py").temporary Token.first) =
          .error (.code .noEntry) := by decide +kernel
      intro node
      rw [absent]
      nofun
  have spec := @generate_iff_admits_and_written messageCodes (.ofText "m.csv")
    (.ofText "d/m.py") tableAlone rfl (by decide +kernel) (by decide) (by decide) (by decide)
  have run : isDoneWith (fun _ _ => true)
      (messageCodes.generate (.ofText "m.csv") (.ofText "d/m.py") tableAlone) = true := by
    decide +kernel
  rcases exists_of_isDoneWith run with ⟨_, after, done, _⟩
  rcases spec.2 after done with ⟨_, _, _, _, _, _, _, _, _, written⟩
  exact ⟨unhindered, ((spec.1 unhindered).mp ⟨after, done⟩).1, after, _, done, written⟩

end Generator

end MessageTables
