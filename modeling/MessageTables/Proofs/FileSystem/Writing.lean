import MessageTables.Proofs.FileSystem.TemporaryNames

/-!
# A file written whole

Along a path of names, in a tree without links, a file that has been replaced is
where the path says, with its new content and nothing of the old, and the tree
is otherwise as it was, but for the directories that were missing.
-/

namespace MessageTables

namespace Tree

/-- A file has been written whole, with the directories that were missing above it. -/
structure Written (before after : Tree) (output : Location) (bytes : ByteArray)
    (directoryMode : Nat) : Prop where
  file : ∃ time, after.node? output = some (.file bytes 0o644 time)
  made : ∀ above, above <:+ output.tail → before.node? above = none →
    ∃ time, after.node? above = some (.directory directoryMode time)
  kept : ∀ above mode time, above <:+ output.tail →
    before.node? above = some (.directory mode time) →
      ∃ later, after.node? above = some (.directory mode later)
  beside : ∀ location, ¬ location <:+ output → after.node? location = before.node? location

variable {before made filled after : Tree} {anchor : Anchor} {name : Name} {above : Location}
  {bytes : ByteArray} {mode fileMode : Nat} {time : Timestamp} {temporary : Path}
  {location : Location}

/-- A temporary file can take the place of anything but a directory. -/
theorem HoldsTemporary.exists_rename {output : Path} {target : Location}
    (holds : made.HoldsTemporary filled temporary location bytes fileMode time)
    (found : made.entryLocation? output = some target)
    (noDirectory : made.isDirectory target = false)
    (granted : made.grants target.tail .write = true) (now : Timestamp) :
    ∃ after, filled.rename temporary output now = .ok after := by
  refine ⟨_, rename_eq_ok_iff.mpr ⟨location, target, _, ?_, holds.there, ?_, ?_, ?_, ?_, rfl⟩⟩
  · exact holds.kept.entryLocation? holds.found
  · exact holds.kept.entryLocation? found
  · rw [holds.isDirectory_eq, noDirectory]
  · exact holds.kept.grants holds.granted
  · exact holds.kept.grants granted

/-- Once the chain is there, a file that takes the output's place is written whole. -/
theorem written_of_rename (fills : before.Fills made mode above) (linkFree : made.LinkFree)
    (holds : made.HoldsTemporary filled temporary location bytes 0o644 time)
    (inside : location.tail = above)
    (renamed : filled.rename temporary (.plain anchor (name :: above)) time = .ok after) :
    before.Written after (name :: above) bytes mode ∧
      before.isDirectory (name :: above) = false := by
  rcases holds.rename renamed with ⟨target, found, noDirectory, view, nodes⟩
  have here := eq_of_entryLocation?_plain (linkFree.of_update rfl holds.view) found
  subst here
  have higher {key : Location} (within : key <:+ above) : key ≠ name :: above :=
    ne_cons_of_suffix name within
  refine ⟨⟨?_, ?_, ?_, ?_⟩, ?_⟩
  · refine ⟨time, ?_⟩
    have self := tail_ne_self (List.cons_ne_nil name above)
    rw [nodes _ (by rwa [inside]) self, if_pos rfl]
  · intro key within absent
    apply exists_directory_of_view
    rw [view, if_neg (higher within), fills.view,
      if_pos ⟨within, view_eq_none_iff.mpr absent⟩]
  · intro key keyMode keyTime within found
    apply exists_directory_of_view
    have seen : before.view key = some (.directory keyMode ⟨0, 0⟩) := by
      rw [Tree.view, found, Option.map_some]
      rfl
    rw [view, if_neg (higher within), fills.kept key _ seen]
  · intro key outside
    have apart : ¬ key <:+ above := fun within =>
      outside (within.trans (List.suffix_cons name above))
    have differs : key ≠ name :: above := by
      rintro rfl
      exact outside (List.suffix_refl _)
    have beside : key ≠ above := by
      rintro rfl
      exact apart (List.suffix_refl _)
    rw [nodes key (by rwa [inside]) beside, if_neg differs, fills.beside key apart]
  · cases directory : before.isDirectory (name :: above) with
    | false => rfl
    | true =>
        rw [fills.kept.isDirectory directory] at noDirectory
        cases noDirectory

end Tree

namespace TreeAction

variable {before after : Tree} {anchor : Anchor} {name : Name} {above : Location}
  {text : Text} {mode : Nat} {draw : Draw} {time : Timestamp}

theorem parent_parts_plain (anchor : Anchor) (name : Name) (above : Location) :
    (Path.plain anchor (name :: above)).parent.parts.reverse = above.map Name.part := by
  rw [Path.parent_plain, List.tail_cons]
  exact List.reverse_reverse _

/-- What replacing a file comes to when it succeeds, and what must have been the case. -/
theorem written_of_replaceFile (linkFree : before.LinkFree)
    (done : replaceFile (.plain anchor (name :: above)) text mode draw time before =
      .ok () after) :
    (∃ bytes, text.encode? = some bytes ∧ before.Written after (name :: above) bytes mode) ∧
      before.isDirectory (name :: above) = false ∧ name.text.byteSize ≤ 241 ∧
      ∀ key node, key <:+ above → before.node? key = some node → node.isDirectory = true := by
  cases directories : makeDirectories anchor mode time (above.map Name.part) before with
  | error mishap made =>
      rw [← parent_parts_plain anchor name above] at directories
      rw [replaceFile_of_error directories] at done
      cases done
  | ok _ made =>
      rcases fills_of_makeDirectories linkFree directories with ⟨fills, directory⟩
      rw [← parent_parts_plain anchor name above] at directories
      have ending : Ending (.plain anchor (name :: above)) text time made
          (replaceFile (.plain anchor (name :: above)) text mode draw time before) :=
        ending_of_makeDirectories text draw directories
      rw [done] at ending
      cases ending with
      | @done bytes filled after token location holds encodes renamed =>
          have found := holds.found
          rw [Path.temporary_plain] at found
          rcases Tree.exists_name_of_entryLocation? (fills.linkFree linkFree) found with
            ⟨temporary, same, rfl⟩
          rcases Tree.written_of_rename fills (fills.linkFree linkFree) holds rfl renamed with
            ⟨written, free⟩
          have size : temporary.text.byteSize = name.text.byteSize + 14 := by
            rw [same]
            exact Path.byteSize_temporaryText name.text token
          have limit := temporary.isName.2.2.2
          exact ⟨⟨bytes, encodes, written⟩, free, by omega,
            fun key node => fills.isDirectory_of_suffix directory⟩

section Permitted

variable (linkFree : before.LinkFree) (permits : before.Permits)
  (short : name.text.byteSize ≤ 241)
  (room : ∀ token, ((Path.plain anchor (name :: above)).temporary token).text.byteSize ≤
    Tree.pathLimit)

include linkFree permits room

/-- If a temporary name is free in a directory, a temporary file is made there, under any draw. -/
theorem exists_makeTemporary (directory : before.isDirectory above = true) {token : Token}
    (free : before.node? (Path.temporaryName short token :: above) = none) (draw : Draw)
    (time : Timestamp) :
    ∃ token started,
      createTemporary ((Path.plain anchor (name :: above)).temporary token) time before =
          .ok started ∧
        makeTemporary (.plain anchor (name :: above)) draw time before =
          .ok ((Path.plain anchor (name :: above)).temporary token) started := by
  have valid (token : Token) :
      Tree.checkPath (.plain anchor.absolute (Path.temporaryName short token :: above)) =
        .ok () := by
    apply Path.checkPath_plain
    rw [← Path.temporary_eq short]
    exact room token
  have creates {token : Token}
      (absent : before.node? (Path.temporaryName short token :: above) = none) :
      ∃ started, createTemporary ((Path.plain anchor (name :: above)).temporary token) time
        before = .ok started := by
    rw [Path.temporary_eq short]
    exact ⟨_, Tree.create_of_absent linkFree permits (valid token) directory absent _ _⟩
  rcases makeTemporary_cases (.plain anchor (name :: above)) draw time before with
    ⟨taken, _⟩ | ⟨token, untaken, makes⟩
  · rcases creates free with ⟨started, created⟩
    have refused := taken token
    rw [IsTaken, created] at refused
    cases refused
  · have absent : before.node? (Path.temporaryName short token :: above) = none := by
      by_contra present
      apply untaken
      rw [IsTaken, Path.temporary_eq short]
      exact Tree.create_eq_alreadyExists linkFree permits (valid token)
        (Option.isSome_iff_ne_none.mpr present)
    rcases creates absent with ⟨started, created⟩
    rw [created] at makes
    exact ⟨token, started, created, makes⟩

/-- A file is replaced if nothing but directories is above it and permissions allow it. -/
theorem exists_replaceFile (outputRoom : (Path.plain anchor (name :: above)).text.byteSize ≤
      Tree.pathLimit)
    (writes : mode.testBit Right.write.bit = true) (enters : mode.testBit Right.enter.bit = true)
    {token : Token} (free : before.node? (Path.temporaryName short token :: above) = none)
    (chained : ∀ key node, key <:+ above → before.node? key = some node →
      node.isDirectory = true)
    (noDirectory : before.isDirectory (name :: above) = false) {bytes : ByteArray}
    (encodes : text.encode? = some bytes) :
    ∃ after, replaceFile (.plain anchor (name :: above)) text mode draw time before =
      .ok () after := by
  have valid (key : Location) (within : key <:+ name :: above) :
      Tree.checkPath (.plain anchor key) = .ok () := by
    apply Path.checkPath_plain
    have size := Path.size_text_plain_le_of_suffix anchor within
    omega
  have higher (key : Location) (within : key <:+ above) :=
    valid key (within.trans (List.suffix_cons name above))
  rcases exists_makeDirectories linkFree permits writes enters higher chained with
    ⟨made, directories⟩
  rcases fills_of_makeDirectories linkFree directories with ⟨fills, directory⟩
  have madeLinkFree := fills.linkFree linkFree
  have madePermits := fills.permits permits writes enters
  have absent : made.node? (Path.temporaryName short token :: above) = none := by
    rw [fills.beside _ (Tree.not_cons_suffix _ above), free]
  rw [← parent_parts_plain anchor name above] at directories
  rcases exists_makeTemporary madeLinkFree madePermits short room directory absent draw time with
    ⟨drawn, started, created, makes⟩
  rcases replaceFile_of_encoded directories created makes encodes with
    ⟨location, filled, holds, ends⟩
  have found := Tree.entryLocation?_plain madeLinkFree madePermits
    (valid _ (List.suffix_refl _)) directory
  have unused : made.isDirectory (name :: above) = false := by
    rw [Tree.isDirectory, fills.beside _ (Tree.not_cons_suffix name above)]
    exact noDirectory
  rcases holds.exists_rename found unused (madePermits.write above directory) time with
    ⟨moved, renamed⟩
  exact ⟨moved, by rw [ends, renamed]⟩

end Permitted

end TreeAction

end MessageTables
