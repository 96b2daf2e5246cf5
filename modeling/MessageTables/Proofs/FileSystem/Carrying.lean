import MessageTables.Proofs.FileSystem.PlainWalks
import MessageTables.Proofs.FileSystem.Replacement

/-!
# What is carried through a run

Writing a module replaces what was at the output, if anything, so that a tree is
not kept as a whole. But directories are, and in a tree without links the entry
that a path is about only depends on directories. So every path goes on to be
about the same entry, and only the entries that are written have something new.
-/

namespace MessageTables

namespace Tree

/-- Everything but what is at some locations is kept, without links, and no directory is lost. -/
structure Carries (before after : Tree) (replaced : Location → Prop) : Prop where
  directories : ∀ location node, node.isDirectory = true →
    before.view location = some node → after.view location = some node
  others : ∀ location node, ¬ replaced location →
    before.view location = some node → after.view location = some node
  linkFree : after.LinkFree

variable {tree before middle after : Tree} {replaced more : Location → Prop}
  {location : Location} {path : Path}

theorem Carries.refl (linkFree : tree.LinkFree) (replaced : Location → Prop) :
    tree.Carries tree replaced :=
  ⟨fun _ _ _ seen => seen, fun _ _ _ seen => seen, linkFree⟩

theorem Carries.trans (first : before.Carries middle replaced)
    (second : middle.Carries after more) :
    before.Carries after fun location => replaced location ∨ more location := by
  refine ⟨?_, ?_, second.linkFree⟩
  · intro location node directory seen
    exact second.directories location node directory
      (first.directories location node directory seen)
  · intro location node apart seen
    exact second.others location node (fun hit => apart (Or.inr hit))
      (first.others location node (fun hit => apart (Or.inl hit)) seen)

theorem Carries.weaken (carries : before.Carries after replaced)
    (wider : ∀ location, replaced location → more location) : before.Carries after more :=
  ⟨carries.directories, fun location node apart =>
    carries.others location node fun hit => apart (wider location hit), carries.linkFree⟩

theorem Carries.view_eq (carries : before.Carries after replaced)
    (directory : before.isDirectory location = true) :
    after.view location = before.view location := by
  rw [isDirectory_eq_view] at directory
  rcases Option.any_eq_true _ _ |>.mp directory with ⟨node, seen, isDirectory⟩
  rw [seen, carries.directories location node isDirectory seen]

theorem Carries.isDirectory (carries : before.Carries after replaced)
    (directory : before.isDirectory location = true) : after.isDirectory location = true := by
  rwa [isDirectory_eq_view, carries.view_eq directory, ← isDirectory_eq_view]

theorem Carries.grants (carries : before.Carries after replaced) {right : Right}
    (directory : before.isDirectory location = true)
    (granted : before.grants location right = true) : after.grants location right = true := by
  rwa [grants_eq_view, carries.view_eq directory, ← grants_eq_view]

/-! ## Walks to directories -/

theorem isDirectory_of_walk {start : Location} {steps : List Step}
    (linkFree : tree.LinkFree) (found : tree.walk start steps = .found location)
    (directory : tree.isDirectory location = true) : tree.isDirectory start = true := by
  cases steps with
  | nil =>
      cases found
      exact directory
  | cons step rest =>
      rcases linkFree.advance_of_walk found with ⟨next, advance, _⟩
      cases advance <;> assumption

theorem Carries.walk (carries : before.Carries after replaced) (linkFree : before.LinkFree)
    {start : Location} {steps : List Step} (found : before.walk start steps = .found location)
    (directory : before.isDirectory location = true) :
    after.walk start steps = .found location := by
  induction steps generalizing start with
  | nil =>
      cases found
      rfl
  | cons step rest ih =>
      rcases linkFree.advance_of_walk found with ⟨next, advance, further⟩
      have inside := isDirectory_of_walk linkFree further directory
      have later : after.Advance start step next := by
        cases advance with
        | arrive there => exact .arrive (carries.isDirectory there)
        | stay there granted =>
            exact .stay (carries.isDirectory there) (carries.grants there granted)
        | up there granted =>
            exact .up (carries.isDirectory there) (carries.grants there granted)
        | enter there granted named seen noLink =>
            rw [isDirectory_eq_view, seen] at inside
            exact .enter (carries.isDirectory there) (carries.grants there granted) named
              (carries.directories _ _ inside seen) noLink
      rw [later.walk_eq]
      exact ih further

/-- A path goes on to lead to the same directory. -/
theorem Carries.locate_directory (carries : before.Carries after replaced)
    (linkFree : before.LinkFree) (located : before.locate path = .ok location)
    (directory : before.isDirectory location = true) : after.locate path = .ok location := by
  rcases locate_eq_ok_iff.mp located with ⟨valid, followed⟩
  exact locate_eq_ok_iff.mpr ⟨valid, follow_of_found
    (carries.walk linkFree (linkFree.follow_eq_node_iff.mp followed) directory)⟩

theorem walk_concat_eq_found (linkFree : tree.LinkFree) {start : Location} {steps : List Step}
    {step : Step} (found : tree.walk start (steps ++ [step]) = .found location) :
    ∃ parent, tree.walk start steps = .found parent ∧ tree.Advance parent step location := by
  induction steps generalizing start with
  | nil =>
      rcases linkFree.advance_of_walk found with ⟨next, advance, ended⟩
      cases ended
      exact ⟨start, rfl, advance⟩
  | cons first rest ih =>
      rcases linkFree.advance_of_walk found with ⟨next, advance, further⟩
      rcases ih further with ⟨parent, led, taken⟩
      exact ⟨parent, by rw [advance.walk_eq, led], taken⟩

theorem Carries.entry (carries : before.Carries after replaced) (linkFree : before.LinkFree)
    {step : Step} (entered : before.entry path = .ok (location, step)) :
    after.entry path = .ok (location, step) := by
  rw [entry_eq_ok_iff] at entered ⊢
  rcases entered with ⟨valid, followed, directory, granted, last⟩
  rw [linkFree.follow_eq_node_iff] at followed
  exact ⟨valid, follow_of_found (carries.walk linkFree followed directory),
    carries.isDirectory directory, carries.grants directory granted, last⟩

/-- A path goes on to be about the same entry. -/
theorem Carries.entryLocation? (carries : before.Carries after replaced)
    (linkFree : before.LinkFree) (found : before.entryLocation? path = some location) :
    after.entryLocation? path = some location := by
  rw [entryLocation?_eq_some_iff] at found ⊢
  rcases found with ⟨parent, text, name, entered, named, same⟩
  exact ⟨parent, text, name, carries.entry linkFree entered, named, same⟩

/-! ## Paths that end in a name -/

variable {part : Part} {node : Node}

/-- The entry that such a path is about has the name that it ends in. -/
theorem exists_name_of_entryLocation?_child
    (found : tree.entryLocation? (path.child part) = some location) :
    ∃ name parent, location = name :: parent ∧ name.text = part.text := by
  rcases entryLocation?_eq_some_iff.mp found with ⟨parent, text, name, entered, named, rfl⟩
  have last := (entry_eq_ok_iff.mp entered).2.2.2.2
  rw [Path.steps_child, List.getLast?_concat, Option.getD_some] at last
  refine ⟨name, parent, rfl, ?_⟩
  rw [Name.eq_of_ofText? named, Step.eq_of_ofText last.symm]

theorem entryLocation?_of_locate (linkFree : tree.LinkFree) {text : Text}
    (entered : Step.ofText part.text = .enter text)
    (located : tree.locate (path.child part) = .ok location) :
    tree.entryLocation? (path.child part) = some location := by
  rcases locate_eq_ok_iff.mp located with ⟨valid, followed⟩
  rw [linkFree.follow_eq_node_iff, Path.steps_child] at followed
  rcases walk_concat_eq_found linkFree followed with ⟨parent, led, advance⟩
  rw [entered] at advance
  cases advance with
  | @enter _ name node directory granted named seen noLink =>
      rw [entryLocation?_eq_some_iff]
      refine ⟨parent, text, name, ?_, named, rfl⟩
      rw [entry_eq_ok_iff, Path.steps_child, List.dropLast_concat, List.getLast?_concat]
      exact ⟨valid, follow_of_found led, directory, granted, entered.symm⟩

theorem locate_of_node? (linkFree : tree.LinkFree)
    (found : tree.entryLocation? path = some location) (there : tree.node? location = some node) :
    tree.locate path = .ok location := by
  apply locate_of_entryLocation? found (view_of_node? there)
  intro target same
  have plain := linkFree location node there
  rw [← Node.isLink_lasting, same] at plain
  cases plain

theorem nodeAt_of_entryLocation? (linkFree : tree.LinkFree)
    (found : tree.entryLocation? path = some location) (there : tree.node? location = some node) :
    tree.nodeAt path = .ok node :=
  nodeAt_eq_ok_iff.mpr ⟨location, locate_of_node? linkFree found there, there⟩

end Tree

namespace TreeAction

variable {before after : Tree} {output : Path} {text : Text} {bytes : ByteArray} {mode : Nat}
  {draw : Draw} {time : Timestamp}

theorem linkFree_of_grows {allowed : Location → Prop} (grows : before.Grows after allowed)
    (linkFree : before.LinkFree) : after.LinkFree := by
  rw [Tree.linkFree_iff_view] at linkFree ⊢
  intro location node seen
  cases old : before.view location with
  | none =>
      have directory := (grows.added location node old seen).1
      cases node with
      | link target => cases directory
      | file bytes mode time => rfl
      | directory mode time => rfl
  | some held =>
      have same := grows.kept location held old
      rw [seen] at same
      cases same
      exact linkFree location node old

section Renamed

variable {made filled : Tree} {temporary : Path} {location : Location}

/-- A file is replaced by a temporary file that takes its place, once the directories are there. -/
theorem exists_rename_of_replaceFile (linkFree : before.LinkFree)
    (done : replaceFile output text mode draw time before = .ok () after) :
    ∃ bytes made filled temporary location, text.encode? = some bytes ∧ made.LinkFree ∧
      before.Grows made (fun _ => True) ∧
        made.HoldsTemporary filled temporary location bytes 0o644 time ∧
          filled.rename temporary output time = .ok after := by
  cases directories : makeDirectories output.anchor mode time output.parent.parts.reverse
    before with
  | error mishap made =>
      rw [replaceFile_of_error directories] at done
      cases done
  | ok _ made =>
      have grows := grows_makeDirectories output.anchor mode time output.parent.parts.reverse before
      rw [treeAfter_of_ok directories] at grows
      have ending := ending_of_makeDirectories text draw directories
      rw [done] at ending
      cases ending with
      | @done bytes filled _ token location holds encodes renamed =>
          exact ⟨bytes, made, filled, _, location, encodes, linkFree_of_grows grows linkFree,
            grows.weaken fun _ _ => trivial, holds, renamed⟩

variable (linkFree : made.LinkFree)
  (holds : made.HoldsTemporary filled temporary location bytes 0o644 time)
  (renamed : filled.rename temporary output time = .ok after)

include linkFree holds renamed

theorem carries_filled_of_rename : filled.Carries after fun _ => True := by
  rcases holds.rename renamed with ⟨target, found, noDirectory, view, _⟩
  refine ⟨?_, fun _ _ apart => absurd trivial apart, linkFree.of_update rfl view⟩
  intro key node directory seen
  rw [holds.view] at seen
  split at seen
  · cases seen
    cases directory
  · rw [view, if_neg, seen]
    rintro rfl
    rw [Tree.isDirectory_eq_view, seen, Option.any_some, directory] at noDirectory
    cases noDirectory

/-- A temporary file that takes the output's place is the one entry with something new. -/
theorem carries_of_rename (kept : before.KeptIn made) :
    ∃ target, before.Carries after (· = target) ∧ after.entryLocation? output = some target ∧
      after.node? target = some (.file bytes 0o644 time) := by
  have onward := carries_filled_of_rename linkFree holds renamed
  rcases holds.rename renamed with ⟨target, found, noDirectory, view, _⟩
  have there : after.view target = some (.file bytes 0o644 time) := by rw [view, if_pos rfl]
  refine ⟨target, ⟨?_, ?_, onward.linkFree⟩, ?_, ?_⟩
  · intro key node directory seen
    rw [view, if_neg, kept key node seen]
    rintro rfl
    rw [Tree.isDirectory_eq_view, kept key node seen, Option.any_some, directory] at noDirectory
    cases noDirectory
  · intro key node apart seen
    rw [view, if_neg apart]
    exact kept key node seen
  · exact onward.entryLocation? (linkFree.of_update rfl holds.view) found
  · exact (Tree.node?_eq_some_iff_view rfl).mpr there

/-- The directory of a file that was replaced may be written to. -/
theorem granted_of_rename {target : Location} (found : after.entryLocation? output = some target) :
    after.grants target.tail .write = true := by
  have onward := carries_filled_of_rename linkFree holds renamed
  rcases Tree.rename_eq_ok_iff.mp renamed with ⟨_, other, _, _, _, early, _, _, granted, _⟩
  rw [onward.entryLocation? (linkFree.of_update rfl holds.view) early] at found
  cases found
  rcases List.exists_cons_of_ne_nil (Tree.entryLocation?_ne_nil early) with ⟨name, above, rfl⟩
  exact onward.grants (Tree.isDirectory_of_entryLocation? early) granted

/-- The other files are those that were there before a temporary file took the output's place. -/
theorem old_of_rename {target key : Location} {node : Node}
    (found : after.entryLocation? output = some target) (apart : key ≠ target)
    (noDirectory : node.isDirectory = false) (there : after.node? key = some node) :
    made.node? key = some node := by
  have onward := carries_filled_of_rename linkFree holds renamed
  rcases holds.rename renamed with ⟨place, early, _, view, _⟩
  rw [onward.entryLocation? (linkFree.of_update rfl holds.view) early] at found
  cases found
  rw [Tree.node?_eq_some_iff_view noDirectory] at there ⊢
  rwa [view, if_neg apart] at there

end Renamed

/-- A file that is replaced is the one entry with something new. -/
theorem carries_of_replaceFile (linkFree : before.LinkFree)
    (done : replaceFile output text mode draw time before = .ok () after) :
    ∃ bytes target, text.encode? = some bytes ∧ before.Carries after (· = target) ∧
      after.entryLocation? output = some target ∧
        after.node? target = some (.file bytes 0o644 time) := by
  rcases exists_rename_of_replaceFile linkFree done with
    ⟨bytes, made, filled, temporary, location, encodes, madeFree, grows, holds, renamed⟩
  rcases carries_of_rename madeFree holds renamed grows.kept with ⟨target, carries⟩
  exact ⟨bytes, target, encodes, carries⟩

theorem granted_of_replaceFile (linkFree : before.LinkFree)
    (done : replaceFile output text mode draw time before = .ok () after) {target : Location}
    (found : after.entryLocation? output = some target) :
    after.grants target.tail .write = true := by
  rcases exists_rename_of_replaceFile linkFree done with
    ⟨_, made, filled, temporary, location, _, madeFree, _, holds, renamed⟩
  exact granted_of_rename madeFree holds renamed found

theorem old_of_replaceFile (linkFree : before.LinkFree)
    (done : replaceFile output text mode draw time before = .ok () after) {target key : Location}
    {node : Node} (found : after.entryLocation? output = some target) (apart : key ≠ target)
    (noDirectory : node.isDirectory = false) (there : after.node? key = some node) :
    before.node? key = some node := by
  rcases exists_rename_of_replaceFile linkFree done with
    ⟨_, made, filled, temporary, location, _, madeFree, grows, holds, renamed⟩
  have earlier := old_of_rename madeFree holds renamed found apart noDirectory there
  rw [Tree.node?_eq_some_iff_view noDirectory] at earlier ⊢
  cases seen : before.view key with
  | none =>
      have directory := (grows.added key node seen earlier).1
      rw [noDirectory] at directory
      cases directory
  | some held => rw [← earlier, grows.kept key held seen]

end TreeAction

end MessageTables
