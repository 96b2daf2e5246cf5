import MessageTables.Proofs.FileSystem.PlainWalks
import MessageTables.Proofs.Text.Spelling

/-!
# Paths that are refused

A path is refused for want of a right only where a directory may not be entered, so
none is where all directories may be. Refusals for length do not depend on rights: the
text of a link may be a name that no directory can have, and every path that leads
through such a link is refused, however short it is.
-/

namespace MessageTables

theorem Step.ofText_of_long {text : Text} (long : 2 < text.byteSize) :
    ofText text = .enter text := by
  rw [ofText, if_neg, if_neg]
  · rintro rfl
    exact absurd long (by decide)
  · rintro rfl
    exact absurd long (by decide)

theorem Step.ofTarget_of_isPart {text : Text} (isPart : IsPart text) :
    ofTarget text = [ofText text] := by
  have nonempty : text.toList ≠ [] := fun none => isPart.1 (Text.toList_eq_nil_iff.mp none)
  rw [ofTarget, List.splitOn_eq_singleton isPart.2.2.1]
  simp [nonempty]

/-! ## Names that are too long -/

theorem size_ofList_replicate (count : Nat) :
    (Text.ofList (List.replicate count 'n')).byteSize = count := by
  induction count with
  | zero => rfl
  | succ count ih =>
      rw [List.replicate_succ, Text.byteSize_cons, ih]
      exact Nat.add_comm 1 count

/-- A part that is too long for the name of an entry. -/
def overlongPart : Part where
  text := Text.ofList (List.replicate 256 'n')
  isPart := by
    have differs {text : Text} (short : text.byteSize < 256) :
        Text.ofList (List.replicate 256 'n') ≠ text := by
      rintro rfl
      rw [size_ofList_replicate] at short
      exact lt_irrefl _ short
    refine ⟨differs (by decide), differs (by decide), ?_, ?_⟩
    · exact fun inside => absurd (List.eq_of_mem_replicate inside) (by decide)
    · exact (congrArg Text.isDecoded List.map_replicate).symm.trans
        (Text.isDecoded_map_char (List.replicate 256 'n'))

theorem text_overlongPart : overlongPart.text = Text.ofList (List.replicate 256 'n') := rfl

theorem size_overlongPart : overlongPart.text.byteSize = 256 :=
  size_ofList_replicate 256

namespace Tree

variable {tree : Tree} {location : Location}

/-! ## Rights -/

/-- Whether all directories may be read and entered. -/
def Unlocked (tree : Tree) : Prop :=
  ∀ location node, tree.node? location = some node →
    node.isDirectory = true → node.grants .read = true ∧ node.grants .enter = true

instance (tree : Tree) : Decidable tree.Unlocked :=
  decidable_of_iff (∀ entry ∈ tree.entries, entry.2.isDirectory = true →
      entry.2.grants .read = true ∧ entry.2.grants .enter = true)
    (tree.forall_entries_iff fun node => node.isDirectory = true →
      node.grants .read = true ∧ node.grants .enter = true)

namespace Unlocked

variable (unlocked : tree.Unlocked)

include unlocked

theorem granted (directory : tree.isDirectory location = true) :
    tree.grants location .read = true ∧ tree.grants location .enter = true := by
  rcases isDirectory_iff.mp directory with ⟨node, there, isDirectory⟩
  rw [grants, grants, there]
  exact unlocked location node there isDirectory

theorem walk_ne_denied (start : Location) (steps : List Step) :
    tree.walk start steps ≠ .failed .denied := by
  induction steps generalizing start with
  | nil => nofun
  | cons step rest ih =>
      rw [walk_cons]
      split
      · nofun
      · rename_i inside
        rw [Bool.not_eq_true, Bool.not_eq_false'] at inside
        rw [(unlocked.granted inside).2, if_neg (by simp)]
        cases step with
        | arrive => exact ih start
        | stay => exact ih start
        | up => exact ih start.tail
        | enter text =>
            simp only
            split
            · nofun
            · split
              · split <;> nofun
              · nofun
              · exact ih _

theorem follow_ne_denied (links : Nat) (start : Location) (steps : List Step) :
    tree.follow links start steps ≠ .error .denied := by
  fun_induction follow tree links start steps with
  | case1 links start steps location walked => nofun
  | case2 links start steps parent name walked => nofun
  | case3 links start steps code failed =>
      intro same
      cases same
      exact unlocked.walk_ne_denied start steps failed
  | case4 start steps parent target rest detour => nofun
  | case5 start steps parent target rest detour links _ ih => exact ih

/-- Where all directories may be entered, no path is refused for want of a right. -/
theorem locate_ne_denied (path : Path) : tree.locate path ≠ .error (.code .denied) := by
  intro refused
  rcases bind_eq_error_iff.mp refused with placed | ⟨place, _, led⟩
  · rcases bind_eq_error_iff.mp placed with checked | ⟨_, _, followed⟩
    · rcases Path.checkPath_error_cases checked with impossible | ⟨impossible, _⟩
      · cases impossible
      · cases impossible
    · cases led : tree.follow linkLimit [] path.steps with
      | ok place =>
          rw [led] at followed
          cases followed
      | error code =>
          rw [led] at followed
          cases followed
          exact unlocked.follow_ne_denied _ _ _ led
  · cases place <;> cases led

/-- All directories from one that is above another to that one may be read. -/
theorem readable {names : List Name} {root : Location}
    (directory : tree.isDirectory (names ++ root) = true) (inner : List Name)
    (within : inner <:+ names) : tree.grants (inner ++ root) .read = true := by
  by_cases own : inner = names
  · rw [own]
    exact (unlocked.granted directory).1
  · exact (unlocked.granted (isDirectory_of_below (isSome_of_isDirectory directory)
      (List.suffix_append_self_iff.mpr within) fun same =>
        own (List.append_cancel_right same))).1

end Unlocked

/-! ## Links -/

/-- A path that ends in a link to a name that no directory can have is refused. -/
theorem locate_of_long_link {name : Name} {target : Text} (isPart : IsPart target)
    (long : 255 < target.byteSize) (granted : tree.grants [] .enter = true)
    (there : tree.node? [name] = some (.link target))
    (valid : checkPath (.plain .relative [name]) = .ok ()) :
    tree.locate (.plain .relative [name]) = .error (.code .nameTooLong) := by
  have top : tree.isDirectory [] = true := isDirectory_iff.mpr ⟨_, tree.node?_nil, tree.rooted⟩
  have ahead : tree.LinkAhead [] (.enter name.text) target :=
    .enter top granted name.ofText?_text (view_eq_some_link_iff.mpr there)
  have failed : tree.walk [] [.enter target] = .failed .nameTooLong := by
    simp [walk_cons, top, granted, Name.ofText?_eq_none_of_long long]
  have followed : tree.follow linkLimit [] (Path.plain .relative [name]).steps =
      .error .nameTooLong := by
    rw [Path.steps_plain, show linkLimit = 39 + 1 from rfl]
    have detour : tree.walk [] (Step.names [name].reverse) = .detour [] target [] :=
      ahead.walk_eq []
    rw [follow_of_detour detour, List.append_nil, Step.ofTarget_of_isPart isPart,
      Step.ofText_of_long (by omega), ite_self]
    exact follow_of_failed failed
  rw [locate, place, valid]
  simp only [followed]
  rfl

end Tree

end MessageTables
