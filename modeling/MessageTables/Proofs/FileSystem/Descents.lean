import MessageTables.Proofs.FileSystem.Carrying
import MessageTables.Proofs.Path.Plain

/-!
# Paths that do not lead up

A path without parts that lead up goes down at every step. So in a tree without
links it leads nowhere unless all its parts are names, and what it leads to is
at the location that they name. The way there is open as soon as it is in a
later tree, since directories are kept.
-/

namespace MessageTables

theorem Step.ofText_part {part : Part} (descends : part ≠ Part.up) :
    Step.ofText part.text = .enter part.text := by
  rw [ofText, if_neg part.isPart.2.1, if_neg]
  intro same
  exact descends (Part.ext same)

namespace Path

/-- Whether no part of a path leads up. -/
def Descends (path : Path) : Prop :=
  Part.up ∉ path.parts

instance (path : Path) : Decidable path.Descends :=
  inferInstanceAs (Decidable (_ ∉ _))

variable {path : Path} {part : Part}

theorem Descends.child (descends : path.Descends) (differs : part ≠ Part.up) :
    (path.child part).Descends := by
  intro among
  rcases List.mem_append.mp among with inside | last
  · exact descends inside
  · exact differs (List.mem_singleton.mp last).symm

theorem Descends.steps_eq (descends : path.Descends) (parts : path.parts ≠ []) :
    path.steps = path.parts.map fun part => .enter part.text := by
  rw [steps]
  cases shape : path.parts with
  | nil => exact absurd shape parts
  | cons first rest =>
      simp only
      apply List.map_congr_left
      intro part among
      apply Step.ofText_part
      rintro rfl
      rw [← shape] at among
      exact descends among

end Path

namespace Tree

variable {tree before after : Tree} {path : Path} {location : Location} {part : Part}
  {replaced : Location → Prop}

/-- What steps down lead to is named by them. -/
theorem exists_names_of_walk (linkFree : tree.LinkFree) {start : Location} {parts : List Part}
    (found : tree.walk start (parts.map fun part => .enter part.text) = .found location) :
    ∃ names : List Name, parts = names.map Name.part ∧ location = names.reverse ++ start := by
  induction parts generalizing start with
  | nil =>
      cases found
      exact ⟨[], rfl, rfl⟩
  | cons part rest ih =>
      rw [List.map_cons] at found
      rcases linkFree.advance_of_walk found with ⟨next, advance, further⟩
      cases advance with
      | @enter _ name _ directory granted named seen noLink =>
          rcases ih further with ⟨names, rfl, rfl⟩
          refine ⟨name :: names, ?_, by simp⟩
          rw [List.map_cons]
          exact congrArg (· :: _) (Part.ext (Name.eq_of_ofText? named).symm)

theorem plain_of_follow (linkFree : tree.LinkFree) {links : Nat}
    (followed : tree.follow links [] (path.parts.map fun part => .enter part.text) =
      .ok (.node location)) : path = .plain path.anchor location := by
  rcases exists_names_of_walk linkFree (linkFree.follow_eq_node_iff.mp followed) with
    ⟨names, parts, rfl⟩
  rw [List.append_nil, Path.plain, List.map_reverse, List.reverse_reverse, ← parts]

/-- What a path leads to is named by the path. -/
theorem plain_of_locate (linkFree : tree.LinkFree) (descends : path.Descends)
    (located : tree.locate path = .ok location) : path = .plain path.anchor location := by
  rcases locate_eq_ok_iff.mp located with ⟨_, followed⟩
  by_cases parts : path.parts = []
  · have bare : path = .plain path.anchor [] := by
      rcases path with ⟨anchor, _⟩
      cases parts
      rfl
    rw [bare] at located
    rw [eq_of_locate_plain linkFree located]
    exact bare
  · rw [descends.steps_eq parts] at followed
    exact plain_of_follow linkFree followed

/-- The entry that a path is about is named by the path. -/
theorem exists_plain_of_entryLocation? (linkFree : tree.LinkFree) (descends : path.Descends)
    (found : tree.entryLocation? (path.child part) = some location) :
    ∃ name above, location = name :: above ∧ part = name.part ∧
      path = .plain path.anchor above := by
  rcases entryLocation?_eq_some_iff.mp found with ⟨parent, text, name, entered, named, rfl⟩
  rcases entry_eq_ok_iff.mp entered with ⟨_, followed, _, _, last⟩
  rw [Path.steps_child, List.dropLast_concat] at followed
  rw [Path.steps_child, List.getLast?_concat, Option.getD_some] at last
  refine ⟨name, parent, rfl, ?_, ?_⟩
  · apply Part.ext
    rw [← Step.eq_of_ofText last.symm]
    exact (Name.eq_of_ofText? named).symm
  · have entering : path.parts.map (fun part => Step.ofText part.text) =
        path.parts.map fun part => .enter part.text := by
      apply List.map_congr_left
      intro other among
      apply Step.ofText_part
      rintro rfl
      exact descends among
    rw [entering] at followed
    exact plain_of_follow linkFree followed

/-! ## Ways that are open in both of two trees -/

theorem Carries.grants_eq (carries : before.Carries after replaced) {right : Right}
    (directory : before.isDirectory location = true) :
    before.grants location right = after.grants location right := by
  rw [grants_eq_view, grants_eq_view, carries.view_eq directory]

section Both

variable {one two : Tree} (oneFree : one.LinkFree) (twoFree : two.LinkFree)
  (same : ∀ location, one.isDirectory location = true → two.isDirectory location = true →
    one.grants location .enter = two.grants location .enter)

include oneFree twoFree same

theorem walk_names_of_walk (present : (two.node? location).isSome = true)
    (found : one.walk [] (Step.names location.reverse) = .found location) :
    two.walk [] (Step.names location.reverse) = .found location := by
  induction location with
  | nil => rfl
  | cons name above ih =>
      have directory := isDirectory_of_node? present
      rw [Step.names_reverse_cons] at found ⊢
      rcases walk_concat_eq_found oneFree found with ⟨parent, led, advance⟩
      have here := walk_names_eq_found oneFree led
      rw [List.reverse_reverse, List.append_nil] at here
      subst here
      have taken : two.Advance parent (.enter name.text) (name :: parent) := by
        cases advance with
        | enter oneDirectory granted _ _ _ =>
            rw [same parent oneDirectory directory] at granted
            exact advance_of_granted twoFree present granted
      rw [(walk_append _).1 parent (ih (isSome_of_isDirectory directory) led), taken.walk_eq,
        walk_nil]

/-- A path that leads somewhere in one tree leads there in another that has something there. -/
theorem locate_of_locate (descends : path.Descends)
    (present : (two.node? location).isSome = true) (located : one.locate path = .ok location) :
    two.locate path = .ok location := by
  have plain := plain_of_locate oneFree descends located
  rw [plain, locate_eq_ok_iff] at located ⊢
  rcases located with ⟨valid, followed⟩
  refine ⟨valid, follow_of_found ?_⟩
  rw [oneFree.follow_eq_node_iff] at followed
  cases location with
  | nil =>
      rw [Path.steps_plain_nil] at followed ⊢
      have directory := two.isDirectory_nil
      rcases oneFree.advance_of_walk followed with ⟨next, advance, _⟩
      cases advance with
      | stay oneDirectory granted =>
          rw [same [] oneDirectory directory] at granted
          rw [(Advance.stay directory granted).walk_eq, walk_nil]
  | cons name above =>
      rw [Path.steps_plain] at followed ⊢
      exact walk_names_of_walk oneFree twoFree same present followed

end Both

theorem Carries.locate (carries : before.Carries after replaced) (linkFree : before.LinkFree)
    (descends : path.Descends) (located : before.locate path = .ok location)
    (present : (after.node? location).isSome = true) : after.locate path = .ok location :=
  locate_of_locate linkFree carries.linkFree (fun _ directory _ => carries.grants_eq directory)
    descends present located

theorem Carries.locate_of_after (carries : before.Carries after replaced)
    (linkFree : before.LinkFree) (descends : path.Descends)
    (located : after.locate path = .ok location)
    (present : (before.node? location).isSome = true) : before.locate path = .ok location :=
  locate_of_locate carries.linkFree linkFree
    (fun _ _ directory => (carries.grants_eq directory).symm) descends present located

end Tree

end MessageTables
