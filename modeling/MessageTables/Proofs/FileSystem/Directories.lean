import MessageTables.FileSystem.Replacement
import MessageTables.Proofs.Actions
import MessageTables.Proofs.FileSystem.Changes

/-!
# Making directories

Making directories only adds directories, each of them where a beginning of the
path leads to, and that also holds of what is made before a failure.
-/

namespace MessageTables

namespace Tree

/-- Another tree has everything a tree has, and besides only directories at allowed locations. -/
structure Grows (before after : Tree) (allowed : Location → Prop) : Prop where
  kept : before.KeptIn after
  added : ∀ location node, before.view location = none → after.view location = some node →
    node.isDirectory = true ∧ allowed location

variable {before middle after : Tree} {allowed larger : Location → Prop}

theorem Grows.refl (tree : Tree) (allowed : Location → Prop) : tree.Grows tree allowed := by
  refine ⟨KeptIn.refl tree, ?_⟩
  intro location node absent seen
  rw [absent] at seen
  cases seen

theorem Grows.trans (first : before.Grows middle allowed) (second : middle.Grows after allowed) :
    before.Grows after allowed := by
  refine ⟨first.kept.trans second.kept, ?_⟩
  intro location node absent seen
  cases between : middle.view location with
  | none => exact second.added location node between seen
  | some held =>
      have same := second.kept location held between
      rw [seen] at same
      cases same
      exact first.added location node absent between

theorem Grows.weaken (grows : before.Grows after allowed)
    (wider : ∀ location, allowed location → larger location) : before.Grows after larger := by
  refine ⟨grows.kept, ?_⟩
  intro location node absent seen
  rcases grows.added location node absent seen with ⟨directory, allowed⟩
  exact ⟨directory, wider location allowed⟩

theorem ensureDirectory_eq_ok {tree : Tree} {path : Path} {mode : Nat} {time : Timestamp}
    (made : tree.ensureDirectory path mode time = .ok after) :
    (after = tree ∧ ∃ location, tree.locate path = .ok location ∧
        tree.isDirectory location = true) ∨
      tree.create path (.directory mode time) time = .ok after := by
  unfold ensureDirectory at made
  split at made
  · rename_i created
    cases made
    exact Or.inr created
  · cases made
  · cases made
  · split at made
    · rename_i tested
      cases made
      rcases exists_nodeAt_of_test tested with ⟨node, asked, directory⟩
      rcases nodeAt_eq_ok_iff.mp asked with ⟨location, located, found⟩
      exact Or.inl ⟨rfl, location, located, isDirectory_iff.mpr ⟨node, found, directory⟩⟩
    · cases made
    · cases made

theorem grows_of_ensureDirectory {tree : Tree} {path : Path} {mode : Nat} {time : Timestamp}
    (made : tree.ensureDirectory path mode time = .ok after) :
    tree.Grows after fun location => after.locate path = .ok location := by
  rcases ensureDirectory_eq_ok made with ⟨rfl, _⟩ | created
  · exact Grows.refl _ _
  · rcases create_eq_ok_iff.mp created with ⟨location, found, absent, _, rfl⟩
    have view := view_of_create found absent (.directory mode time) time
    have kept := keptIn_of_view_eq_update absent view
    refine ⟨kept, ?_⟩
    intro key node unseen seen
    by_cases here : key = location
    · subst here
      have new := view key
      rw [if_pos rfl] at new
      rw [new] at seen
      cases seen
      exact ⟨rfl, locate_of_entryLocation? (kept.entryLocation? found) new nofun⟩
    · rw [view, if_neg here, unseen] at seen
      cases seen

end Tree

namespace TreeAction

variable {α : Type}

/-- The tree that an action leaves, done or failed. -/
def treeAfter (action : TreeAction α) (tree : Tree) : Tree :=
  match action tree with
  | .ok _ after => after
  | .error _ after => after

theorem treeAfter_of_ok {action : TreeAction α} {tree after : Tree} {answer : α}
    (done : action tree = .ok answer after) : treeAfter action tree = after := by
  rw [treeAfter, done]

theorem treeAfter_of_error {action : TreeAction α} {tree after : Tree} {mishap : Mishap}
    (failed : action tree = .error mishap after) : treeAfter action tree = after := by
  rw [treeAfter, failed]

theorem change_of_ok {paths : List Path} {operation : Tree → Except AccessError Tree}
    {tree after : Tree} (done : operation tree = .ok after) :
    change paths operation tree = .ok () after := by
  rw [change, done]

theorem change_of_error {paths : List Path} {operation : Tree → Except AccessError Tree}
    {tree : Tree} {error : AccessError} (failed : operation tree = .error error) :
    change paths operation tree = .error (.refused error paths) tree := by
  rw [change, failed]

section Directories

variable (anchor : Anchor) (mode : Nat) (time : Timestamp)

/-- The path of a directory to make; its parts are given with the last first. -/
def directoryPath (parts : List Part) : Path :=
  ⟨anchor, parts.reverse⟩

theorem directoryPath_cons (part : Part) (above : List Part) :
    directoryPath anchor (part :: above) = (directoryPath anchor above).child part := by
  rw [directoryPath, List.reverse_cons]
  rfl

theorem makeDirectories_cons (part : Part) (above : List Part) :
    makeDirectories anchor mode time (part :: above) =
      tryCatch (change [directoryPath anchor (part :: above)]
          (·.ensureDirectory (directoryPath anchor (part :: above)) mode time))
        fun mishap =>
          if mishap = .refused (.code .noEntry) [directoryPath anchor (part :: above)] then
            makeDirectories anchor mode time above >>= fun _ =>
              change [directoryPath anchor (part :: above)]
                (·.ensureDirectory (directoryPath anchor (part :: above)) mode time)
          else throw mishap :=
  rfl

/-- What making the last of some directories comes to. -/
theorem makeDirectories_cons_cases (part : Part) (above : List Part) (tree : Tree) :
    (∃ after, tree.ensureDirectory (directoryPath anchor (part :: above)) mode time = .ok after ∧
        makeDirectories anchor mode time (part :: above) tree = .ok () after) ∨
      (∃ error, error ≠ .code .noEntry ∧
        tree.ensureDirectory (directoryPath anchor (part :: above)) mode time = .error error ∧
        makeDirectories anchor mode time (part :: above) tree =
          .error (.refused error [directoryPath anchor (part :: above)]) tree) ∨
      tree.ensureDirectory (directoryPath anchor (part :: above)) mode time =
          .error (.code .noEntry) ∧
        makeDirectories anchor mode time (part :: above) tree =
          (makeDirectories anchor mode time above >>= fun _ =>
            change [directoryPath anchor (part :: above)]
              (·.ensureDirectory (directoryPath anchor (part :: above)) mode time)) tree := by
  rw [makeDirectories_cons]
  cases made : tree.ensureDirectory (directoryPath anchor (part :: above)) mode time with
  | ok after =>
      have makes : change [directoryPath anchor (part :: above)]
          (·.ensureDirectory (directoryPath anchor (part :: above)) mode time) tree =
            .ok () after :=
        change_of_ok made
      exact Or.inl ⟨after, rfl, tryCatch_of_ok makes _⟩
  | error error =>
      have refuses : change [directoryPath anchor (part :: above)]
          (·.ensureDirectory (directoryPath anchor (part :: above)) mode time) tree =
            .error (.refused error [directoryPath anchor (part :: above)]) tree :=
        change_of_error made
      right
      rw [tryCatch_of_error refuses]
      by_cases missing : error = .code .noEntry
      · right
        rw [if_pos (by rw [missing]), missing]
        exact ⟨rfl, rfl⟩
      · left
        rw [if_neg fun same => missing (Mishap.refused.inj same).1]
        exact ⟨error, missing, rfl, rfl⟩

/-- Directories are not made only because the tree refuses a step. -/
theorem exists_refused_of_makeDirectories {parts : List Part} {tree after : Tree}
    {mishap : Mishap}
    (failed : makeDirectories anchor mode time parts tree = .error mishap after) :
    ∃ error paths, mishap = .refused error paths := by
  have refusal {path : Path} {before after : Tree}
      (failed : change [path] (·.ensureDirectory path mode time) before = .error mishap after) :
      ∃ error paths, mishap = .refused error paths := by
    cases made : before.ensureDirectory path mode time with
    | ok tree =>
        rw [change_of_ok made] at failed
        cases failed
    | error error =>
        rw [change_of_error made] at failed
        cases failed
        exact ⟨error, [path], rfl⟩
  induction parts generalizing tree after with
  | nil => exact refusal failed
  | cons part above ih =>
      rcases makeDirectories_cons_cases anchor mode time part above tree with
        ⟨made, _, done⟩ | ⟨error, _, _, ended⟩ | ⟨_, again⟩
      · rw [done] at failed
        cases failed
      · rw [ended] at failed
        cases failed
        exact ⟨error, _, rfl⟩
      · rw [again] at failed
        cases outer : makeDirectories anchor mode time above tree with
        | error other middle =>
            rw [bind_of_error outer] at failed
            cases failed
            exact ih outer
        | ok _ middle =>
            rw [bind_of_ok outer] at failed
            exact refusal failed

theorem grows_change_ensureDirectory (path : Path) (tree : Tree) :
    tree.Grows (treeAfter (change [path] (·.ensureDirectory path mode time)) tree) fun location =>
      (treeAfter (change [path] (·.ensureDirectory path mode time)) tree).locate path =
        .ok location := by
  cases made : tree.ensureDirectory path mode time with
  | ok after =>
      rw [treeAfter_of_ok (change_of_ok made)]
      exact Tree.grows_of_ensureDirectory made
  | error error =>
      rw [treeAfter_of_error (change_of_error made)]
      exact Tree.Grows.refl _ _

/-- Only directories are added, where the beginnings of the path lead to. -/
theorem grows_makeDirectories (parts : List Part) (tree : Tree) :
    tree.Grows (treeAfter (makeDirectories anchor mode time parts) tree) fun location =>
      ∃ above, above <:+ parts ∧
        (treeAfter (makeDirectories anchor mode time parts) tree).locate
          (directoryPath anchor above) = .ok location := by
  induction parts generalizing tree with
  | nil =>
      apply (grows_change_ensureDirectory mode time (directoryPath anchor []) tree).weaken
      intro location located
      exact ⟨[], List.suffix_refl _, located⟩
  | cons part above ih =>
      rcases makeDirectories_cons_cases anchor mode time part above tree with
        ⟨after, made, done⟩ | ⟨error, _, _, failed⟩ | ⟨_, again⟩
      · rw [treeAfter_of_ok done]
        apply (Tree.grows_of_ensureDirectory made).weaken
        intro location located
        exact ⟨part :: above, List.suffix_refl _, located⟩
      · rw [treeAfter_of_error failed]
        exact Tree.Grows.refl _ _
      · cases outer : makeDirectories anchor mode time above tree with
        | error error middle =>
            rw [bind_of_error outer] at again
            have grows := ih tree
            rw [treeAfter_of_error outer] at grows
            rw [treeAfter_of_error again]
            apply grows.weaken
            rintro location ⟨shorter, within, located⟩
            exact ⟨shorter, within.trans (List.suffix_cons part above), located⟩
        | ok _ middle =>
            rw [bind_of_ok outer] at again
            have grows := ih tree
            rw [treeAfter_of_ok outer] at grows
            have last := grows_change_ensureDirectory mode time
              (directoryPath anchor (part :: above)) middle
            have same : treeAfter (makeDirectories anchor mode time (part :: above)) tree =
                treeAfter (change [directoryPath anchor (part :: above)]
                  (·.ensureDirectory (directoryPath anchor (part :: above)) mode time)) middle := by
              rw [treeAfter, again, treeAfter]
            rw [same]
            apply Tree.Grows.trans
            · apply grows.weaken
              rintro location ⟨shorter, within, located⟩
              exact ⟨shorter, within.trans (List.suffix_cons part above), last.kept.locate located⟩
            · apply last.weaken
              intro location located
              exact ⟨part :: above, List.suffix_refl _, located⟩

end Directories

end TreeAction

end MessageTables
