import MessageTables.Freshness
import MessageTables.Proofs.FileSystem.Descents

/-!
# When a module is stale

A module is compared with its table once both have been asked for their times,
the module first. A module that is not there is stale, whatever the table.

A path that leads down is asked for its time with the same answer in two trees
that have the same node where it leads to, one of them carried into the other.
-/

namespace MessageTables.Tree

variable {tree before after : Tree} {path source target : Path} {time other : Timestamp}

theorem isStale_eq (tree : Tree) (source target : Path) :
    tree.isStale source target =
      match tree.changeTime? target with
      | .error failure => .error failure
      | .ok none => .ok true
      | .ok (some time) =>
          match tree.changeTime? source with
          | .error failure => .error failure
          | .ok none => .ok false
          | .ok (some other) => .ok (other.isLater time) := by
  rw [isStale, Dependency.status]
  cases tree.changeTime? target with
  | error failure => rfl
  | ok time? =>
      cases time? with
      | none => rfl
      | some time =>
          simp only [bind, Except.bind, someIsLater]
          cases tree.changeTime? source with
          | error failure => rfl
          | ok other? =>
              cases other? with
              | none => rfl
              | some other =>
                  cases later : other.isLater time <;> simp [later, pure, Except.pure]

theorem exists_access_of_changeTime? {failure : Failure}
    (refused : tree.changeTime? path = .error failure) :
    ∃ error, tree.changeTime path = .error error ∧ failure = .ofAccess path.text error := by
  unfold changeTime? at refused
  split at refused
  · cases refused
  · cases refused
  · cases refused
    exact ⟨_, ‹_›, rfl⟩

theorem exists_access_of_isStale {failure : Failure}
    (refused : tree.isStale source target = .error failure) :
    ∃ path error, (path = source ∨ path = target) ∧ tree.changeTime path = .error error ∧
      failure = .ofAccess path.text error := by
  rw [isStale_eq] at refused
  split at refused
  · cases refused
    rcases exists_access_of_changeTime? ‹_› with ⟨error, asked, rfl⟩
    exact ⟨target, error, Or.inr rfl, asked, rfl⟩
  · cases refused
  · split at refused
    · cases refused
      rcases exists_access_of_changeTime? ‹_› with ⟨error, asked, rfl⟩
      exact ⟨source, error, Or.inl rfl, asked, rfl⟩
    · cases refused
    · cases refused

theorem isStale_eq_false_iff (asked : tree.changeTime? source = .ok (some other)) :
    tree.isStale source target = .ok false ↔
      ∃ time, tree.changeTime? target = .ok (some time) ∧ other.isLater time = false := by
  rw [isStale_eq]
  cases tree.changeTime? target with
  | error failure => simp
  | ok time? =>
      cases time? with
      | none => simp
      | some time => simp [asked]

theorem changeTime?_eq_ok_some_iff :
    tree.changeTime? path = .ok (some time) ↔ tree.changeTime path = .ok time := by
  rw [changeTime?]
  split <;>
  · rename_i asked
    simp [asked]

theorem changeTime?_eq_ok_none_iff :
    tree.changeTime? path = .ok none ↔ tree.changeTime path = .error (.code .noEntry) := by
  rw [changeTime?]
  split
  · rename_i asked
    simp [asked]
  · rename_i asked
    simp [asked]
  · rename_i error other asked
    rw [asked]
    exact iff_of_false (by simp) fun same => other (Except.error.inj same)

theorem changeTime?_eq_some_iff :
    tree.changeTime? path = .ok (some time) ↔
      ∃ location node, tree.locate path = .ok location ∧ tree.node? location = some node ∧
        node.time? = some time := by
  rw [changeTime?_eq_ok_some_iff, changeTime, bind_eq_ok_iff]
  constructor
  · rintro ⟨node, asked, held⟩
    rcases nodeAt_eq_ok_iff.mp asked with ⟨location, located, there⟩
    split at held
    · rename_i same
      cases held
      exact ⟨location, node, located, there, same⟩
    · cases held
  · rintro ⟨location, node, located, there, same⟩
    refine ⟨node, nodeAt_eq_ok_iff.mpr ⟨location, located, there⟩, ?_⟩
    rw [same]
    rfl

/-- Whether two trees have the same node at the location that a path names, if it names one. -/
def SameAt (before after : Tree) (path : Path) : Prop :=
  ∀ location, path = .plain path.anchor location → after.node? location = before.node? location

theorem SameAt.refl (tree : Tree) (path : Path) : tree.SameAt tree path :=
  fun _ _ => rfl

theorem SameAt.trans {middle : Tree} (first : before.SameAt middle path)
    (second : middle.SameAt after path) : before.SameAt after path :=
  fun location named => (second location named).trans (first location named)

theorem SameAt.changeTime?_eq_some_iff {replaced : Location → Prop}
    (same : before.SameAt after path) (descends : path.Descends) (linkFree : before.LinkFree)
    (carries : before.Carries after replaced) :
    after.changeTime? path = .ok (some time) ↔ before.changeTime? path = .ok (some time) := by
  rw [Tree.changeTime?_eq_some_iff, Tree.changeTime?_eq_some_iff]
  constructor
  · rintro ⟨location, node, located, there, timed⟩
    have found := there
    rw [same location (plain_of_locate carries.linkFree descends located)] at found
    refine ⟨location, node, carries.locate_of_after linkFree descends located ?_, found, timed⟩
    rw [found]
    rfl
  · rintro ⟨location, node, located, there, timed⟩
    have found := there
    rw [← same location (plain_of_locate linkFree descends located)] at found
    refine ⟨location, node, carries.locate linkFree descends located ?_, found, timed⟩
    rw [found]
    rfl

end MessageTables.Tree
