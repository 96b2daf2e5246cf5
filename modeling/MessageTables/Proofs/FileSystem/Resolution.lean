import MessageTables.Proofs.Actions
import MessageTables.Proofs.FileSystem.View

/-!
# Where paths lead

A walk asks a tree for its view and for nothing else. `Advance` and `LinkAhead`
say when a step succeeds: it leads on to a location, or it has come to a link.
Both ask only for what is there, so what a walk has found is found in every tree
in which the first is kept; this carries over to walks through links and to
paths.

`Tree.entryLocation?` is the location of the entry a path is about: the place of
its last name in the directory that the rest of the path leads to, whether or not
something stands there. The operations on entries are stated in it.
-/

namespace MessageTables

/-- Whether a walk has come to a location or to a link. -/
def Arrival.IsFound : Arrival → Prop
  | found _ => True
  | detour _ _ _ => True
  | _ => False

namespace Tree

/-- A step from a location to the next, without a link on the way. -/
inductive Advance (tree : Tree) (location : Location) : Step → Location → Prop where
  | arrive (directory : tree.isDirectory location = true) : tree.Advance location .arrive location
  | stay (directory : tree.isDirectory location = true)
      (granted : tree.grants location .enter = true) : tree.Advance location .stay location
  | up (directory : tree.isDirectory location = true)
      (granted : tree.grants location .enter = true) : tree.Advance location .up location.tail
  | enter {text : Text} {name : Name} {node : Node}
      (directory : tree.isDirectory location = true)
      (granted : tree.grants location .enter = true) (named : Name.ofText? text = some name)
      (seen : tree.view (name :: location) = some node) (noLink : ∀ target, node ≠ .link target) :
      tree.Advance location (.enter text) (name :: location)

/-- A step that has come to a link. -/
inductive LinkAhead (tree : Tree) (location : Location) : Step → Text → Prop where
  | enter {text target : Text} {name : Name} (directory : tree.isDirectory location = true)
      (granted : tree.grants location .enter = true) (named : Name.ofText? text = some name)
      (seen : tree.view (name :: location) = some (.link target)) :
      tree.LinkAhead location (.enter text) target

/-- A step that enters a name that a directory does not have. -/
inductive Missing (tree : Tree) (location : Location) : Step → Name → Prop where
  | enter {text : Text} {name : Name} (directory : tree.isDirectory location = true)
      (granted : tree.grants location .enter = true) (named : Name.ofText? text = some name)
      (seen : tree.view (name :: location) = none) : tree.Missing location (.enter text) name

variable {tree before after : Tree} {location next : Location} {step : Step} {target : Text}
  {name : Name}

theorem view_eq_some_link_iff :
    tree.view location = some (.link target) ↔ tree.node? location = some (.link target) :=
  (node?_eq_some_iff_view rfl).symm

theorem Advance.walk_eq (advance : tree.Advance location step next) (rest : List Step) :
    tree.walk location (step :: rest) = tree.walk next rest := by
  rw [walk_cons]
  cases advance with
  | arrive directory => simp [directory]
  | stay directory granted => simp [directory, granted]
  | up directory granted => simp [directory, granted]
  | enter directory granted named seen noLink =>
      rcases Option.map_eq_some_iff.mp seen with ⟨found, there, rfl⟩
      simp only [directory, granted, named, there]
      cases found with
      | link target => exact absurd rfl (noLink target)
      | file bytes mode time => simp
      | directory mode time => simp

theorem LinkAhead.walk_eq (ahead : tree.LinkAhead location step target) (rest : List Step) :
    tree.walk location (step :: rest) = .detour location target rest := by
  rw [walk_cons]
  cases ahead with
  | enter directory granted named seen =>
      simp [directory, granted, named, view_eq_some_link_iff.mp seen]

theorem Missing.walk_eq (missing : tree.Missing location step name) (rest : List Step) :
    tree.walk location (step :: rest) =
      if rest.isEmpty then .vacant location name else .failed .noEntry := by
  rw [walk_cons]
  cases missing with
  | enter directory granted named seen =>
      simp [directory, granted, named, view_eq_none_iff.mp seen]

/-- What a step can come to, whatever follows it. -/
theorem step_cases (tree : Tree) (location : Location) (step : Step) :
    (∃ next, tree.Advance location step next) ∨ (∃ target, tree.LinkAhead location step target) ∨
      (∃ name, tree.Missing location step name) ∨
      ∃ code, ∀ rest, tree.walk location (step :: rest) = .failed code := by
  by_cases directory : tree.isDirectory location = true
  · by_cases refused : step ≠ .arrive ∧ (!tree.grants location .enter) = true
    · right; right; right
      refine ⟨.denied, fun rest => ?_⟩
      rw [walk_cons, directory, if_pos refused]
      rfl
    · cases step with
      | arrive => exact Or.inl ⟨_, .arrive directory⟩
      | stay =>
          have granted : tree.grants location .enter = true := by simpa using refused
          exact Or.inl ⟨_, .stay directory granted⟩
      | up =>
          have granted : tree.grants location .enter = true := by simpa using refused
          exact Or.inl ⟨_, .up directory granted⟩
      | enter text =>
          have granted : tree.grants location .enter = true := by simpa using refused
          cases named : Name.ofText? text with
          | none =>
              right; right; right
              exact ⟨.nameTooLong, fun rest => by simp [walk_cons, directory, granted, named]⟩
          | some name =>
              cases seen : tree.view (name :: location) with
              | none =>
                  right; right; left
                  exact ⟨name, .enter directory granted named seen⟩
              | some node =>
                  cases node with
                  | link target =>
                      exact Or.inr (Or.inl ⟨target, .enter directory granted named seen⟩)
                  | file bytes mode time =>
                      exact Or.inl ⟨_, .enter directory granted named seen nofun⟩
                  | directory mode time =>
                      exact Or.inl ⟨_, .enter directory granted named seen nofun⟩
  · right; right; right
    exact ⟨.notDirectory, fun rest => by simp [walk_cons, directory]⟩

theorem advance_or_linkAhead_of_isFound {rest : List Step}
    (found : Arrival.IsFound (tree.walk location (step :: rest))) :
    (∃ next, tree.Advance location step next) ∨ ∃ target, tree.LinkAhead location step target := by
  rcases step_cases tree location step with advance | link | ⟨name, missing⟩ | ⟨code, failed⟩
  · exact Or.inl advance
  · exact Or.inr link
  · rw [missing.walk_eq] at found
    split at found <;> exact found.elim
  · rw [failed] at found
    exact found.elim

theorem KeptIn.advance (kept : before.KeptIn after) (advance : before.Advance location step next) :
    after.Advance location step next := by
  cases advance with
  | arrive directory => exact .arrive (kept.isDirectory directory)
  | stay directory granted => exact .stay (kept.isDirectory directory) (kept.grants granted)
  | up directory granted => exact .up (kept.isDirectory directory) (kept.grants granted)
  | enter directory granted named seen noLink =>
      exact .enter (kept.isDirectory directory) (kept.grants granted) named (kept _ _ seen) noLink

theorem KeptIn.linkAhead (kept : before.KeptIn after)
    (ahead : before.LinkAhead location step target) : after.LinkAhead location step target := by
  cases ahead with
  | enter directory granted named seen =>
      exact .enter (kept.isDirectory directory) (kept.grants granted) named (kept _ _ seen)

theorem KeptIn.walk_eq (kept : before.KeptIn after) {steps : List Step}
    (found : Arrival.IsFound (before.walk location steps)) :
    after.walk location steps = before.walk location steps := by
  induction steps generalizing location with
  | nil => rfl
  | cons step rest ih =>
      rcases advance_or_linkAhead_of_isFound found with ⟨next, advance⟩ | ⟨target, ahead⟩
      · rw [advance.walk_eq] at found
        rw [advance.walk_eq, (kept.advance advance).walk_eq, ih found]
      · rw [ahead.walk_eq, (kept.linkAhead ahead).walk_eq]

theorem walk_append {start : Location} {steps : List Step} (more : List Step) :
    (∀ location, tree.walk start steps = .found location →
        tree.walk start (steps ++ more) = tree.walk location more) ∧
      ∀ parent target rest, tree.walk start steps = .detour parent target rest →
        tree.walk start (steps ++ more) = .detour parent target (rest ++ more) := by
  induction steps generalizing start with
  | nil =>
      constructor
      · intro location found
        cases found
        rfl
      · intro parent target rest detour
        cases detour
  | cons step steps ih =>
      rw [List.cons_append]
      rcases step_cases tree start step with
        ⟨next, advance⟩ | ⟨target, ahead⟩ | ⟨name, missing⟩ | ⟨code, failed⟩
      · rw [advance.walk_eq, advance.walk_eq]
        exact ih
      · rw [ahead.walk_eq, ahead.walk_eq]
        constructor
        · intro location found
          cases found
        · intro parent other rest detour
          cases detour
          rfl
      · rw [missing.walk_eq]
        constructor
        · intro location found
          split at found <;> cases found
        · intro parent other rest detour
          split at detour <;> cases detour
      · rw [failed]
        exact ⟨nofun, nofun⟩

theorem follow_of_found {links : Nat} {start : Location} {steps : List Step}
    (found : tree.walk start steps = .found location) :
    tree.follow links start steps = .ok (.node location) := by
  rw [follow.eq_def]
  simp only [found]

theorem follow_of_failed {links : Nat} {start : Location} {steps : List Step} {code : ErrorCode}
    (failed : tree.walk start steps = .failed code) :
    tree.follow links start steps = .error code := by
  rw [follow.eq_def]
  simp only [failed]

/-- The ways in which a walk through links comes to a node: at once, or behind a first link. -/
theorem follow_eq_node_cases {links : Nat} {start : Location} {steps : List Step}
    (found : tree.follow links start steps = .ok (.node location)) :
    tree.walk start steps = .found location ∨
      ∃ parent target rest remaining, links = remaining + 1 ∧
        tree.walk start steps = .detour parent target rest ∧
        tree.follow remaining (if target.toList.head? = some (Symbol.char '/') then [] else parent)
          (Step.ofTarget target ++ rest) = .ok (.node location) := by
  rw [follow.eq_def] at found
  cases walked : tree.walk start steps with
  | found other =>
      simp only [walked] at found
      cases found
      exact Or.inl rfl
  | vacant parent name =>
      simp only [walked] at found
      cases found
  | failed code =>
      simp only [walked] at found
      cases found
  | detour parent target rest =>
      simp only [walked] at found
      cases links with
      | zero => cases found
      | succ remaining => exact Or.inr ⟨parent, target, rest, remaining, rfl, rfl, found⟩

theorem follow_of_detour {links : Nat} {start parent : Location} {steps rest : List Step}
    (detour : tree.walk start steps = .detour parent target rest) :
    tree.follow (links + 1) start steps =
      tree.follow links (if target.toList.head? = some (Symbol.char '/') then [] else parent)
        (Step.ofTarget target ++ rest) := by
  rw [follow, detour]

theorem KeptIn.follow (kept : before.KeptIn after) {links : Nat} {start : Location}
    {steps : List Step} (found : before.follow links start steps = .ok (.node location)) :
    after.follow links start steps = .ok (.node location) := by
  induction links generalizing start steps with
  | zero =>
      rcases follow_eq_node_cases found with walked | ⟨_, _, _, _, impossible, _⟩
      · apply follow_of_found
        rw [kept.walk_eq (by rw [walked]; trivial), walked]
      · cases impossible
  | succ links ih =>
      rcases follow_eq_node_cases found with
        walked | ⟨parent, target, rest, remaining, same, walked, further⟩
      · apply follow_of_found
        rw [kept.walk_eq (by rw [walked]; trivial), walked]
      · cases same
        have detour := kept.walk_eq (by rw [walked]; trivial)
        rw [walked] at detour
        rw [follow_of_detour detour]
        exact ih further

/-- Steps behind steps that lead to a node are taken from there, with the links that are left. -/
theorem follow_append {links : Nat} {start : Location} {steps : List Step}
    (found : tree.follow links start steps = .ok (.node location)) :
    ∃ remaining, ∀ more, tree.follow links start (steps ++ more) =
      tree.follow remaining location more := by
  have direct {links : Nat} {start : Location} {steps : List Step}
      (walked : tree.walk start steps = .found location) (more : List Step) :
      tree.follow links start (steps ++ more) = tree.follow links location more := by
    rw [follow.eq_def, follow.eq_def tree links location more]
    simp only [(walk_append more).1 location walked]
  induction links generalizing start steps with
  | zero =>
      rcases follow_eq_node_cases found with walked | ⟨_, _, _, _, impossible, _⟩
      · exact ⟨0, direct walked⟩
      · cases impossible
  | succ links ih =>
      rcases follow_eq_node_cases found with
        walked | ⟨parent, target, rest, remaining, same, walked, further⟩
      · exact ⟨links + 1, direct walked⟩
      · cases same
        rcases ih further with ⟨remaining, later⟩
        refine ⟨remaining, fun more => ?_⟩
        rw [follow_of_detour ((walk_append more).2 _ _ _ walked), ← List.append_assoc, later]

/-! ## Paths -/

theorem place_eq_ok_iff {path : Path} {place : Place} :
    tree.place path = .ok place ↔
      checkPath path = .ok () ∧ tree.follow linkLimit [] path.steps = .ok place := by
  simp only [Tree.place, bind_eq_ok_iff, mapError_eq_ok_iff]
  constructor
  · rintro ⟨_, valid, followed⟩
    exact ⟨valid, followed⟩
  · rintro ⟨valid, followed⟩
    exact ⟨(), valid, followed⟩

theorem locate_eq_ok_iff {path : Path} :
    tree.locate path = .ok location ↔
      checkPath path = .ok () ∧
        tree.follow linkLimit [] path.steps = .ok (.node location) := by
  simp only [locate, bind_eq_ok_iff, place_eq_ok_iff]
  constructor
  · rintro ⟨place, ⟨valid, followed⟩, led⟩
    cases place with
    | node other =>
        cases led
        exact ⟨valid, followed⟩
    | vacant parent name => cases led
  · rintro ⟨valid, followed⟩
    exact ⟨.node location, ⟨valid, followed⟩, rfl⟩

theorem nodeAt_eq_ok_iff {path : Path} {node : Node} :
    tree.nodeAt path = .ok node ↔
      ∃ location, tree.locate path = .ok location ∧ tree.node? location = some node := by
  simp only [nodeAt, bind_eq_ok_iff]
  constructor
  · rintro ⟨location, located, asked⟩
    split at asked
    · rename_i found
      cases asked
      exact ⟨location, located, found⟩
    · cases asked
  · rintro ⟨location, located, found⟩
    refine ⟨location, located, ?_⟩
    rw [found]
    rfl

theorem exists_nodeAt_of_test {property : Node → Bool} {path : Path}
    (tested : tree.test property path = .ok true) :
    ∃ node, tree.nodeAt path = .ok node ∧ property node = true := by
  unfold test at tested
  split at tested
  · rename_i node asked
    exact ⟨node, asked, Except.ok.inj tested⟩
  · cases tested
  · cases tested
  · cases tested

theorem test_of_nodeAt {path : Path} {node : Node} (asked : tree.nodeAt path = .ok node)
    (property : Node → Bool) : tree.test property path = .ok (property node) := by
  rw [test, asked]

theorem test_isDirectory_of_locate {path : Path} (located : tree.locate path = .ok location)
    (directory : tree.isDirectory location = true) :
    tree.test Node.isDirectory path = .ok true := by
  rcases isDirectory_iff.mp directory with ⟨node, there, isDirectory⟩
  rw [test_of_nodeAt (nodeAt_eq_ok_iff.mpr ⟨location, located, there⟩), isDirectory]

theorem read_eq_ok_iff {path : Path} {bytes : ByteArray} :
    tree.read path = .ok bytes ↔ ∃ mode time, tree.nodeAt path = .ok (.file bytes mode time) ∧
      mode.testBit Right.read.bit = true := by
  simp only [read, bind_eq_ok_iff]
  constructor
  · rintro ⟨node, asked, held⟩
    cases node with
    | file other mode time =>
        split at held
        · cases held
        · rename_i granted
          cases held
          exact ⟨mode, time, asked, by simpa [Node.grants, Node.mode] using granted⟩
    | directory mode time => split at held <;> cases held
    | link target => split at held <;> cases held
  · rintro ⟨mode, time, asked, granted⟩
    refine ⟨.file bytes mode time, asked, ?_⟩
    rw [Node.grants, Node.mode, granted]
    rfl

theorem entry_eq_ok_iff {path : Path} :
    tree.entry path = .ok (location, step) ↔
      checkPath path = .ok () ∧
        tree.follow linkLimit [] path.steps.dropLast = .ok (.node location) ∧
        tree.isDirectory location = true ∧ tree.grants location .enter = true ∧
        step = path.steps.getLast?.getD .stay := by
  simp only [entry, bind_eq_ok_iff, mapError_eq_ok_iff]
  constructor
  · rintro ⟨_, valid, place, followed, led⟩
    cases place with
    | vacant parent name => cases led
    | node parent =>
        simp only at led
        split at led
        · cases led
        split at led
        · cases led
        · rename_i directory granted
          cases led
          exact ⟨valid, followed, by simpa using directory, by simpa using granted, rfl⟩
  · rintro ⟨valid, followed, directory, granted, rfl⟩
    refine ⟨(), valid, .node location, followed, ?_⟩
    simp only [directory, granted, Bool.not_true, Bool.false_eq_true, if_false]
    rfl

/-- The location of the entry that a path is about, whether or not something stands there. -/
def entryLocation? (tree : Tree) (path : Path) : Option Location :=
  match tree.entry path with
  | .ok (parent, .enter text) => (Name.ofText? text).map (· :: parent)
  | _ => none

theorem entryLocation?_eq_some_iff {path : Path} :
    tree.entryLocation? path = some location ↔
      ∃ parent text name, tree.entry path = .ok (parent, .enter text) ∧
        Name.ofText? text = some name ∧ location = name :: parent := by
  unfold entryLocation?
  constructor
  · intro found
    split at found
    · rename_i parent text entered
      rcases Option.map_eq_some_iff.mp found with ⟨name, named, rfl⟩
      exact ⟨parent, text, name, entered, named, rfl⟩
    · cases found
  · rintro ⟨parent, text, name, entered, named, rfl⟩
    simp only [entered, named, Option.map_some]

theorem KeptIn.entry (kept : before.KeptIn after) {path : Path}
    (entered : before.entry path = .ok (location, step)) :
    after.entry path = .ok (location, step) := by
  rw [entry_eq_ok_iff] at entered ⊢
  rcases entered with ⟨valid, followed, directory, granted, last⟩
  exact ⟨valid, kept.follow followed, kept.isDirectory directory, kept.grants granted, last⟩

theorem KeptIn.locate (kept : before.KeptIn after) {path : Path}
    (located : before.locate path = .ok location) : after.locate path = .ok location := by
  rw [locate_eq_ok_iff] at located ⊢
  exact ⟨located.1, kept.follow located.2⟩

theorem KeptIn.entryLocation? (kept : before.KeptIn after) {path : Path}
    (found : before.entryLocation? path = some location) :
    after.entryLocation? path = some location := by
  rw [entryLocation?_eq_some_iff] at found ⊢
  rcases found with ⟨parent, text, name, entered, named, same⟩
  exact ⟨parent, text, name, kept.entry entered, named, same⟩

theorem isDirectory_of_entryLocation? {path : Path} {name : Name} {parent : Location}
    (found : tree.entryLocation? path = some (name :: parent)) :
    tree.isDirectory parent = true := by
  rcases entryLocation?_eq_some_iff.mp found with ⟨parent, text, name, entered, _, same⟩
  cases same
  exact (entry_eq_ok_iff.mp entered).2.2.1

theorem entryLocation?_ne_nil {path : Path} (found : tree.entryLocation? path = some location) :
    location ≠ [] := by
  rcases entryLocation?_eq_some_iff.mp found with ⟨parent, text, name, _, _, rfl⟩
  exact List.cons_ne_nil _ _

/-- What stands where a path's entry is, is what the path leads to, unless it is a link. -/
theorem locate_of_entryLocation? {path : Path} {node : Node}
    (found : tree.entryLocation? path = some location) (seen : tree.view location = some node)
    (noLink : ∀ target, node ≠ .link target) : tree.locate path = .ok location := by
  rcases entryLocation?_eq_some_iff.mp found with ⟨parent, text, name, entered, named, rfl⟩
  rcases entry_eq_ok_iff.mp entered with ⟨valid, followed, directory, granted, last⟩
  have split : path.steps = path.steps.dropLast ++ [.enter text] := by
    have nonempty : path.steps ≠ [] := by
      intro none
      rw [none] at last
      cases last
    rw [List.getLast?_eq_some_getLast nonempty, Option.getD_some] at last
    rw [last, List.dropLast_concat_getLast]
  rcases follow_append followed with ⟨remaining, further⟩
  rw [locate_eq_ok_iff]
  refine ⟨valid, ?_⟩
  rw [split, further]
  apply follow_of_found
  rw [(Advance.enter directory granted named seen noLink).walk_eq]
  exact walk_nil tree _

end Tree

end MessageTables
