import MessageTables.Proofs.FileSystem.Descents
import MessageTables.Proofs.Glob.Tables

/-!
# Which files are reached

In a tree without links, a search reaches a directory exactly if every directory
from the one that is searched down to it may be read. A search goes through the
sightings in path order and remembers one directory that may not be read; the
invariant is that the sightings still to come that are below such a directory are
those below the remembered one, since what comes between a directory and
something below it is below it as well.

So the tables that are found are known from the files with the suffix of tables
and from the rights to the directories above them. A later search finds the same
tables if these files and rights are the same.
-/

namespace MessageTables

namespace Path

theorem below_nil (path : Path) : path.below [] = path := by
  rcases path with ⟨anchor, parts⟩
  simp [below]

theorem steps_below (path : Path) (name : Name) (names : List Name) :
    (path.below (name :: names)).steps =
      path.parts.map (fun part => Step.ofText part.text) ++ Step.names (name :: names).reverse := by
  have entering : (names.reverse.map Name.part).map (fun part => Step.ofText part.text) =
      Step.names names.reverse := by
    rw [List.map_map]
    exact List.map_congr_left fun other _ => Step.ofText_name other
  rw [below_cons, steps_child, below, List.map_append, entering, Step.names_reverse_cons,
    ← Step.ofText_name name, List.append_assoc]
  rfl

end Path

namespace Tree

variable {tree : Tree} {links : LinkRule} {path directory : Path} {paths : List Path}
  {root : Location} {names : List Name}

/-! ## Ways down -/

/-- A right to all directories above a last one and to that one is a right to all of them. -/
theorem grants_of_proper {right : Right}
    (above : ∀ inner, inner <:+ names → inner ≠ names → tree.grants (inner ++ root) right = true)
    (own : tree.grants (names ++ root) right = true) (inner : List Name)
    (within : inner <:+ names) : tree.grants (inner ++ root) right = true := by
  by_cases last : inner = names
  · rw [last, own]
  · exact above inner within last

theorem walk_names_iff (linkFree : tree.LinkFree)
    (present : (tree.node? (names ++ root)).isSome = true) :
    tree.walk root (Step.names names.reverse) = .found (names ++ root) ↔
      ∀ inner, inner <:+ names → inner ≠ names → tree.grants (inner ++ root) .enter = true := by
  induction names with
  | nil =>
      refine ⟨fun _ inner within differs => ?_, fun _ => rfl⟩
      exact absurd (List.suffix_nil.mp within) differs
  | cons name names ih =>
      rw [List.cons_append] at present ⊢
      have ih := ih (isSome_of_isDirectory (isDirectory_of_node? present))
      rw [Step.names_reverse_cons]
      constructor
      · intro found inner within differs
        rcases walk_concat_eq_found linkFree found with ⟨parent, led, advance⟩
        have here := walk_names_eq_found linkFree led
        rw [List.reverse_reverse] at here
        subst here
        have own : tree.grants (names ++ root) .enter = true := by
          cases advance with
          | enter _ granted _ _ _ => exact granted
        exact grants_of_proper (ih.mp led) own inner
          ((List.suffix_cons_iff.mp within).resolve_left differs)
      · intro granted
        have led := ih.mpr fun inner within _ =>
          granted inner (within.trans (List.suffix_cons name names))
            (ne_cons_of_suffix name within)
        have last := granted names (List.suffix_cons name names) (List.cons_ne_self name names).symm
        rw [(walk_append _).1 (names ++ root) led,
          (advance_of_granted linkFree present last).walk_eq, walk_nil]

/-- Names below a directory are followed from its location. -/
theorem exists_follow_below (located : tree.locate directory = .ok root) :
    ∃ remaining, ∀ name names,
      tree.follow linkLimit [] (directory.below (name :: names)).steps =
        tree.follow remaining root (Step.names (name :: names).reverse) := by
  rcases follow_append (follow_parts_of_locate located) with ⟨remaining, further⟩
  refine ⟨remaining, fun name names => ?_⟩
  rw [Path.steps_below, further]

/-- From a directory on, names lead where they lead from its location. -/
theorem locate_below_iff (linkFree : tree.LinkFree) (located : tree.locate directory = .ok root)
    {location : Location} :
    tree.locate (directory.below names) = .ok location ↔
      checkPath (directory.below names) = .ok () ∧
        tree.walk root (Step.names names.reverse) = .found location := by
  cases names with
  | nil =>
      have valid := (locate_eq_ok_iff.mp located).1
      have here : tree.walk root (Step.names [].reverse) = .found root := rfl
      rw [Path.below_nil, located, here]
      simp [valid]
  | cons name names =>
      rw [locate_eq_ok_iff, linkFree.follow_eq_node_iff, Path.steps_below,
        (walk_append _).1 root (walk_parts_of_locate linkFree located)]

/-! ## Directories -/

theorem mem_gather {α : Type} {find : α → Except Failure (Option (List Path))}
    {elements : List α} {element : α} {found : List Path}
    (answers : ∀ element, find element ≠ .ok none)
    (gathered : gather find elements = .ok paths) (among : element ∈ elements)
    (answered : find element = .ok (some found)) (inside : path ∈ found) : path ∈ paths := by
  induction elements generalizing paths with
  | nil => cases among
  | cons first rest ih =>
      rw [gather] at gathered
      rcases bind_eq_ok_iff.mp gathered with ⟨outcome, firstAnswered, gathered⟩
      cases outcome with
      | none => exact absurd firstAnswered (answers first)
      | some here =>
          rcases bind_eq_ok_iff.mp gathered with ⟨others, further, gathered⟩
          cases gathered
          rcases List.mem_cons.mp among with rfl | later
          · rw [answered] at firstAnswered
            cases firstAnswered
            exact List.mem_append_left others inside
          · exact List.mem_append_right here (ih further later)

theorem select_wildcard {location : Location} (wildcard : Wildcard)
    (listed : tree.directoryAt directory = .ok location) :
    tree.select links [.wildcard wildcard] directory =
      gather (fun entry =>
          if wildcard.accepts entry.1.text.toList = true then
            some <$> tree.keepFile (directory.child entry.1.part)
          else .ok (some [])) (tree.sortedEntriesOf location) := by
  rw [select, listed]
  refine congrArg (gather · (tree.sortedEntriesOf location)) (funext fun entry => ?_)
  cases accepted : wildcard.accepts entry.1.text.toList with
  | false => simp [bind, Except.bind, pure, Except.pure]
  | true =>
      simp only [select, bind, Except.bind, pure, Except.pure, List.isEmpty_nil, if_true,
        Bool.and_self]
      cases tree.keepFile (directory.child entry.1.part) <;> rfl

/-- A file in a directory is found there if its name is accepted. -/
theorem mem_select {wildcard : Wildcard} {name : Name} {location : Location}
    (selected : tree.select links [.wildcard wildcard] directory = .ok paths)
    (listed : tree.directoryAt directory = .ok location)
    (present : (tree.node? (name :: location)).isSome = true)
    (accepted : wildcard.accepts name.text.toList = true)
    (tested : tree.test Node.isFile (directory.child name.part) = .ok true) :
    directory.child name.part ∈ paths := by
  rcases Option.isSome_iff_exists.mp present with ⟨node, there⟩
  have among : (name, node) ∈ tree.sortedEntriesOf location :=
    List.mem_mergeSort.mpr (mem_entriesOf.mpr there)
  have kept : tree.keepFile (directory.child name.part) = .ok [directory.child name.part] := by
    rw [keepFile, tested]
    rfl
  rw [select_wildcard wildcard listed] at selected
  refine mem_gather ?_ selected among ?_ (List.mem_singleton_self _)
  · intro entry
    split
    · cases tree.keepFile (directory.child entry.1.part) <;> nofun
    · nofun
  · simp only [accepted, if_true, kept]
    rfl

/-! ## Searches -/

/-- Whether a sighting is a directory that may not be read. -/
def Sighting.isBarred (sighting : Sighting) : Bool :=
  sighting.node.isDirectory && !sighting.node.grants .read

/-- What a search remembers behind a sighting: its location if it may not be read. -/
def Sighting.remembered (sighting : Sighting) : Option Location :=
  if sighting.isBarred then some sighting.location else none

variable {find : Path → Except Failure (List Path)} {givenUp : Option Location}
  {sighting : Sighting} {earlier rest : List Sighting}

theorem checkSighting_of_no_link (noLink : sighting.node.isLink = false) :
    tree.checkSighting links directory sighting = .ok (some sighting.node.isDirectory) := by
  rcases sighting with ⟨parts, location, node⟩
  cases node with
  | link target => cases noLink
  | file bytes mode time => cases links <;> rfl
  | directory mode time => cases links <;> rfl

/-- A search that passes links by asks of nothing. -/
theorem checkSighting_passes :
    tree.checkSighting .passes directory sighting = .ok (some sighting.node.isDirectory) := rfl

/-- The ways in which a search goes on at a sighting. -/
inductive Visit (tree : Tree) (links : LinkRule) (directory : Path)
    (find : Path → Except Failure (List Path)) (givenUp : Option Location) (sighting : Sighting)
    (rest : List Sighting) (result : Except Failure (List Path)) : Prop where
  | passed (covered : givenUp.any (·.isSuffixOf sighting.location) = true)
      (further : result = tree.explore links directory find givenUp rest)
  | refused {failure : Failure}
      (uncovered : givenUp.any (·.isSuffixOf sighting.location) = false)
      (checks : tree.checkSighting links directory sighting = .error failure)
      (ended : result = .error failure)
  /-- The directory that a link is in is given up, since the link may not be followed. -/
  | unanswered (uncovered : givenUp.any (·.isSuffixOf sighting.location) = false)
      (checks : tree.checkSighting links directory sighting = .ok none)
      (further : result = tree.explore links directory find (some sighting.location.tail) rest)
  | stopped {failure : Failure}
      (uncovered : givenUp.any (·.isSuffixOf sighting.location) = false)
      (isDirectory : sighting.node.isDirectory = true)
      (failed : find (sighting.path directory) = .error failure)
      (ended : result = .error failure)
  | entered {checked : Bool} {found : List Path}
      (uncovered : givenUp.any (·.isSuffixOf sighting.location) = false)
      (checks : tree.checkSighting links directory sighting = .ok (some checked))
      (answered : (if sighting.node.isDirectory then find (sighting.path directory) else .ok []) =
        .ok found)
      (further : result = tree.explore links directory find sighting.remembered rest >>=
        fun others => .ok (found ++ others))

theorem visit_explore (tree : Tree) (links : LinkRule) (directory : Path)
    (find : Path → Except Failure (List Path)) (givenUp : Option Location)
    (sighting : Sighting) (rest : List Sighting) :
    Visit tree links directory find givenUp sighting rest
      (tree.explore links directory find givenUp (sighting :: rest)) := by
  rw [explore]
  cases covered : givenUp.any (·.isSuffixOf sighting.location) with
  | true => exact .passed covered (if_pos rfl)
  | false =>
      rw [if_neg Bool.false_ne_true]
      cases checks : tree.checkSighting links directory sighting with
      | error failure => exact .refused covered checks rfl
      | ok answer =>
          cases answer with
          | none => exact .unanswered covered checks rfl
          | some checked =>
              have remembers : sighting.remembered = if sighting.node.isDirectory = true then
                  (if sighting.node.grants .read = true then none else some sighting.location)
                else none := by
                rw [Sighting.remembered, Sighting.isBarred]
                cases sighting.node.isDirectory <;> cases sighting.node.grants .read <;> rfl
              cases isDirectory : sighting.node.isDirectory with
              | false =>
                  rw [isDirectory] at remembers
                  have answered : (if sighting.node.isDirectory = true then
                      find (sighting.path directory) else .ok []) = .ok [] := by
                    rw [isDirectory]
                    rfl
                  refine .entered covered checks answered ?_
                  rw [remembers]
                  exact (bind_pure (tree.explore links directory find none rest)).symm
              | true =>
                  rw [isDirectory] at remembers
                  cases answered : find (sighting.path directory) with
                  | error failure => exact .stopped covered isDirectory answered rfl
                  | ok found =>
                      refine .entered covered checks ((if_pos isDirectory).trans answered) ?_
                      rw [remembers]
                      rfl

/-- A sighting is passed over, or what is found in it comes before what is found behind it. -/
theorem explore_cons (granted : givenUp.any (·.isSuffixOf sighting.location) = false →
      tree.checkSighting links directory sighting ≠ .ok none)
    (explored : tree.explore links directory find givenUp (sighting :: rest) = .ok paths) :
    (givenUp.any (·.isSuffixOf sighting.location) = true ∧
        tree.explore links directory find givenUp rest = .ok paths) ∨
      (givenUp.any (·.isSuffixOf sighting.location) = false ∧
        (∃ checked, tree.checkSighting links directory sighting = .ok (some checked)) ∧
        ∃ found others,
          (if sighting.node.isDirectory then find (sighting.path directory) else .ok []) =
              .ok found ∧
            tree.explore links directory find sighting.remembered rest = .ok others ∧
            paths = found ++ others) := by
  have visit := tree.visit_explore links directory find givenUp sighting rest
  rw [explored] at visit
  cases visit with
  | passed covered further => exact Or.inl ⟨covered, further.symm⟩
  | refused uncovered checks ended => cases ended
  | unanswered uncovered checks further => exact absurd checks (granted uncovered)
  | stopped uncovered isDirectory failed ended => cases ended
  | @entered checked found uncovered checks answered further =>
      rcases bind_eq_ok_iff.mp further.symm with ⟨others, behind, same⟩
      cases same
      exact Or.inr ⟨uncovered, ⟨checked, checks⟩, found, others, answered, behind, rfl⟩

/-- Whether a sighting is below one that may not be read. -/
def Hidden (tree : Tree) (root : Location) (sighting : Sighting) : Prop :=
  ∃ other ∈ tree.sightings root, other.isBarred = true ∧ other.location <:+ sighting.location ∧
    other.location ≠ sighting.location

/-- Whether a search is told of every link that it comes to what the link leads to. -/
def IsAnswered (tree : Tree) (links : LinkRule) (directory : Path) (root : Location) : Prop :=
  ∀ sighting ∈ tree.sightings root, ¬ tree.Hidden root sighting →
    tree.checkSighting links directory sighting ≠ .ok none

theorem LinkFree.checkSighting_eq (linkFree : tree.LinkFree)
    (listed : sighting ∈ tree.sightings root) :
    tree.checkSighting links directory sighting = .ok (some sighting.node.isDirectory) := by
  rcases mem_sightings.mp listed with ⟨names, node, rfl, there⟩
  exact checkSighting_of_no_link (linkFree _ node there)

section LinkFree

variable (linkFree : tree.LinkFree)

include linkFree

theorem LinkFree.explore_eq (links rule : LinkRule)
    (among : ∀ other ∈ rest, other ∈ tree.sightings root) :
    tree.explore rule directory find givenUp rest =
      tree.explore links directory find givenUp rest := by
  induction rest generalizing givenUp with
  | nil => rfl
  | cons first rest ih =>
      have here := among first List.mem_cons_self
      have further (next : Option Location) :
          tree.explore rule directory find next rest =
            tree.explore links directory find next rest :=
        ih fun other inside => among other (List.mem_cons_of_mem first inside)
      simp only [explore, linkFree.checkSighting_eq here, further]

theorem LinkFree.select_eq (links rule : LinkRule) (pattern : List PatternPart)
    (directory : Path) :
    tree.select rule pattern directory = tree.select links pattern directory := by
  induction pattern generalizing directory with
  | nil => rfl
  | cons part rest ih =>
      cases part with
      | nothing => rfl
      | named part => simp only [select, ih]
      | wildcard wildcard => simp only [select, ih]
      | anyDepth =>
          have explored (root : Location) :
              tree.explore rule directory (tree.select rule rest) none (tree.sightings root) =
                tree.explore links directory (tree.select links rest) none
                  (tree.sightings root) := by
            rw [funext ih]
            exact linkFree.explore_eq links rule fun _ => id
          simp only [select, explored]

/-- Where there are no links, it makes no difference how they are treated. -/
theorem LinkFree.findTables_eq (links rule : LinkRule) (suffix : String) :
    tree.findTables rule directory suffix = tree.findTables links directory suffix := by
  simp only [findTables, linkFree.select_eq links rule]

end LinkFree

theorem LinkFree.isAnswered (linkFree : tree.LinkFree) (links : LinkRule) (directory : Path)
    (root : Location) :
    tree.IsAnswered links directory root := by
  intro sighting listed _
  rw [linkFree.checkSighting_eq listed]
  nofun

/-- A search that passes over everything behind it that is below what may not be read. -/
structure Watch (tree : Tree) (root : Location) (earlier : List Sighting)
    (givenUp : Option Location) (rest : List Sighting) : Prop where
  all : tree.sightings root = earlier ++ rest
  shut : ∀ sighting ∈ rest,
    (∃ other ∈ earlier, other.isBarred = true ∧ other.location <:+ sighting.location) →
      givenUp.any (·.isSuffixOf sighting.location) = true

namespace Watch

theorem start (tree : Tree) (root : Location) : tree.Watch root [] none (tree.sightings root) :=
  ⟨rfl, by simp⟩

theorem mem (watch : tree.Watch root earlier givenUp rest) (listed : sighting ∈ earlier ++ rest) :
    sighting ∈ tree.sightings root := by
  rwa [watch.all]

theorem ordered (watch : tree.Watch root earlier givenUp rest) :
    (earlier ++ rest).Pairwise fun first second =>
      Path.partsLe first.parts second.parts = true := by
  rw [← watch.all]
  exact tree.pairwise_sightings root

/-- What has gone before and may not be read is above nothing that is not covered. -/
theorem not_hidden (watch : tree.Watch root earlier givenUp (sighting :: rest))
    (uncovered : givenUp.any (·.isSuffixOf sighting.location) = false) :
    ¬ tree.Hidden root sighting := by
  rintro ⟨other, listed, barred, above, differs⟩
  have here : sighting ∈ tree.sightings root := watch.mem (by simp)
  have order := watch.ordered
  rw [watch.all] at listed
  rcases List.mem_append.mp listed with before | behind
  · rw [watch.shut sighting List.mem_cons_self ⟨other, before, barred, above⟩] at uncovered
    cases uncovered
  · rcases List.mem_cons.mp behind with rfl | later
    · exact differs rfl
    · have there : other ∈ tree.sightings root :=
        watch.mem (List.mem_append_right _ (List.mem_cons_of_mem sighting later))
      have lower := (List.pairwise_cons.mp (List.pairwise_append.mp order).2.1).1 other later
      have upper := Path.partsLe_of_prefix ((prefix_iff_suffix there here).mpr above)
      have same := eq_of_parts_eq there here (Path.partsLe_antisymm upper lower)
      exact differs (congrArg Sighting.location same)

/-- Behind a sighting that is covered, the same may be remembered. -/
theorem pass (watch : tree.Watch root earlier givenUp (sighting :: rest))
    (covered : givenUp.any (·.isSuffixOf sighting.location) = true) :
    tree.Watch root (earlier ++ [sighting]) givenUp rest := by
  refine ⟨by rw [watch.all, List.append_assoc, List.singleton_append], ?_⟩
  rintro next later ⟨other, listed, barred, above⟩
  rcases List.mem_append.mp listed with before | last
  · exact watch.shut next (List.mem_cons_of_mem sighting later) ⟨other, before, barred, above⟩
  · rw [List.mem_singleton.mp last] at above
    rcases Option.any_eq_true _ _ |>.mp covered with ⟨given, rfl, within⟩
    exact List.isSuffixOf_iff_suffix.mpr ((List.isSuffixOf_iff_suffix.mp within).trans above)

/-- Behind a sighting that is not covered, only that sighting matters. -/
theorem enter {given : Option Location}
    (watch : tree.Watch root earlier givenUp (sighting :: rest))
    (uncovered : givenUp.any (·.isSuffixOf sighting.location) = false)
    (own : sighting.isBarred = true → given = some sighting.location) :
    tree.Watch root (earlier ++ [sighting]) given rest := by
  refine ⟨by rw [watch.all, List.append_assoc, List.singleton_append], ?_⟩
  rintro next later ⟨other, listed, barred, above⟩
  rcases List.mem_append.mp listed with before | last
  · have there : other ∈ tree.sightings root := watch.mem (List.mem_append_left _ before)
    have here : sighting ∈ tree.sightings root := watch.mem (by simp)
    have behind : next ∈ tree.sightings root := watch.mem (by simp [later])
    rcases List.pairwise_append.mp watch.ordered with ⟨_, ordered, lower⟩
    have between := Path.prefix_of_between (lower other before sighting List.mem_cons_self)
      ((List.pairwise_cons.mp ordered).1 next later) ((prefix_iff_suffix there behind).mpr above)
    rw [watch.shut sighting List.mem_cons_self
      ⟨other, before, barred, (prefix_iff_suffix there here).mp between⟩] at uncovered
    cases uncovered
  · rw [List.mem_singleton.mp last] at barred above
    rw [own barred, Option.any_some, List.isSuffixOf_iff_suffix]
    exact above

end Watch

/-- A moment of a search: what it has gone through, and that it remembers what matters of that. -/
structure Moment (tree : Tree) (root : Location) (earlier : List Sighting)
    (givenUp : Option Location) (rest : List Sighting) : Prop where
  all : tree.sightings root = earlier ++ rest
  covers : ∀ sighting ∈ rest, givenUp.any (·.isSuffixOf sighting.location) = true ↔
    ∃ other ∈ earlier, other.isBarred = true ∧ other.location <:+ sighting.location

namespace Moment

theorem start (tree : Tree) (root : Location) :
    tree.Moment root [] none (tree.sightings root) :=
  ⟨rfl, by simp⟩

theorem watch (moment : tree.Moment root earlier givenUp rest) :
    tree.Watch root earlier givenUp rest :=
  ⟨moment.all, fun sighting inside => (moment.covers sighting inside).mpr⟩

theorem mem (moment : tree.Moment root earlier givenUp rest) (listed : sighting ∈ earlier ++ rest) :
    sighting ∈ tree.sightings root :=
  moment.watch.mem listed

/-- A sighting that is covered is one that may not be seen. -/
theorem hidden_iff (moment : tree.Moment root earlier givenUp (sighting :: rest)) :
    givenUp.any (·.isSuffixOf sighting.location) = true ↔ tree.Hidden root sighting := by
  constructor
  · intro covered
    rcases (moment.covers sighting List.mem_cons_self).mp covered with
      ⟨other, before, barred, above⟩
    refine ⟨other, moment.mem (List.mem_append_left _ before), barred, above, ?_⟩
    have distinct := tree.nodup_sightings root
    rw [moment.all, List.map_append] at distinct
    exact (List.nodup_append.mp distinct).2.2 _ (List.mem_map_of_mem before) _ List.mem_cons_self
  · intro hides
    by_contra uncovered
    exact moment.watch.not_hidden (Bool.eq_false_of_not_eq_true uncovered) hides

/-- What is not covered is answered. -/
theorem granted (moment : tree.Moment root earlier givenUp (sighting :: rest))
    (answered : tree.IsAnswered links directory root)
    (uncovered : givenUp.any (·.isSuffixOf sighting.location) = false) :
    tree.checkSighting links directory sighting ≠ .ok none :=
  answered sighting (moment.mem (by simp)) (moment.watch.not_hidden uncovered)

/-- Behind a sighting that is covered, the same is remembered. -/
theorem pass (moment : tree.Moment root earlier givenUp (sighting :: rest))
    (covered : givenUp.any (·.isSuffixOf sighting.location) = true) :
    tree.Moment root (earlier ++ [sighting]) givenUp rest := by
  have watch := moment.watch.pass covered
  refine ⟨watch.all, fun next later => ⟨fun within => ?_, watch.shut next later⟩⟩
  rcases (moment.covers next (List.mem_cons_of_mem sighting later)).mp within with
    ⟨other, before, holds⟩
  exact ⟨other, List.mem_append_left _ before, holds⟩

/-- Behind a sighting that is not covered, nothing before it matters any more. -/
theorem enter (moment : tree.Moment root earlier givenUp (sighting :: rest))
    (uncovered : givenUp.any (·.isSuffixOf sighting.location) = false) :
    tree.Moment root (earlier ++ [sighting]) sighting.remembered rest := by
  have watch : tree.Watch root (earlier ++ [sighting]) sighting.remembered rest :=
    moment.watch.enter uncovered fun barred => if_pos barred
  refine ⟨watch.all, fun next later => ⟨fun within => ?_, watch.shut next later⟩⟩
  rw [Sighting.remembered] at within
  split at within
  · rename_i barred
    exact ⟨sighting, by simp, barred, List.isSuffixOf_iff_suffix.mp within⟩
  · cases within

/-- What is found is found in the directories that are not hidden. -/
theorem mem_explore_iff (moment : tree.Moment root earlier givenUp rest)
    (answers : tree.IsAnswered links directory root)
    (explored : tree.explore links directory find givenUp rest = .ok paths) :
    path ∈ paths ↔ ∃ sighting ∈ rest, sighting.node.isDirectory = true ∧
      ¬ tree.Hidden root sighting ∧
        ∃ found, find (sighting.path directory) = .ok found ∧ path ∈ found := by
  induction rest generalizing earlier givenUp paths with
  | nil =>
      cases explored
      simp
  | cons sighting rest ih =>
      have hidden := moment.hidden_iff
      rcases explore_cons (moment.granted answers) explored with
        ⟨covered, further⟩ | ⟨uncovered, _, found, others, answered, further, rfl⟩
      · rw [ih (moment.pass covered) further]
        simp only [List.mem_cons, exists_eq_or_imp, hidden.mp covered, not_true_eq_false,
          false_and, and_false, false_or]
      · have seen : ¬ tree.Hidden root sighting := fun hides => by
          rw [hidden.mpr hides] at uncovered
          cases uncovered
        rw [List.mem_append, ih (moment.enter uncovered) further]
        simp only [List.mem_cons, exists_eq_or_imp]
        apply or_congr_left
        cases isDirectory : sighting.node.isDirectory with
        | false =>
            rw [isDirectory] at answered
            cases answered
            simp
        | true =>
            rw [isDirectory, if_pos rfl] at answered
            simp [seen, answered]

/-- Whatever is not hidden is checked, and if it is a directory it is looked into. -/
theorem exists_found (moment : tree.Moment root earlier givenUp rest)
    (answers : tree.IsAnswered links directory root)
    (explored : tree.explore links directory find givenUp rest = .ok paths)
    (listed : sighting ∈ rest) (seen : ¬ tree.Hidden root sighting) :
    (∃ checked, tree.checkSighting links directory sighting = .ok (some checked)) ∧
      (sighting.node.isDirectory = true →
        ∃ found, find (sighting.path directory) = .ok found) := by
  induction rest generalizing earlier givenUp paths with
  | nil => cases listed
  | cons first rest ih =>
      rcases explore_cons (moment.granted answers) explored with
        ⟨covered, further⟩ | ⟨uncovered, checked, found, others, answered, further, rfl⟩
      · rcases List.mem_cons.mp listed with rfl | later
        · exact absurd (moment.hidden_iff.mp covered) seen
        · exact ih (moment.pass covered) further later
      · rcases List.mem_cons.mp listed with rfl | later
        · refine ⟨checked, fun isDirectory => ?_⟩
          rw [if_pos isDirectory] at answered
          exact ⟨found, answered⟩
        · exact ih (moment.enter uncovered) further later

end Moment

/-- What names lead to is hidden unless all directories above it may be read. -/
theorem not_hidden_iff {node : Node} (there : tree.node? (names ++ root) = some node) :
    ¬ tree.Hidden root ⟨names.reverse.map Name.part, names ++ root, node⟩ ↔
      ∀ inner, inner <:+ names → inner ≠ names → tree.grants (inner ++ root) .read = true := by
  constructor
  · intro seen inner within differs
    have above : inner ++ root <:+ names ++ root := List.suffix_append_self_iff.mpr within
    have apart : inner ++ root ≠ names ++ root := fun same =>
      differs (List.append_cancel_right same)
    have directory : tree.isDirectory (inner ++ root) = true :=
      isDirectory_of_below (by rw [there]; rfl) above apart
    rcases isDirectory_iff.mp directory with ⟨other, found, otherDirectory⟩
    rw [grants, found, Option.any_some]
    by_contra barred
    refine seen ⟨_, mem_sightings.mpr ⟨inner, other, rfl, found⟩, ?_, above, apart⟩
    rw [Sighting.isBarred, otherDirectory, Bool.eq_false_of_not_eq_true barred]
    rfl
  · rintro readable ⟨other, listed, barred, above, differs⟩
    rcases mem_sightings.mp listed with ⟨inner, held, rfl, found⟩
    have granted := readable inner (List.suffix_append_self_iff.mp above) (by
      rintro rfl
      exact differs rfl)
    rw [grants, found, Option.any_some] at granted
    rw [Sighting.isBarred, granted] at barred
    simp at barred

section Explored

variable (answers : tree.IsAnswered links directory root)
  (explored : tree.explore links directory find none (tree.sightings root) = .ok paths)

include answers explored

/-- What is found is found in directories above which all may be read. -/
theorem exists_names_of_mem_explore (inside : path ∈ paths) :
    ∃ names found, tree.isDirectory (names ++ root) = true ∧
      (∀ inner, inner <:+ names → inner ≠ names → tree.grants (inner ++ root) .read = true) ∧
        find (directory.below names) = .ok found ∧ path ∈ found := by
  rcases ((Moment.start tree root).mem_explore_iff answers explored).mp inside with
    ⟨sighting, listed, isDirectory, seen, found, answered, within⟩
  rcases mem_sightings.mp listed with ⟨names, node, rfl, there⟩
  exact ⟨names, found, isDirectory_iff.mpr ⟨node, there, isDirectory⟩,
    (not_hidden_iff there).mp seen, answered, within⟩

/-- A directory above which all may be read is looked into, and what is found there is found. -/
theorem exists_found_of_explore (isDirectory : tree.isDirectory (names ++ root) = true)
    (readable : ∀ inner, inner <:+ names → inner ≠ names →
      tree.grants (inner ++ root) .read = true) :
    ∃ found, find (directory.below names) = .ok found ∧ ∀ path ∈ found, path ∈ paths := by
  rcases isDirectory_iff.mp isDirectory with ⟨node, there, directoryNode⟩
  have listed := mem_sightings.mpr ⟨names, node, rfl, there⟩
  have seen := (not_hidden_iff there).mpr readable
  have moment := Moment.start tree root
  rcases (moment.exists_found answers explored listed seen).2 directoryNode with
    ⟨found, answered⟩
  refine ⟨found, answered, fun path inside => ?_⟩
  exact (moment.mem_explore_iff answers explored).mpr
    ⟨_, listed, directoryNode, seen, found, answered, inside⟩

end Explored

/-! ## Tables -/

theorem directoryAt_of_locate_error {error : AccessError}
    (refused : tree.locate path = .error error) : tree.directoryAt path = .error error := by
  rw [directoryAt, refused]
  rfl

theorem directoryAt_of_denied {location : Location} (located : tree.locate path = .ok location)
    (directory : tree.isDirectory location = true)
    (denied : tree.grants location .read = false) :
    tree.directoryAt path = .error (.code .denied) := by
  rw [directoryAt, located]
  simp only [bind, Except.bind, directory, denied]
  rfl

theorem directoryAt_eq_ok_iff {location : Location} :
    tree.directoryAt path = .ok location ↔
      tree.locate path = .ok location ∧ tree.isDirectory location = true ∧
        tree.grants location .read = true := by
  rw [directoryAt, bind_eq_ok_iff]
  constructor
  · rintro ⟨place, located, checked⟩
    split at checked
    · cases checked
    · split at checked
      · cases checked
      · cases checked
        simp_all
  · rintro ⟨located, directory, granted⟩
    refine ⟨location, located, ?_⟩
    rw [directory, granted]
    rfl

/-- A file that a search comes to: the way there is open and the file is there. -/
structure Reaches (tree : Tree) (directory : Path) (root : Location) (name : Name)
    (names : List Name) : Prop where
  above : checkPath (directory.below names) = .ok ()
  valid : checkPath (directory.below (name :: names)) = .ok ()
  readable : ∀ inner, inner <:+ names → tree.grants (inner ++ root) .read = true
  enterable : ∀ inner, inner <:+ names → tree.grants (inner ++ root) .enter = true
  file : ∃ node, tree.node? (name :: (names ++ root)) = some node ∧ node.isFile = true

theorem Reaches.present {name : Name} (reaches : tree.Reaches directory root name names) :
    (tree.node? (name :: (names ++ root))).isSome = true := by
  rcases reaches.file with ⟨node, there, _⟩
  rw [there]
  rfl

section Found

variable (linkFree : tree.LinkFree) (located : tree.locate directory = .ok root)

include linkFree located

theorem eq_of_locate_below {location : Location}
    (reached : tree.locate (directory.below names) = .ok location) : location = names ++ root := by
  have walked := ((locate_below_iff linkFree located).mp reached).2
  rw [walk_names_eq_found linkFree walked, List.reverse_reverse]

theorem Reaches.locate_above {name : Name} (reaches : tree.Reaches directory root name names) :
    tree.locate (directory.below names) = .ok (names ++ root) := by
  rw [locate_below_iff linkFree located,
    walk_names_iff linkFree (isSome_of_isDirectory (isDirectory_of_node? reaches.present))]
  exact ⟨reaches.above, fun inner within _ => reaches.enterable inner within⟩

theorem Reaches.test {name : Name} (reaches : tree.Reaches directory root name names) :
    tree.test Node.isFile (directory.below (name :: names)) = .ok true := by
  rcases reaches.file with ⟨node, there, isFile⟩
  have reached : tree.locate (directory.below (name :: names)) =
      .ok (name :: names ++ root) := by
    rw [locate_below_iff linkFree located, walk_names_iff linkFree reaches.present]
    exact ⟨reaches.valid, fun inner within differs =>
      reaches.enterable inner ((List.suffix_cons_iff.mp within).resolve_left differs)⟩
  rw [test_of_nodeAt (nodeAt_eq_ok_iff.mpr ⟨_, reached, there⟩), isFile]

/-- What is found in a directory whose parents may be read is reached. -/
theorem exists_reaches_of_mem_select {wildcard : Wildcard}
    (selects : tree.select links [.wildcard wildcard] (directory.below names) = .ok paths)
    (readable : ∀ inner, inner <:+ names → inner ≠ names →
      tree.grants (inner ++ root) .read = true)
    (inside : path ∈ paths) :
    ∃ name, path = directory.below (name :: names) ∧
      wildcard.accepts name.text.toList = true ∧ tree.Reaches directory root name names := by
  rcases exists_name_of_mem_select selects inside with
    ⟨⟨location, opened⟩, name, rfl, accepted, isFile⟩
  rcases directoryAt_eq_ok_iff.mp opened with ⟨reached, _, granted⟩
  have here := eq_of_locate_below linkFree located reached
  subst here
  rw [← Path.below_cons] at isFile ⊢
  rcases exists_nodeAt_of_test isFile with ⟨held, asked, file⟩
  rcases nodeAt_eq_ok_iff.mp asked with ⟨location, further, there⟩
  have last := eq_of_locate_below linkFree located further
  subst last
  rcases (locate_below_iff linkFree located).mp reached with ⟨above, _⟩
  rcases (locate_below_iff linkFree located).mp further with ⟨valid, walked⟩
  have entered := (walk_names_iff linkFree (by rw [there]; rfl)).mp walked
  refine ⟨name, rfl, accepted, above, valid, grants_of_proper readable granted, ?_, held, there,
    file⟩
  intro inner within
  exact entered inner (within.trans (List.suffix_cons name names)) (ne_cons_of_suffix name within)

/-- What is reached is found in its directory. -/
theorem Reaches.mem_select {wildcard : Wildcard} {name : Name}
    (reaches : tree.Reaches directory root name names)
    (accepted : wildcard.accepts name.text.toList = true)
    (selects : tree.select links [.wildcard wildcard] (directory.below names) = .ok paths) :
    directory.below (name :: names) ∈ paths := by
  have opened : tree.directoryAt (directory.below names) = .ok (names ++ root) :=
    directoryAt_eq_ok_iff.mpr ⟨reaches.locate_above linkFree located,
      isDirectory_of_node? reaches.present, reaches.readable names (List.suffix_refl _)⟩
  have isFile := reaches.test linkFree located
  rw [Path.below_cons] at isFile ⊢
  exact Tree.mem_select selects opened reaches.present accepted isFile

/-- The tables that are found are the files with the suffix of tables that are reached. -/
theorem mem_findTables_iff (isDirectory : tree.isDirectory root = true)
    (found : tree.findTables links directory ".csv" = .ok paths) :
    path ∈ paths ↔ ∃ name names, path = directory.below (name :: names) ∧
      (".csv" : Text).toList <:+ name.text.toList ∧ tree.Reaches directory root name names := by
  have tested := test_isDirectory_of_locate located isDirectory
  rcases findTables_csv_eq_ok_iff.mp found with ⟨denied, _⟩ | ⟨_, files, selected, rfl⟩
  · rw [tested] at denied
    cases denied
  · rw [select] at selected
    rcases bind_eq_ok_iff.mp selected with ⟨place, answered, explored⟩
    rw [answerIfGranted_eq_ok_some_iff.mpr located] at answered
    cases answered
    rw [Path.mem_sorted]
    constructor
    · intro listed
      rcases exists_names_of_mem_explore (linkFree.isAnswered links directory root) explored
        listed with
        ⟨names, some, _, readable, selects, inside⟩
      rcases exists_reaches_of_mem_select linkFree located selects readable inside with
        ⟨name, rfl, accepted, reaches⟩
      exact ⟨name, names, rfl, Wildcard.accepts_star_literals.mp accepted, reaches⟩
    · rintro ⟨name, names, rfl, ending, reaches⟩
      rcases exists_found_of_explore (linkFree.isAnswered links directory root) explored
        (isDirectory_of_node? reaches.present)
        (fun above within _ => reaches.readable above within) with ⟨some, selects, all⟩
      exact all _ (reaches.mem_select linkFree located
        (Wildcard.accepts_star_literals.mpr ending) selects)

end Found

/-! ## Later searches -/

variable {before after one two : Tree} {rule : LinkRule} {others : List Path}
  {replaced : Location → Prop}
  {name : Name}

/-- A file is reached in another tree if it is there and the rights on the way are the same. -/
theorem Reaches.carry (reaches : one.Reaches directory root name names)
    (rights : ∀ location, one.isDirectory location = true → two.isDirectory location = true →
      ∀ right, one.grants location right = two.grants location right)
    (file : ∃ node, two.node? (name :: (names ++ root)) = some node ∧ node.isFile = true) :
    two.Reaches directory root name names := by
  rcases reaches.file with ⟨node, there, _⟩
  rcases file with ⟨held, found, isFile⟩
  have same (inner : List Name) (within : inner <:+ names) (right : Right) :
      two.grants (inner ++ root) right = one.grants (inner ++ root) right := by
    have above : inner ++ root <:+ name :: (names ++ root) :=
      (List.suffix_append_self_iff.mpr within).trans (List.suffix_cons name _)
    have apart : inner ++ root ≠ name :: (names ++ root) := by
      intro same
      have lengths := congrArg List.length same
      have shorter := within.length_le
      simp only [List.length_append, List.length_cons] at lengths
      omega
    exact (rights _ (isDirectory_of_below (by rw [there]; rfl) above apart)
      (isDirectory_of_below (by rw [found]; rfl) above apart) right).symm
  refine ⟨reaches.above, reaches.valid, ?_, ?_, held, found, isFile⟩
  · intro inner within
    rw [same inner within, reaches.readable inner within]
  · intro inner within
    rw [same inner within, reaches.enterable inner within]

theorem anchor_of_mem_findTables (found : tree.findTables links directory ".csv" = .ok paths)
    (inside : path ∈ paths) : path.anchor = directory.anchor := by
  rcases exists_name_of_mem_findTables found inside with ⟨names, name, rfl, _⟩
  rfl

theorem exists_sorted_of_findTables (found : tree.findTables links directory ".csv" = .ok paths) :
    ∃ files, paths = Path.sorted files := by
  rcases findTables_csv_eq_ok_iff.mp found with ⟨_, rfl⟩ | ⟨_, files, _, rfl⟩
  · exact ⟨[], by simp [Path.sorted, Path.withoutRepeats]⟩
  · exact ⟨files, rfl⟩

/--
A later search finds the same tables if the files with the suffix of tables are the
same. It may treat links in its own way, since there are none.
-/
theorem Carries.findTables_eq (carries : before.Carries after replaced)
    (linkFree : before.LinkFree) (isDirectory : before.test Node.isDirectory directory = .ok true)
    (files : ∀ name above node, (".csv" : Text).toList <:+ name.text.toList → node.isFile = true →
      (before.node? (name :: above) = some node ↔ after.node? (name :: above) = some node))
    (found : before.findTables links directory ".csv" = .ok paths)
    (again : after.findTables rule directory ".csv" = .ok others) : others = paths := by
  rcases exists_nodeAt_of_test isDirectory with ⟨top, asked, directoryNode⟩
  rcases nodeAt_eq_ok_iff.mp asked with ⟨root, located, there⟩
  have rooted : before.isDirectory root = true := isDirectory_iff.mpr ⟨top, there, directoryNode⟩
  have relocated := carries.locate_directory linkFree located rooted
  have same (path : Path) : path ∈ others ↔ path ∈ paths := by
    rw [mem_findTables_iff linkFree located rooted found,
      mem_findTables_iff carries.linkFree relocated (carries.isDirectory rooted) again]
    constructor
    · rintro ⟨name, names, rfl, ending, reaches⟩
      refine ⟨name, names, rfl, ending, reaches.carry ?_ ?_⟩
      · intro location _ directory right
        exact (carries.grants_eq directory).symm
      · rcases reaches.file with ⟨node, held, isFile⟩
        exact ⟨node, (files name _ node ending isFile).mpr held, isFile⟩
    · rintro ⟨name, names, rfl, ending, reaches⟩
      refine ⟨name, names, rfl, ending, reaches.carry ?_ ?_⟩
      · intro location directory _ right
        exact carries.grants_eq directory
      · rcases reaches.file with ⟨node, held, isFile⟩
        exact ⟨node, (files name _ node ending isFile).mp held, isFile⟩
  rcases exists_sorted_of_findTables found with ⟨listed, rfl⟩
  rcases exists_sorted_of_findTables again with ⟨relisted, rfl⟩
  have anchored : ∀ path ∈ relisted, path.anchor = directory.anchor :=
    fun path inside => anchor_of_mem_findTables again (Path.mem_sorted.mpr inside)
  apply Path.sorted_eq_of_mem_iff anchored
  intro path
  exact Path.mem_sorted.symm.trans ((same path).trans Path.mem_sorted)

end Tree

end MessageTables
