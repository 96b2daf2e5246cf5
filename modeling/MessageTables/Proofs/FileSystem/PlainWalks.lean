import MessageTables.Proofs.FileSystem.Resolution
import MessageTables.Proofs.Path.Plain

/-!
# Walks along names

In a tree without links a path of names leads to the location it names, or
nowhere. If permissions do not stand in the way, it leads there exactly if
something is there, and where it does not, what is missing is a name, unless one
of the names before it is no directory.
-/

namespace MessageTables

namespace Node

/-- Whether a node is a link. -/
def isLink : Node → Bool
  | link _ => true
  | _ => false

/-- Whether a file may be read, or a directory entered and changed. -/
def isOpen : Node → Bool
  | file _ mode _ => mode.testBit Right.read.bit
  | directory mode _ => mode.testBit Right.enter.bit && mode.testBit Right.write.bit
  | link _ => true

theorem isLink_lasting (node : Node) : node.lasting.isLink = node.isLink := by
  cases node <;> rfl

theorem isLink_eq_false_of_isDirectory {node : Node} (directory : node.isDirectory = true) :
    node.isLink = false := by
  cases node with
  | directory mode time => rfl
  | file bytes mode time => rfl
  | link target => cases directory

theorem isOpen_lasting (node : Node) : node.lasting.isOpen = node.isOpen := by
  cases node <;> rfl

end Node

namespace Tree

/-- Whether a tree has no links. -/
def LinkFree (tree : Tree) : Prop :=
  ∀ location node, tree.node? location = some node → node.isLink = false

/-- Whether permissions allow to read all files, and to enter and change all directories. -/
def Permits (tree : Tree) : Prop :=
  ∀ location node, tree.node? location = some node → node.isOpen = true

theorem forall_entries_iff (tree : Tree) (property : Node → Prop) :
    (∀ entry ∈ tree.entries, property entry.2) ↔
      ∀ location node, tree.node? location = some node → property node := by
  constructor
  · intro all location node found
    exact all _ (mem_entries.mpr found)
  · rintro all ⟨location, node⟩ inside
    exact all location node (mem_entries.mp inside)

instance (tree : Tree) : Decidable tree.LinkFree :=
  decidable_of_iff (∀ entry ∈ tree.entries, entry.2.isLink = false)
    (tree.forall_entries_iff fun node => node.isLink = false)

instance (tree : Tree) : Decidable tree.Permits :=
  decidable_of_iff (∀ entry ∈ tree.entries, entry.2.isOpen = true)
    (tree.forall_entries_iff fun node => node.isOpen = true)

variable {tree : Tree} {start location : Location} {names : List Name}

theorem forall_view_iff (tree : Tree) (property : Node → Bool)
    (stable : ∀ node, property node.lasting = property node) (value : Bool) :
    (∀ location node, tree.node? location = some node → property node = value) ↔
      ∀ location node, tree.view location = some node → property node = value := by
  constructor
  · intro all location node seen
    rcases Option.map_eq_some_iff.mp seen with ⟨held, found, rfl⟩
    rw [stable]
    exact all location held found
  · intro all location node found
    rw [← stable]
    exact all location _ (view_of_node? found)

theorem linkFree_iff_view {tree : Tree} :
    tree.LinkFree ↔ ∀ location node, tree.view location = some node → node.isLink = false :=
  tree.forall_view_iff Node.isLink Node.isLink_lasting false

theorem permits_iff_view {tree : Tree} :
    tree.Permits ↔ ∀ location node, tree.view location = some node → node.isOpen = true :=
  tree.forall_view_iff Node.isOpen Node.isOpen_lasting true

theorem LinkFree.of_update {before after : Tree} {location : Location} {node : Node}
    (linkFree : before.LinkFree) (plain : node.isLink = false)
    (view : ∀ key, after.view key = if key = location then some node else before.view key) :
    after.LinkFree := by
  rw [linkFree_iff_view] at linkFree ⊢
  intro key held seen
  rw [view] at seen
  split at seen
  · cases seen
    exact plain
  · exact linkFree key held seen

theorem LinkFree.node?_ne (linkFree : tree.LinkFree) (location : Location) (target : Text) :
    tree.node? location ≠ some (.link target) := by
  intro found
  cases linkFree location _ found

theorem Permits.granted (permits : tree.Permits) (directory : tree.isDirectory location = true) :
    tree.grants location .enter = true ∧ tree.grants location .write = true := by
  rcases isDirectory_iff.mp directory with ⟨node, found, isDirectory⟩
  have isOpen := permits location node found
  rw [grants, grants, found]
  cases node with
  | directory mode time => exact Bool.and_eq_true_iff.mp isOpen
  | file bytes mode time => cases isDirectory
  | link target => cases isDirectory

theorem Permits.enter (permits : tree.Permits) (location : Location)
    (directory : tree.isDirectory location = true) : tree.grants location .enter = true :=
  (permits.granted directory).1

theorem Permits.write (permits : tree.Permits) (location : Location)
    (directory : tree.isDirectory location = true) : tree.grants location .write = true :=
  (permits.granted directory).2

theorem LinkFree.not_linkAhead (linkFree : tree.LinkFree) {step : Step} {target : Text} :
    ¬ tree.LinkAhead location step target := by
  intro ahead
  cases ahead with
  | enter directory granted named seen =>
      exact linkFree.node?_ne _ _ (view_eq_some_link_iff.mp seen)

theorem LinkFree.walk_ne_detour (linkFree : tree.LinkFree) (start : Location) (steps : List Step)
    (parent : Location) (target : Text) (rest : List Step) :
    tree.walk start steps ≠ .detour parent target rest := by
  induction steps generalizing start with
  | nil => nofun
  | cons step steps ih =>
      rcases step_cases tree start step with
        ⟨next, advance⟩ | ⟨target, ahead⟩ | ⟨name, missing⟩ | ⟨code, failed⟩
      · rw [advance.walk_eq]
        exact ih next
      · exact absurd ahead linkFree.not_linkAhead
      · rw [missing.walk_eq]
        split <;> nofun
      · rw [failed]
        nofun

theorem LinkFree.follow_eq_node_iff (linkFree : tree.LinkFree) {links : Nat}
    {steps : List Step} :
    tree.follow links start steps = .ok (.node location) ↔
      tree.walk start steps = .found location := by
  refine ⟨fun found => ?_, follow_of_found⟩
  rcases follow_eq_node_cases found with walked | ⟨parent, target, rest, _, _, walked, _⟩
  · exact walked
  · exact absurd walked (linkFree.walk_ne_detour _ _ _ _ _)

theorem LinkFree.advance_of_walk (linkFree : tree.LinkFree) {step : Step} {rest : List Step}
    (found : tree.walk start (step :: rest) = .found location) :
    ∃ next, tree.Advance start step next ∧ tree.walk next rest = .found location := by
  have arrives : Arrival.IsFound (tree.walk start (step :: rest)) := by
    rw [found]
    trivial
  rcases advance_or_linkAhead_of_isFound arrives with ⟨next, advance⟩ | ⟨target, ahead⟩
  · rw [advance.walk_eq] at found
    exact ⟨next, advance, found⟩
  · exact absurd ahead linkFree.not_linkAhead

/-- What has something below it is a directory. -/
theorem isDirectory_of_below {key : Location} (present : (tree.node? key).isSome = true)
    (below : location <:+ key) (differs : location ≠ key) : tree.isDirectory location = true := by
  cases directory : tree.isDirectory location with
  | true => rfl
  | false =>
      have absent := view_eq_none_iff.mp (view_eq_none_of_suffix directory below differs.symm)
      rw [absent] at present
      cases present

theorem isSome_of_isDirectory (directory : tree.isDirectory location = true) :
    (tree.node? location).isSome = true := by
  rcases isDirectory_iff.mp directory with ⟨node, found, _⟩
  rw [found]
  rfl

/-! ## Where names lead -/

theorem walk_names_eq_found (linkFree : tree.LinkFree)
    (found : tree.walk start (Step.names names) = .found location) :
    location = names.reverse ++ start := by
  induction names generalizing start with
  | nil =>
      cases found
      rfl
  | cons name rest ih =>
      rw [Step.names_cons] at found
      rcases linkFree.advance_of_walk found with ⟨next, advance, further⟩
      rw [ih further]
      cases advance with
      | enter directory granted named seen noLink =>
          rw [Name.ofText?_text] at named
          cases named
          simp

theorem advance_of_plain {name : Name} {node : Node}
    (there : tree.node? (name :: location) = some node) (plain : node.isLink = false)
    (granted : tree.grants location .enter = true) :
    tree.Advance location (.enter name.text) (name :: location) := by
  have seen : tree.view (name :: location) = some node.lasting := view_of_node? there
  refine .enter (isDirectory_of_node? (by rw [there]; rfl)) granted name.ofText?_text seen ?_
  intro target same
  rw [← Node.isLink_lasting, same] at plain
  cases plain

theorem advance_of_granted (linkFree : tree.LinkFree) {name : Name}
    (present : (tree.node? (name :: location)).isSome = true)
    (granted : tree.grants location .enter = true) :
    tree.Advance location (.enter name.text) (name :: location) := by
  rcases Option.isSome_iff_exists.mp present with ⟨node, there⟩
  exact advance_of_plain there (linkFree _ node there) granted

theorem advance_of_present (linkFree : tree.LinkFree) (permits : tree.Permits) {name : Name}
    (present : (tree.node? (name :: location)).isSome = true) :
    tree.Advance location (.enter name.text) (name :: location) :=
  advance_of_granted linkFree present (permits.enter location (isDirectory_of_node? present))

theorem walk_names_of_present (linkFree : tree.LinkFree) (permits : tree.Permits)
    (present : (tree.node? location).isSome = true) :
    tree.walk [] (Step.names location.reverse) = .found location := by
  induction location with
  | nil => rfl
  | cons name above ih =>
      have led := ih (isSome_of_isDirectory (isDirectory_of_node? present))
      rw [Step.names_reverse_cons, (walk_append _).1 above led,
        (advance_of_present linkFree permits present).walk_eq, walk_nil]

/-- Steps behind steps that miss a name miss it too, and do not come to know a place for it. -/
theorem walk_append_of_missing {steps : List Step}
    (missing : (∃ parent name, tree.walk start steps = .vacant parent name) ∨
      tree.walk start steps = .failed .noEntry) (step : Step) (rest : List Step) :
    tree.walk start (steps ++ step :: rest) = .failed .noEntry := by
  induction steps generalizing start with
  | nil => rcases missing with ⟨_, _, walked⟩ | walked <;> cases walked
  | cons first steps ih =>
      rw [List.cons_append]
      rcases step_cases tree start first with
        ⟨next, advance⟩ | ⟨target, ahead⟩ | ⟨name, absent⟩ | ⟨code, failed⟩
      · rw [advance.walk_eq] at missing ⊢
        exact ih missing
      · rw [ahead.walk_eq] at missing
        rcases missing with ⟨_, _, walked⟩ | walked <;> cases walked
      · rw [absent.walk_eq, if_neg]
        simp
      · rw [failed] at missing ⊢
        rcases missing with ⟨_, _, walked⟩ | walked <;> cases walked
        rfl

theorem walk_append_of_failed {steps : List Step} {code : ErrorCode}
    (failed : tree.walk start steps = .failed code) (more : List Step) :
    tree.walk start (steps ++ more) = .failed code := by
  induction steps generalizing start with
  | nil => cases failed
  | cons first steps ih =>
      rw [List.cons_append]
      rcases step_cases tree start first with
        ⟨next, advance⟩ | ⟨target, ahead⟩ | ⟨name, absent⟩ | ⟨other, stuck⟩
      · rw [advance.walk_eq] at failed ⊢
        exact ih failed
      · rw [ahead.walk_eq] at failed
        cases failed
      · rw [absent.walk_eq] at failed ⊢
        cases steps with
        | nil => cases failed
        | cons second steps => exact failed
      · rw [stuck] at failed ⊢
        exact failed

theorem walk_names_of_absent (linkFree : tree.LinkFree) (permits : tree.Permits)
    (chain : ∀ above node, above <:+ location → tree.node? above = some node →
      node.isDirectory = true) (absent : tree.node? location = none) :
    (∃ parent name, tree.walk [] (Step.names location.reverse) = .vacant parent name) ∨
      tree.walk [] (Step.names location.reverse) = .failed .noEntry := by
  induction location with
  | nil =>
      rw [node?_nil] at absent
      cases absent
  | cons name above ih =>
      rw [Step.names_reverse_cons]
      have higher := fun key node (within : key <:+ above) =>
        chain key node (within.trans (List.suffix_cons name above))
      cases there : tree.node? above with
      | none => exact Or.inr (walk_append_of_missing (ih higher there) _ _)
      | some node =>
          have directory : tree.isDirectory above = true :=
            isDirectory_iff.mpr ⟨node, there, higher above node (List.suffix_refl _) there⟩
          have led := walk_names_of_present linkFree permits (isSome_of_isDirectory directory)
          have missing : tree.Missing above (.enter name.text) name :=
            .enter directory (permits.enter above directory) name.ofText?_text
              (view_eq_none_iff.mpr absent)
          left
          refine ⟨above, name, ?_⟩
          rw [(walk_append _).1 above led, missing.walk_eq]
          rfl

/-! ## Where the parts of a path lead -/

theorem follow_parts_of_locate {path : Path} (located : tree.locate path = .ok location) :
    tree.follow linkLimit [] (path.parts.map fun part => Step.ofText part.text) =
      .ok (.node location) := by
  have followed := (locate_eq_ok_iff.mp located).2
  rw [Path.steps] at followed
  cases shape : path.parts with
  | nil =>
      have top := tree.isDirectory_nil
      rw [shape] at followed
      cases granted : tree.grants [] .enter with
      | true =>
          rw [follow_of_found ((Advance.stay top granted).walk_eq [])] at followed
          cases followed
          exact follow_of_found rfl
      | false =>
          have failed : tree.walk [] [.stay] = .failed .denied := by
            rw [walk_cons, top, granted]
            rfl
          rw [follow_of_failed failed] at followed
          cases followed
  | cons first rest =>
      rw [shape] at followed
      exact followed

theorem walk_parts_of_locate {path : Path} (linkFree : tree.LinkFree)
    (located : tree.locate path = .ok location) :
    tree.walk [] (path.parts.map fun part => Step.ofText part.text) = .found location :=
  linkFree.follow_eq_node_iff.mp (follow_parts_of_locate located)

/-! ## Where plain paths lead -/

variable {anchor : Anchor} {above : Location} {part : Part}

theorem eq_of_locate_plain (linkFree : tree.LinkFree)
    (located : tree.locate (.plain anchor above) = .ok location) : location = above := by
  have walked := linkFree.follow_eq_node_iff.mp (locate_eq_ok_iff.mp located).2
  cases above with
  | nil =>
      rw [Path.steps_plain_nil] at walked
      rcases linkFree.advance_of_walk walked with ⟨next, advance, ended⟩
      cases advance
      cases ended
      rfl
  | cons name rest =>
      rw [Path.steps_plain] at walked
      have same := walk_names_eq_found linkFree walked
      rwa [List.reverse_reverse, List.append_nil] at same

theorem locate_plain_of_present (linkFree : tree.LinkFree) (permits : tree.Permits)
    (valid : checkPath (.plain anchor location) = .ok ())
    (present : (tree.node? location).isSome = true) :
    tree.locate (.plain anchor location) = .ok location := by
  rw [locate_eq_ok_iff]
  refine ⟨valid, follow_of_found ?_⟩
  cases location with
  | nil =>
      have directory := tree.isDirectory_nil
      rw [Path.steps_plain_nil, (Advance.stay directory (permits.enter [] directory)).walk_eq,
        walk_nil]
  | cons name above =>
      rw [Path.steps_plain]
      exact walk_names_of_present linkFree permits present

theorem nodeAt_plain_of_node? (linkFree : tree.LinkFree) (permits : tree.Permits)
    (valid : checkPath (.plain anchor location) = .ok ())
    (found : tree.node? location = some node) :
    tree.nodeAt (.plain anchor location) = .ok node := by
  have present : (tree.node? location).isSome = true := by
    rw [found]
    rfl
  have located := locate_plain_of_present linkFree permits valid present
  exact nodeAt_eq_ok_iff.mpr ⟨location, located, found⟩

theorem exists_name_of_entryLocation? (linkFree : tree.LinkFree)
    (found : tree.entryLocation? ((Path.plain anchor above).child part) = some location) :
    ∃ name : Name, name.text = part.text ∧ location = name :: above := by
  rcases entryLocation?_eq_some_iff.mp found with ⟨parent, text, name, entered, named, rfl⟩
  rcases entry_eq_ok_iff.mp entered with ⟨_, followed, _, _, last⟩
  rw [Path.steps_child_plain, List.dropLast_concat, linkFree.follow_eq_node_iff] at followed
  rw [Path.steps_child_plain, List.getLast?_concat, Option.getD_some] at last
  have same := walk_names_eq_found linkFree followed
  rw [List.reverse_reverse, List.append_nil] at same
  refine ⟨name, ?_, by rw [same]⟩
  rw [Name.eq_of_ofText? named]
  exact Step.eq_of_ofText last.symm

theorem eq_of_entryLocation?_plain (linkFree : tree.LinkFree) {name : Name}
    (found : tree.entryLocation? (.plain anchor (name :: above)) = some location) :
    location = name :: above := by
  rw [Path.plain_cons] at found
  rcases exists_name_of_entryLocation? linkFree found with ⟨other, same, rfl⟩
  rw [Name.ext same]

theorem entry_child_of_isDirectory (linkFree : tree.LinkFree) (permits : tree.Permits)
    (valid : checkPath ((Path.plain anchor above).child part) = .ok ())
    (directory : tree.isDirectory above = true) :
    tree.entry ((Path.plain anchor above).child part) = .ok (above, Step.ofText part.text) := by
  rw [entry_eq_ok_iff, Path.steps_child_plain, List.dropLast_concat, List.getLast?_concat]
  exact ⟨valid, follow_of_found
    (walk_names_of_present linkFree permits (isSome_of_isDirectory directory)),
    directory, permits.enter above directory, rfl⟩

theorem entry_child_of_absent (linkFree : tree.LinkFree) (permits : tree.Permits)
    (valid : checkPath ((Path.plain anchor above).child part) = .ok ())
    (chain : ∀ key node, key <:+ above → tree.node? key = some node → node.isDirectory = true)
    (absent : tree.node? above = none) :
    tree.entry ((Path.plain anchor above).child part) = .error (.code .noEntry) := by
  rw [entry, valid, Path.steps_child_plain, List.dropLast_concat]
  rcases walk_names_of_absent linkFree permits chain absent with ⟨parent, name, walked⟩ | walked
  · rw [follow.eq_def]
    simp only [walked]
    rfl
  · rw [follow.eq_def]
    simp only [walked]
    rfl

end Tree

end MessageTables
