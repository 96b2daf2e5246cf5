import MessageTables.FileSystem.Node

/-!
# Forests

A forest is what a directory holds: entries one after the other, each with a
name, a node and what the node holds itself. So a directory is reached by going
down once, without a look at anything beside the way.

`Forest.at?` is the view of a forest: what names lead to, the outermost first.
The two operations that change a forest are stated in it. In a sound forest
names are not repeated side by side and only directories hold something; both
operations keep that.
-/

namespace MessageTables

/-- Entries of a directory, each with what it holds itself. -/
inductive Forest where
  | empty
  | entry (name : Name) (node : Node) (inner rest : Forest)

namespace Forest

/-- The node that names lead to, and what it holds. -/
def at? : Forest → List Name → Option (Node × Forest)
  | empty, _ => none
  | entry _ _ _ _, [] => none
  | entry other node inner rest, name :: names =>
      if name = other then
        if names.isEmpty then some (node, inner) else inner.at? names
      else rest.at? (name :: names)

/-- The node that names lead to. -/
def node? (forest : Forest) (names : List Name) : Option Node :=
  (forest.at? names).map Prod.fst

/-- The entries of a forest without what they hold. -/
def children : Forest → List (Name × Node)
  | empty => []
  | entry name node _ rest => (name, node) :: rest.children

/-- The names of the entries of a forest. -/
def names (forest : Forest) : List Name :=
  forest.children.map Prod.fst

/-- Everything in a forest at a location, with the locations. -/
def entriesBelow (above : Location) : Forest → List (Location × Node)
  | empty => []
  | entry name node inner rest =>
      (name :: above, node) ::
        (inner.entriesBelow (name :: above) ++ rest.entriesBelow above)

/-- A forest in which names lead to a node. What was there before keeps what it holds. -/
def set (new : Node) : Forest → List Name → Forest
  | forest, [] => forest
  | empty, name :: names => if names.isEmpty then entry name new empty empty else empty
  | entry other node inner rest, name :: names =>
      if name = other then
        if names.isEmpty then entry other new inner rest
        else entry other node (inner.set new names) rest
      else entry other node inner (rest.set new (name :: names))

/-- A forest without what names lead to. -/
def remove : Forest → List Name → Forest
  | forest, [] => forest
  | empty, _ => empty
  | entry other node inner rest, name :: names =>
      if name = other then
        if names.isEmpty then rest else entry other node (inner.remove names) rest
      else entry other node inner (rest.remove (name :: names))

/-- Whether names are not repeated side by side and only directories hold something. -/
def IsSound : Forest → Prop
  | empty => True
  | entry name node inner rest =>
      (node.isDirectory = true ∨ inner = empty) ∧ name ∉ rest.names ∧
        inner.IsSound ∧ rest.IsSound

/-! ## The view -/

theorem at?_empty (names : List Name) : empty.at? names = none := by
  cases names <;> rfl

theorem at?_nil (forest : Forest) : forest.at? [] = none := by
  cases forest <;> rfl

theorem node?_empty (names : List Name) : empty.node? names = none := by
  rw [node?, at?_empty, Option.map_none]

theorem node?_nil (forest : Forest) : forest.node? [] = none := by
  rw [node?, at?_nil, Option.map_none]

theorem node?_entry (other : Name) (node : Node) (inner rest : Forest) (name : Name)
    (names : List Name) :
    (entry other node inner rest).node? (name :: names) =
      if name = other then if names = [] then some node else inner.node? names
      else rest.node? (name :: names) := by
  simp only [node?, at?, List.isEmpty_iff]
  split
  · split <;> rfl
  · rfl

/-- To go down one name more is to look into what is held. -/
theorem at?_append_singleton (forest : Forest) {names : List Name} (nonempty : names ≠ [])
    (name : Name) :
    forest.at? (names ++ [name]) = (forest.at? names).bind fun found => found.2.at? [name] := by
  induction forest generalizing names with
  | empty => simp [at?_empty]
  | entry other node inner rest innerInduction restInduction =>
      obtain ⟨first, below, rfl⟩ := List.exists_cons_of_ne_nil nonempty
      simp only [List.cons_append, at?, List.isEmpty_iff, List.append_eq_nil_iff, reduceCtorEq,
        and_false, if_false]
      split
      · by_cases last : below = []
        · simp [last]
        · simp only [if_neg last]
          exact innerInduction last
      · exact restInduction nonempty

/-- What names lead to in a sound forest is sound, and holds something only if it is a directory. -/
theorem sound_of_at? {forest : Forest} (sound : forest.IsSound) {names : List Name}
    {node : Node} {inner : Forest} (found : forest.at? names = some (node, inner)) :
    (node.isDirectory = true ∨ inner = empty) ∧ inner.IsSound := by
  induction forest generalizing names with
  | empty => simp [at?_empty] at found
  | entry other otherNode otherInner rest innerInduction restInduction =>
      cases names with
      | nil => simp [at?_nil] at found
      | cons name below =>
          simp only [at?] at found
          split at found
          · split at found
            · simp only [Option.some.injEq, Prod.mk.injEq] at found
              obtain ⟨rfl, rfl⟩ := found
              exact ⟨sound.1, sound.2.2.1⟩
            · exact innerInduction sound.2.2.1 found
          · exact restInduction sound.2.2.2 found

theorem eq_empty_of_children {forest : Forest} (none : forest.children.isEmpty = true) :
    forest = empty := by
  cases forest with
  | empty => rfl
  | entry name node inner rest => simp [children] at none

theorem mem_names_of_node? {forest : Forest} {name : Name} {names : List Name}
    (found : (forest.node? (name :: names)).isSome) : name ∈ forest.names := by
  induction forest with
  | empty => simp [node?_empty] at found
  | entry other node inner rest _ restInduction =>
      rw [node?_entry] at found
      split at found
      · rename_i same
        simp [Forest.names, children, same]
      · exact List.mem_cons_of_mem _ (restInduction found)

theorem node?_eq_none_of_not_mem {forest : Forest} {name : Name} (absent : name ∉ forest.names)
    (names : List Name) : forest.node? (name :: names) = none := by
  cases found : forest.node? (name :: names) with
  | none => rfl
  | some _ => exact absurd (mem_names_of_node? (by rw [found]; rfl)) absent

theorem mem_children {forest : Forest} (sound : forest.IsSound) {name : Name} {node : Node} :
    (name, node) ∈ forest.children ↔ forest.node? [name] = some node := by
  induction forest with
  | empty => simp [children, node?_empty]
  | entry other otherNode inner rest _ restInduction =>
      rw [node?_entry, children, List.mem_cons, restInduction sound.2.2.2]
      by_cases same : name = other
      · subst same
        simp [node?_eq_none_of_not_mem sound.2.1, eq_comm]
      · simp [same]

theorem mem_entriesBelow {forest : Forest} (sound : forest.IsSound) {above location : Location}
    {node : Node} :
    (location, node) ∈ forest.entriesBelow above ↔
      ∃ names, location = names.reverse ++ above ∧ forest.node? names = some node := by
  induction forest generalizing above with
  | empty => simp [entriesBelow, node?_empty]
  | entry other otherNode inner rest innerInduction restInduction =>
      rw [entriesBelow, List.mem_cons, List.mem_append, innerInduction sound.2.2.1,
        restInduction sound.2.2.2]
      constructor
      · rintro (same | ⟨names, rfl, found⟩ | ⟨names, rfl, found⟩)
        · obtain ⟨rfl, rfl⟩ := Prod.mk.injEq _ _ _ _ ▸ same
          exact ⟨[other], by simp, by simp [node?_entry]⟩
        · refine ⟨other :: names, by simp, ?_⟩
          have nonempty : names ≠ [] := by
            rintro rfl
            simp [node?_nil] at found
          simp [node?_entry, nonempty, found]
        · refine ⟨names, rfl, ?_⟩
          cases names with
          | nil => simp [node?_nil] at found
          | cons name names =>
              have differ : name ≠ other := by
                rintro rfl
                exact sound.2.1 (mem_names_of_node? (by rw [found]; rfl))
              simp [node?_entry, differ, found]
      · rintro ⟨names, rfl, found⟩
        cases names with
        | nil => simp [node?_nil] at found
        | cons name names =>
            rw [node?_entry] at found
            split at found
            · rename_i same
              subst same
              split at found
              · rename_i last
                subst last
                left
                simpa using found.symm
              · right; left
                exact ⟨names, by simp, found⟩
            · right; right
              exact ⟨name :: names, rfl, found⟩

/-! ## Changes -/

section Above

variable {node : Node} {inner rest : Forest} {other name : Name} {below : List Name}

/-- What is above names in an entry is, without the entry, above them in what it holds. -/
theorem above_inner (property : Option Node → Prop) (deep : below ≠ [])
    (above : (name :: below).dropLast = [] ∨
      property ((entry name node inner rest).node? (name :: below).dropLast)) :
    below.dropLast = [] ∨ property (inner.node? below.dropLast) := by
  by_cases short : below.dropLast = []
  · exact Or.inl short
  · right
    rw [List.dropLast_cons_of_ne_nil deep] at above
    simpa [node?_entry, short] using above

/-- What is above names that do not start with an entry is above them in the rest. -/
theorem above_rest (property : Option Node → Prop) (differ : name ≠ other)
    (above : (name :: below).dropLast = [] ∨
      property ((entry other node inner rest).node? (name :: below).dropLast)) :
    (name :: below).dropLast = [] ∨ property (rest.node? (name :: below).dropLast) := by
  by_cases last : below = []
  · simp [last]
  · rw [List.dropLast_cons_of_ne_nil last] at above ⊢
    simpa [node?_entry, differ] using above

/-- An entry that directories below lead through is a directory itself. -/
theorem isDirectory_of_above (holder : node.isDirectory = true ∨ inner = empty)
    (deep : below ≠ [])
    (above : (name :: below).dropLast = [] ∨ ((entry name node inner rest).node?
      (name :: below).dropLast).any Node.isDirectory = true) :
    node.isDirectory = true := by
  rcases holder with directory | rfl
  · exact directory
  · rw [List.dropLast_cons_of_ne_nil deep] at above
    by_cases short : below.dropLast = []
    · simpa [node?_entry, short] using above
    · simp [node?_entry, short, node?_empty] at above

end Above

theorem node?_set (new : Node) {forest : Forest} {names : List Name} (nonempty : names ≠ [])
    (room : names.dropLast = [] ∨ (forest.node? names.dropLast).isSome) (key : List Name) :
    (forest.set new names).node? key = if key = names then some new else forest.node? key := by
  induction forest generalizing names key with
  | empty =>
      obtain ⟨name, below, rfl⟩ := List.exists_cons_of_ne_nil nonempty
      have last : below = [] := by
        rcases room with none | found
        · cases below <;> simp_all
        · simp [node?_empty] at found
      subst last
      cases key with
      | nil => simp [node?_nil]
      | cons first rest =>
          simp only [set, List.isEmpty_nil, if_true, node?_entry, node?_empty, List.cons.injEq]
          split <;> simp_all
  | entry other node inner rest innerInduction restInduction =>
      obtain ⟨name, below, rfl⟩ := List.exists_cons_of_ne_nil nonempty
      cases key with
      | nil => simp [node?_nil]
      | cons first keys =>
          simp only [set, List.isEmpty_iff]
          by_cases same : name = other
          · subst same
            by_cases last : below = []
            · subst last
              simp only [if_true, node?_entry, List.cons.injEq]
              by_cases here : first = name <;> by_cases ends : keys = [] <;> simp [here, ends]
            · have inside : below.dropLast = [] ∨ (inner.node? below.dropLast).isSome :=
                above_inner (·.isSome) last room
              simp only [if_true, if_neg last, node?_entry, List.cons.injEq,
                innerInduction last inside]
              by_cases here : first = name
              · by_cases ends : keys = []
                · simp [here, ends, Ne.symm last]
                · simp [here, ends]
              · simp [here]
          · have beside : (name :: below).dropLast = [] ∨
                (rest.node? (name :: below).dropLast).isSome := above_rest (·.isSome) same room
            simp only [if_neg same, node?_entry, restInduction nonempty beside, List.cons.injEq]
            by_cases here : first = other
            · simp [here, Ne.symm same]
            · simp [here]

theorem mem_names_set {new : Node} {forest : Forest} {names : List Name} {name : Name}
    (found : name ∈ (forest.set new names).names) :
    name ∈ forest.names ∨ names.head? = some name := by
  induction forest generalizing names with
  | empty =>
      cases names with
      | nil => exact Or.inl found
      | cons first below =>
          simp only [set] at found
          split at found
          · simp_all [Forest.names, children]
          · exact Or.inl found
  | entry other node inner rest _ restInduction =>
      cases names with
      | nil => exact Or.inl found
      | cons first below =>
          simp only [set] at found
          split at found
          · split at found <;> exact Or.inl found
          · rcases List.mem_cons.mp found with here | there
            · exact Or.inl (List.mem_cons.mpr (Or.inl here))
            · rcases restInduction there with old | added
              · exact Or.inl (List.mem_cons_of_mem _ old)
              · exact Or.inr added

theorem isSound_set {new : Node} {forest : Forest} {names : List Name} (sound : forest.IsSound)
    (inside : names.dropLast = [] ∨ (forest.node? names.dropLast).any Node.isDirectory = true)
    (free : new.isDirectory = true ∨
      ∀ node inner, forest.at? names = some (node, inner) → inner = empty) :
    (forest.set new names).IsSound := by
  induction forest generalizing names with
  | empty =>
      cases names with
      | nil => exact sound
      | cons name below =>
          simp only [set]
          split
          · exact ⟨Or.inr rfl, by simp [Forest.names, children], trivial, trivial⟩
          · trivial
  | entry other node inner rest innerInduction restInduction =>
      cases names with
      | nil => exact sound
      | cons name below =>
          obtain ⟨holder, distinct, innerSound, restSound⟩ := sound
          simp only [set, List.isEmpty_iff]
          by_cases same : name = other
          · subst same
            by_cases last : below = []
            · subst last
              simp only [if_true]
              refine ⟨?_, distinct, innerSound, restSound⟩
              rcases free with directory | childless
              · exact Or.inl directory
              · exact Or.inr (childless node inner (by simp [at?]))
            · simp only [if_true, if_neg last]
              have directory := isDirectory_of_above holder last inside
              have deeper : below.dropLast = [] ∨
                  (inner.node? below.dropLast).any Node.isDirectory = true :=
                above_inner (·.any Node.isDirectory) last inside
              have free' := free.imp_right fun childless found hollow there =>
                childless found hollow (by simpa [at?, last] using there)
              exact ⟨Or.inl directory, distinct, innerInduction innerSound deeper free', restSound⟩
          · simp only [if_neg same]
            have beside : (name :: below).dropLast = [] ∨
                (rest.node? (name :: below).dropLast).any Node.isDirectory = true :=
              above_rest (·.any Node.isDirectory) same inside
            have free' := free.imp_right fun childless found hollow there =>
              childless found hollow (by simpa [at?, same] using there)
            refine ⟨holder, ?_, innerSound, restInduction restSound beside free'⟩
            intro repeated
            rcases mem_names_set repeated with old | added
            · exact distinct old
            · exact same (by simpa using added)

theorem mem_names_remove {forest : Forest} {names : List Name} {name : Name}
    (found : name ∈ (forest.remove names).names) : name ∈ forest.names := by
  induction forest generalizing names with
  | empty => cases names <;> exact found
  | entry other node inner rest _ restInduction =>
      cases names with
      | nil => exact found
      | cons first below =>
          simp only [remove] at found
          split at found
          · split at found
            · exact List.mem_cons_of_mem _ found
            · exact found
          · rcases List.mem_cons.mp found with here | there
            · exact List.mem_cons.mpr (Or.inl here)
            · exact List.mem_cons_of_mem _ (restInduction there)

theorem remove_empty (names : List Name) : empty.remove names = empty := by
  cases names <;> rfl

theorem isSound_remove {forest : Forest} (sound : forest.IsSound) (names : List Name) :
    (forest.remove names).IsSound := by
  induction forest generalizing names with
  | empty => rw [remove_empty]; trivial
  | entry other node inner rest innerInduction restInduction =>
      cases names with
      | nil => exact sound
      | cons name below =>
          obtain ⟨holder, distinct, innerSound, restSound⟩ := sound
          simp only [remove]
          split
          · split
            · exact restSound
            · refine ⟨?_, distinct, innerInduction innerSound below, restSound⟩
              rcases holder with directory | hollow
              · exact Or.inl directory
              · exact Or.inr (by rw [hollow, remove_empty])
          · exact ⟨holder, fun repeated => distinct (mem_names_remove repeated), innerSound,
              restInduction restSound (name :: below)⟩

theorem node?_remove {forest : Forest} (sound : forest.IsSound) {names : List Name}
    (nonempty : names ≠ []) (key : List Name) :
    (forest.remove names).node? key = if names <+: key then none else forest.node? key := by
  induction forest generalizing names key with
  | empty => simp [remove_empty, node?_empty]
  | entry other node inner rest innerInduction restInduction =>
      obtain ⟨name, below, rfl⟩ := List.exists_cons_of_ne_nil nonempty
      obtain ⟨_, distinct, innerSound, restSound⟩ := sound
      cases key with
      | nil => simp [node?_nil]
      | cons first keys =>
          simp only [remove, List.isEmpty_iff, List.cons_prefix_cons]
          by_cases same : name = other
          · subst same
            by_cases last : below = []
            · subst last
              simp only [if_true, List.nil_prefix, and_true, node?_entry]
              by_cases here : first = name
              · subst here
                simp [node?_eq_none_of_not_mem distinct]
              · simp [here, Ne.symm here]
            · simp only [if_true, if_neg last, node?_entry, innerInduction innerSound last]
              by_cases here : first = name
              · by_cases ends : keys = []
                · subst ends
                  simp [here, last]
                · simp [here, ends]
              · simp [here, Ne.symm here]
          · simp only [if_neg same, node?_entry, restInduction restSound nonempty,
              List.cons_prefix_cons]
            by_cases here : first = other
            · simp [here, same]
            · simp [here]

end Forest

end MessageTables
