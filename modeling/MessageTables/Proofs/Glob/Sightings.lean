import MessageTables.Proofs.FileSystem.Entries
import MessageTables.Proofs.FileSystem.View
import MessageTables.Proofs.Path.Order
import MessageTables.Proofs.Path.Plain

/-!
# What is sighted below a directory

The sightings from a directory are the nodes at and below it, each with the names
that lead there, in path order.
-/

namespace MessageTables

theorem Name.part_injective : Function.Injective Name.part :=
  fun _ _ same => Name.ext (congrArg Part.text same)

namespace Path

/-- The path of what some names lead to from the directory at a path, the innermost name first. -/
def below (path : Path) (names : List Name) : Path :=
  { path with parts := path.parts ++ names.reverse.map Name.part }

theorem below_cons (path : Path) (name : Name) (names : List Name) :
    path.below (name :: names) = (path.below names).child name.part := by
  simp [below, child]

end Path

namespace Tree

variable {tree : Tree} {root : Location}

theorem mem_sightings {sighting : Sighting} :
    sighting ∈ tree.sightings root ↔
      ∃ names node, sighting = ⟨names.reverse.map Name.part, names ++ root, node⟩ ∧
        tree.node? (names ++ root) = some node := by
  rw [sightings]
  cases found : tree.at? root with
  | none =>
      constructor
      · nofun
      · rintro ⟨names, node, _, there⟩
        have absent : tree.node? root = none := by rw [node?, found, Option.map_none]
        have nothing : tree.view (names ++ root) = none := by
          by_cases last : names ++ root = root
          · rw [last, view_eq_none_iff, absent]
          · exact view_eq_none_of_suffix (isDirectory_eq_false_of_node?_eq_none absent)
              (List.suffix_append names root) last
        rw [view_eq_none_iff, there] at nothing
        cases nothing
  | some held =>
      rcases held with ⟨top, inner⟩
      have sound := (sound_of_at? found).2
      have here : tree.node? root = some top := by rw [node?, found, Option.map_some]
      simp only [List.mem_cons, List.mem_mergeSort, List.mem_map]
      constructor
      · rintro (rfl | ⟨⟨location, node⟩, listed, rfl⟩)
        · exact ⟨[], top, rfl, here⟩
        · rcases (Forest.mem_entriesBelow sound).mp listed with ⟨names, rfl, there⟩
          rw [List.append_nil]
          have nonempty : names.reverse ≠ [] := by
            intro none
            rw [List.reverse_eq_nil_iff.mp none, Forest.node?_nil] at there
            cases there
          refine ⟨names.reverse, node, rfl, ?_⟩
          rw [node?_append found nonempty, List.reverse_reverse, there]
      · rintro ⟨names, node, rfl, there⟩
        by_cases nonempty : names = []
        · subst nonempty
          rw [List.nil_append, here] at there
          cases there
          exact Or.inl rfl
        · right
          rw [node?_append found nonempty] at there
          refine ⟨(names, node), ?_, rfl⟩
          refine (Forest.mem_entriesBelow sound).mpr ⟨names.reverse, ?_, there⟩
          simp

/-- Of two sightings, one is above the other as its parts begin those of the other. -/
theorem prefix_iff_suffix {first second : Sighting} (left : first ∈ tree.sightings root)
    (right : second ∈ tree.sightings root) :
    first.parts <+: second.parts ↔ first.location <:+ second.location := by
  rcases mem_sightings.mp left with ⟨names, node, rfl, _⟩
  rcases mem_sightings.mp right with ⟨others, other, rfl, _⟩
  simp only
  rw [List.prefix_map_iff_of_injective Name.part_injective, List.reverse_prefix,
    List.suffix_append_self_iff]

theorem nodup_sightings (tree : Tree) (root : Location) :
    ((tree.sightings root).map Sighting.location).Nodup := by
  rw [sightings]
  cases found : tree.at? root with
  | none => exact List.nodup_nil
  | some held =>
      rcases held with ⟨top, inner⟩
      have distinct : (((inner.entriesBelow []).map Prod.fst).map (· ++ root)).Nodup :=
        (Forest.nodup_entriesBelow (sound_of_at? found).2).map (List.append_left_injective root)
      refine List.nodup_cons.mpr
        ⟨?_, ((List.mergeSort_perm _ _).map Sighting.location).nodup_iff.mpr ?_⟩
      · intro listed
        rcases List.mem_map.mp listed with ⟨sighting, sorted, same⟩
        rcases List.mem_map.mp (List.mem_mergeSort.mp sorted) with ⟨entry, inside, rfl⟩
        rcases Forest.exists_suffix_of_mem_entriesBelow inside with ⟨name, _, within⟩
        have empty : entry.1 = [] := List.append_left_eq_self.mp same
        rw [empty] at within
        exact absurd (List.suffix_nil.mp within) (List.cons_ne_nil _ _)
      · rw [List.map_map] at distinct ⊢
        exact distinct

/-- A sighting is known from its parts. -/
theorem eq_of_parts_eq {first second : Sighting} (left : first ∈ tree.sightings root)
    (right : second ∈ tree.sightings root) (same : first.parts = second.parts) :
    first = second := by
  rcases mem_sightings.mp left with ⟨names, node, rfl, there⟩
  rcases mem_sightings.mp right with ⟨others, other, rfl, found⟩
  have names_eq : names = others :=
    List.reverse_injective (List.map_injective_iff.mpr Name.part_injective same)
  subst names_eq
  rw [there] at found
  cases found
  rfl

theorem pairwise_sightings (tree : Tree) (root : Location) :
    (tree.sightings root).Pairwise fun first second =>
      Path.partsLe first.parts second.parts = true := by
  rw [sightings]
  cases tree.at? root with
  | none => exact List.Pairwise.nil
  | some held =>
      apply List.pairwise_cons.mpr
      refine ⟨fun _ _ => rfl, List.pairwise_mergeSort ?_ ?_ _⟩
      · intro first second third lower upper
        exact Path.partsLe_trans lower upper
      · intro first second
        exact Bool.or_eq_true _ _ |>.mpr (Path.partsLe_total first.parts second.parts)

end Tree

end MessageTables
