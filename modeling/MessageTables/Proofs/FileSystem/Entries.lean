import Mathlib
import MessageTables.FileSystem.Tree

/-!
# What a directory holds

A location below a directory is reached by going on from there, so what a
directory holds is known from the view of the tree. No location is listed twice.
-/

namespace MessageTables

namespace Forest

variable {forest : Forest} {above : Location}

theorem exists_suffix_of_mem_entriesBelow {entry : Location × Node}
    (listed : entry ∈ forest.entriesBelow above) :
    ∃ name ∈ forest.names, name :: above <:+ entry.1 := by
  induction forest generalizing above with
  | empty => cases listed
  | entry name node inner rest innerInduction restInduction =>
      rw [entriesBelow, List.mem_cons, List.mem_append] at listed
      rcases listed with rfl | inside | beside
      · exact ⟨name, List.mem_cons_self, List.suffix_refl _⟩
      · rcases innerInduction inside with ⟨deeper, _, within⟩
        exact ⟨name, List.mem_cons_self, (List.suffix_cons deeper _).trans within⟩
      · rcases restInduction beside with ⟨other, among, within⟩
        exact ⟨other, List.mem_cons_of_mem name among, within⟩

theorem eq_of_cons_suffix {first second : Name} {location : Location}
    (left : first :: above <:+ location) (right : second :: above <:+ location) :
    first = second := by
  have lengths : (first :: above).length = (second :: above).length := rfl
  have same := (List.suffix_of_suffix_length_le left right lengths.le).eq_of_length lengths
  exact (List.cons.inj same).1

/-- In a sound forest no location is listed twice. -/
theorem nodup_entriesBelow (sound : forest.IsSound) :
    ((forest.entriesBelow above).map Prod.fst).Nodup := by
  induction forest generalizing above with
  | empty => exact List.nodup_nil
  | entry name node inner rest innerInduction restInduction =>
      rcases sound with ⟨_, distinct, innerSound, restSound⟩
      have apart {location : Location} (within : name :: above <:+ location) :
          location ∉ (rest.entriesBelow above).map Prod.fst := by
        intro listed
        rcases List.mem_map.mp listed with ⟨entry, inside, rfl⟩
        rcases exists_suffix_of_mem_entriesBelow inside with ⟨other, among, further⟩
        rw [eq_of_cons_suffix within further] at distinct
        exact distinct among
      have deeper {location : Location}
          (listed : location ∈ (inner.entriesBelow (name :: above)).map Prod.fst) :
          ∃ other, other :: name :: above <:+ location := by
        rcases List.mem_map.mp listed with ⟨entry, inside, rfl⟩
        rcases exists_suffix_of_mem_entriesBelow inside with ⟨other, _, within⟩
        exact ⟨other, within⟩
      simp only [entriesBelow, List.map_cons, List.map_append, List.nodup_cons, List.mem_append,
        not_or]
      refine ⟨⟨?_, apart (List.suffix_refl _)⟩, ?_⟩
      · intro listed
        rcases deeper listed with ⟨other, within⟩
        have shorter := within.length_le
        simp at shorter
      · apply (innerInduction innerSound).append (restInduction restSound)
        intro location inside beside
        rcases deeper inside with ⟨other, within⟩
        exact apart ((List.suffix_cons other _).trans within) beside

end Forest

namespace Tree

variable {tree : Tree} {root location : Location} {node : Node} {inner : Forest}

/-- What is below a location is found in what the location holds. -/
theorem at?_append (found : tree.at? root = some (node, inner)) {names : List Name}
    (nonempty : names ≠ []) : tree.at? (names ++ root) = inner.at? names.reverse := by
  induction names with
  | nil => exact absurd rfl nonempty
  | cons name below ih =>
      rw [List.cons_append, at?_cons]
      by_cases last : below = []
      · subst last
        rw [List.nil_append, found]
        rfl
      · rw [ih last, List.reverse_cons,
          Forest.at?_append_singleton _ (by simpa using last)]

theorem node?_append (found : tree.at? root = some (node, inner)) {names : List Name}
    (nonempty : names ≠ []) : tree.node? (names ++ root) = inner.node? names.reverse :=
  congrArg (Option.map Prod.fst) (at?_append found nonempty)

theorem mem_map_entries : location ∈ tree.entries.map Prod.fst ↔
    (tree.node? location).isSome = true := by
  rw [List.mem_map, Option.isSome_iff_exists]
  constructor
  · rintro ⟨⟨_, node⟩, listed, rfl⟩
    exact ⟨node, mem_entries.mp listed⟩
  · rintro ⟨node, there⟩
    exact ⟨(location, node), mem_entries.mpr there, rfl⟩

end Tree

end MessageTables
