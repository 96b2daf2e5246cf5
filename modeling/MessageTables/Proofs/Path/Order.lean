import Mathlib
import MessageTables.Glob.Search

/-!
# Path order

Path order is a linear order on paths that start from the same place, in which a
directory comes right before what is below it: whatever comes between the two is
below the directory as well. Paths in this order, each once, are known from which
paths they are.
-/

namespace MessageTables

namespace Part

variable {left middle right : Part}

theorem le_iff : left.le right = true ↔ left.text ≤ right.text := by
  rw [le, Bool.not_eq_true', decide_eq_false_iff_not, Text.not_lt]

theorem le_trans (first : left.le middle = true) (second : middle.le right = true) :
    left.le right = true :=
  le_iff.mpr (Text.le_trans (le_iff.mp first) (le_iff.mp second))

theorem le_total (left right : Part) : left.le right = true ∨ right.le left = true := by
  rw [le_iff, le_iff]
  exact Text.le_total left.text right.text

theorem le_antisymm (first : left.le right = true) (second : right.le left = true) :
    left = right :=
  ext (Text.le_antisymm (le_iff.mp first) (le_iff.mp second))

end Part

namespace Path

variable {left middle right : List Part}

theorem partsLe_cons_iff {first second : Part} :
    partsLe (first :: left) (second :: right) = true ↔
      first = second ∧ partsLe left right = true ∨
        first ≠ second ∧ first.le second = true := by
  rw [partsLe]
  split
  · rename_i same
    simp [same]
  · rename_i differs
    simp [differs]

theorem partsLe_of_prefix (within : left <+: right) : partsLe left right = true := by
  induction left generalizing right with
  | nil => rfl
  | cons first left ih =>
      rcases within with ⟨more, rfl⟩
      exact partsLe_cons_iff.mpr (Or.inl ⟨rfl, ih ⟨more, rfl⟩⟩)

theorem partsLe_trans (first : partsLe left middle = true) (second : partsLe middle right = true) :
    partsLe left right = true := by
  induction left generalizing middle right with
  | nil => rfl
  | cons part left ih =>
      cases middle with
      | nil => cases first
      | cons between middle =>
          cases right with
          | nil => cases second
          | cons last right =>
              rw [partsLe_cons_iff] at first second ⊢
              rcases first with ⟨rfl, lower⟩ | ⟨differs, lower⟩
              · rcases second with ⟨rfl, upper⟩ | further
                · exact Or.inl ⟨rfl, ih lower upper⟩
                · exact Or.inr further
              · rcases second with ⟨rfl, _⟩ | ⟨apart, upper⟩
                · exact Or.inr ⟨differs, lower⟩
                · refine Or.inr ⟨?_, Part.le_trans lower upper⟩
                  rintro rfl
                  exact differs (Part.le_antisymm lower upper)

theorem partsLe_total (left right : List Part) :
    partsLe left right = true ∨ partsLe right left = true := by
  induction left generalizing right with
  | nil => exact Or.inl rfl
  | cons first left ih =>
      cases right with
      | nil => exact Or.inr rfl
      | cons second right =>
          rw [partsLe_cons_iff, partsLe_cons_iff]
          by_cases same : first = second
          · rcases ih right with lower | upper
            · exact Or.inl (Or.inl ⟨same, lower⟩)
            · exact Or.inr (Or.inl ⟨same.symm, upper⟩)
          · rcases Part.le_total first second with lower | upper
            · exact Or.inl (Or.inr ⟨same, lower⟩)
            · exact Or.inr (Or.inr ⟨Ne.symm same, upper⟩)

theorem partsLe_antisymm (first : partsLe left right = true)
    (second : partsLe right left = true) : left = right := by
  induction left generalizing right with
  | nil =>
      cases right with
      | nil => rfl
      | cons _ _ => cases second
  | cons part left ih =>
      cases right with
      | nil => cases first
      | cons other right =>
          rw [partsLe_cons_iff] at first second
          rcases first with ⟨rfl, lower⟩ | ⟨differs, lower⟩
          · rcases second with ⟨_, upper⟩ | ⟨apart, _⟩
            · rw [ih lower upper]
            · exact absurd rfl apart
          · rcases second with ⟨same, _⟩ | ⟨_, upper⟩
            · exact absurd same.symm differs
            · exact absurd (Part.le_antisymm lower upper) differs

/-- What comes between a directory and something below it is below it as well. -/
theorem prefix_of_between (first : partsLe left middle = true)
    (second : partsLe middle right = true) (within : left <+: right) : left <+: middle := by
  induction left generalizing middle right with
  | nil => exact List.nil_prefix
  | cons part left ih =>
      rcases within with ⟨more, rfl⟩
      cases middle with
      | nil => cases first
      | cons between middle =>
          rw [List.cons_append, partsLe_cons_iff] at second
          rw [partsLe_cons_iff] at first
          rcases first with ⟨rfl, lower⟩ | ⟨differs, lower⟩
          · rcases second with ⟨_, upper⟩ | ⟨apart, _⟩
            · exact (List.prefix_cons_inj part).mpr (ih lower upper ⟨more, rfl⟩)
            · exact absurd rfl apart
          · rcases second with ⟨same, _⟩ | ⟨_, upper⟩
            · exact absurd same.symm differs
            · exact absurd (Part.le_antisymm lower upper) differs

/-! ## Paths in order -/

/-- Whether a path comes before another and differs from it. -/
def Precedes (first second : Path) : Prop :=
  first.le second = true ∧ first ≠ second

variable {path : Path} {paths others : List Path}

theorem mem_withoutRepeats : path ∈ withoutRepeats paths ↔ path ∈ paths := by
  induction paths with
  | nil => rfl
  | cons first rest ih =>
      rw [withoutRepeats]
      cases shape : withoutRepeats rest with
      | nil =>
          rw [shape] at ih
          simp only [List.mem_cons, ← ih]
      | cons next others =>
          rw [shape] at ih
          simp only
          split
          · rename_i same
            rw [ih, List.mem_cons, same, ← ih, List.mem_cons]
            simp
          · rw [List.mem_cons, ih, List.mem_cons]

section Anchored

variable {anchor : Anchor}

theorem eq_of_le_of_le {first second : Path} (same : first.anchor = second.anchor)
    (lower : first.le second = true) (upper : second.le first = true) : first = second := by
  rcases first with ⟨start, firstParts⟩
  rcases second with ⟨other, secondParts⟩
  cases same
  exact congrArg _ (partsLe_antisymm lower upper)

theorem pairwise_withoutRepeats (anchored : ∀ path ∈ paths, path.anchor = anchor)
    (ordered : paths.Pairwise fun first second => first.le second = true) :
    (withoutRepeats paths).Pairwise Precedes := by
  induction paths with
  | nil => exact List.Pairwise.nil
  | cons first rest ih =>
      rcases List.pairwise_cons.mp ordered with ⟨least, restOrdered⟩
      have strict := ih (fun path among => anchored path (List.mem_cons_of_mem first among))
        restOrdered
      rw [withoutRepeats]
      cases shape : withoutRepeats rest with
      | nil => exact List.pairwise_singleton _ _
      | cons next others =>
          rw [shape] at strict
          have among {path : Path} (inside : path ∈ next :: others) : path ∈ rest :=
            mem_withoutRepeats.mp (by rw [shape]; exact inside)
          simp only
          split
          · exact strict
          · rename_i differs
            refine List.pairwise_cons.mpr ⟨?_, strict⟩
            intro path inside
            refine ⟨least path (among inside), ?_⟩
            rintro rfl
            rcases List.mem_cons.mp inside with same | later
            · exact differs same
            · have above := least next (among List.mem_cons_self)
              have below := (List.pairwise_cons.mp strict).1 first later
              have starts : first.anchor = next.anchor := by
                rw [anchored first List.mem_cons_self,
                  anchored next (List.mem_cons_of_mem first (among List.mem_cons_self))]
              exact differs (eq_of_le_of_le starts above below.1)

theorem mem_sorted : path ∈ sorted paths ↔ path ∈ paths := by
  rw [sorted, mem_withoutRepeats, List.mem_mergeSort]

theorem pairwise_sorted (anchored : ∀ path ∈ paths, path.anchor = anchor) :
    (sorted paths).Pairwise Precedes := by
  apply pairwise_withoutRepeats
  · intro path inside
    exact anchored path (List.mem_mergeSort.mp inside)
  · apply List.pairwise_mergeSort
    · intro first second third lower upper
      exact partsLe_trans lower upper
    · intro first second
      exact Bool.or_eq_true _ _ |>.mpr (partsLe_total first.parts second.parts)

/-- Sorted paths are known from which paths they are. -/
theorem sorted_eq_of_mem_iff (anchored : ∀ path ∈ paths, path.anchor = anchor)
    (same : ∀ path, path ∈ paths ↔ path ∈ others) : sorted paths = sorted others := by
  have otherAnchored : ∀ path ∈ others, path.anchor = anchor :=
    fun path inside => anchored path ((same path).mpr inside)
  have first := pairwise_sorted anchored
  have second := pairwise_sorted otherAnchored
  have permuted : (sorted paths).Perm (sorted others) := by
    rw [List.perm_ext_iff_of_nodup (first.imp And.right) (second.imp And.right)]
    intro path
    rw [mem_sorted, mem_sorted, same]
  refine permuted.eq_of_pairwise ?_ first second
  intro left right leftInside rightInside lower upper
  have starts : left.anchor = right.anchor := by
    rw [anchored left (mem_sorted.mp leftInside), otherAnchored right (mem_sorted.mp rightInside)]
  exact eq_of_le_of_le starts lower.1 upper.1

end Anchored

end Path

end MessageTables
