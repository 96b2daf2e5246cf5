import Mathlib
import MessageTables.FileSystem.Walk

/-!
# Paths of names

A path that only goes down is a path of names. It is known from where it starts
and from the location that its names lead to from the top, and what there is to
know about its text follows from there: it has no null character, and it takes
as many bytes as its names and the slashes between them.
-/

namespace MessageTables

namespace Name

theorem ofText?_text (name : Name) : ofText? name.text = some name := by
  rw [ofText?, dif_pos name.isName]

theorem eq_of_ofText? {text : Text} {name : Name} (named : ofText? text = some name) :
    name.text = text := by
  unfold ofText? at named
  split at named
  · cases named
    rfl
  · cases named

theorem ofText?_eq_none_of_long {text : Text} (long : 255 < text.byteSize) :
    ofText? text = none := by
  apply dif_neg
  intro isName
  exact absurd isName.2.2.2 (Nat.not_le.mpr long)

theorem part_ne_up (name : Name) : name.part ≠ Part.up := by
  intro same
  exact name.isName.2.1 (congrArg Part.text same)

end Name

theorem Step.ofText_name (name : Name) : Step.ofText name.text = .enter name.text := by
  rw [ofText, if_neg name.isName.1.2.1, if_neg name.isName.2.1]

theorem Step.eq_of_ofText {text other : Text} (entered : ofText text = .enter other) :
    other = text := by
  unfold ofText at entered
  split at entered
  · cases entered
  split at entered
  · cases entered
  · exact (Step.enter.inj entered).symm

/-- The steps that enter some names one after the other. -/
def Step.names (names : List Name) : List Step :=
  names.map fun name => .enter name.text

theorem Step.names_cons (name : Name) (names : List Name) :
    Step.names (name :: names) = .enter name.text :: Step.names names := rfl

theorem Step.names_reverse_cons (name : Name) (above : Location) :
    Step.names (name :: above).reverse = Step.names above.reverse ++ [.enter name.text] := by
  rw [Step.names, List.reverse_cons, List.map_append]
  rfl

namespace Path

theorem steps_child (path : Path) (part : Part) :
    (path.child part).steps = path.parts.map (fun other => Step.ofText other.text) ++
      [Step.ofText part.text] := by
  have some : path.parts ++ [part] ≠ [] := by simp
  rw [steps, child]
  cases shape : path.parts ++ [part] with
  | nil => exact absurd shape some
  | cons first rest =>
      simp only [← shape, List.map_append]
      rfl

theorem parent_child (path : Path) (part : Part) : (path.child part).parent = path := by
  rw [parent, child, List.dropLast_concat]

theorem name_child (path : Path) (part : Part) : (path.child part).name = part.text := by
  rw [name, child, List.getLast?_concat]

theorem child_eq_child_iff {path : Path} {part other : Part} :
    path.child part = path.child other ↔ part = other := by
  simp [child]

/-- Whether all parts of a path are names, so that it goes down at every step. -/
def IsPlain (path : Path) : Prop :=
  ∀ part ∈ path.parts, IsName part.text

instance (path : Path) : Decidable path.IsPlain :=
  inferInstanceAs (Decidable (∀ part ∈ path.parts, _))

/-- The location that the names of a path lead to from the top. -/
def destination (path : Path) : Location :=
  (path.parts.filterMap fun part => Name.ofText? part.text).reverse

/-- The path that names the way from the top to a location. -/
def plain (anchor : Anchor) (location : Location) : Path :=
  ⟨anchor, (location.map Name.part).reverse⟩

variable {path : Path} {anchor : Anchor} {location : Location} {name : Name}

theorem IsPlain.eq_plain (isPlain : path.IsPlain) :
    path = plain path.anchor path.destination := by
  rcases path with ⟨anchor, parts⟩
  have same : parts = (parts.filterMap fun part => Name.ofText? part.text).map Name.part := by
    induction parts with
    | nil => rfl
    | cons part rest ih =>
        have isName := isPlain part List.mem_cons_self
        have named : Name.ofText? part.text = some ⟨part.text, isName⟩ := dif_pos isName
        have remaining := ih fun other inside => isPlain other (List.mem_cons_of_mem part inside)
        simp only [List.filterMap_cons, named, List.map_cons, ← remaining]
        rfl
  rw [plain, destination, List.map_reverse, List.reverse_reverse, ← same]

theorem destination_plain (anchor : Anchor) (location : Location) :
    (plain anchor location).destination = location := by
  have named : (fun name : Name => Name.ofText? name.part.text) = some :=
    funext Name.ofText?_text
  rw [destination, plain, List.filterMap_reverse, List.reverse_reverse, List.filterMap_map]
  exact (congrArg (List.filterMap · location) named).trans List.filterMap_some

theorem parent_plain (anchor : Anchor) (location : Location) :
    (plain anchor location).parent = plain anchor location.tail := by
  rw [parent, plain, plain, List.dropLast_reverse, List.map_tail]

theorem plain_cons (anchor : Anchor) (name : Name) (above : Location) :
    plain anchor (name :: above) = (plain anchor above).child name.part := by
  rw [plain, List.map_cons, List.reverse_cons]
  rfl

theorem name_plain (anchor : Anchor) (name : Name) (above : Location) :
    (plain anchor (name :: above)).name = name.text := by
  rw [plain_cons, name_child]
  rfl

theorem steps_plain_nil (anchor : Anchor) : (plain anchor []).steps = [.stay] := rfl

theorem steps_child_plain (anchor : Anchor) (above : Location) (part : Part) :
    ((plain anchor above).child part).steps =
      Step.names above.reverse ++ [Step.ofText part.text] := by
  rw [steps_child, plain, ← List.map_reverse, List.map_map, Step.names]
  congr 2
  funext name
  exact Step.ofText_name name

theorem steps_plain (anchor : Anchor) (name : Name) (above : Location) :
    (plain anchor (name :: above)).steps = Step.names (name :: above).reverse := by
  rw [plain_cons, steps_child_plain, Step.names_reverse_cons]
  exact congrArg _ (congrArg (List.cons · []) (Step.ofText_name name))

/-! ## Texts of paths -/

theorem slash_not_mem_name (path : Path) : Symbol.char '/' ∉ path.name.toList := by
  rw [Path.name]
  split
  · decide
  · rename_i part _
    exact part.isPart.2.2.1

theorem ofText_part {text : Text} (isPart : IsPart text) :
    ofText text = ⟨.relative, [⟨text, isPart⟩]⟩ := by
  have anchored : Anchor.ofCharacters text.toList = .relative := by
    unfold Anchor.ofCharacters
    split
    · rename_i slashed
      exact absurd (by rw [slashed]; exact List.mem_cons_self) isPart.2.2.1
    · rename_i slashed
      exact absurd (by rw [slashed]; exact List.mem_cons_self) isPart.2.2.1
    · rename_i slashed
      exact absurd (by rw [slashed]; exact List.mem_cons_self) isPart.2.2.1
    · rfl
  rw [ofText, anchored, partsOf, List.splitOn_eq_singleton isPart.2.2.1, List.filterMap_cons,
    Text.ofList_toList, Part.ofText?, dif_pos isPart]
  rfl

theorem mem_intercalate_slash {character : Symbol} {texts : List Text}
    (inside : character ∈ (Text.intercalate "/" texts).toList) :
    character = '/' ∨ ∃ text ∈ texts, character ∈ text.toList := by
  induction texts with
  | nil => cases inside
  | cons first rest ih =>
      cases rest with
      | nil =>
          rw [Text.intercalate_singleton] at inside
          exact Or.inr ⟨first, List.mem_cons_self, inside⟩
      | cons second others =>
          rw [Text.intercalate_cons_cons, Text.toList_append, Text.toList_append,
            List.mem_append, List.mem_append] at inside
          rcases inside with (within | slash) | further
          · exact Or.inr ⟨first, List.mem_cons_self, within⟩
          · exact Or.inl (List.mem_singleton.mp slash)
          · rcases ih further with slash | ⟨text, among, within⟩
            · exact Or.inl slash
            · exact Or.inr ⟨text, List.mem_cons_of_mem first among, within⟩

/-- A path is written with what its parts are written with, dots and slashes. -/
theorem mem_text {character : Symbol} (inside : character ∈ path.text.toList) :
    character = '.' ∨ character = '/' ∨ ∃ part ∈ path.parts, character ∈ part.text.toList := by
  have start : ∀ character ∈ path.anchor.text.toList, character = '/' := by
    cases path.anchor <;> simp [Anchor.text]
  rw [text] at inside
  split at inside
  · exact Or.inl (List.mem_singleton.mp inside)
  · right
    rw [Text.toList_append, List.mem_append] at inside
    rcases inside with slash | inside
    · exact Or.inl (start character slash)
    · rcases mem_intercalate_slash inside with slash | ⟨text, among, within⟩
      · exact Or.inl slash
      · rcases List.mem_map.mp among with ⟨part, held, rfl⟩
        exact Or.inr ⟨part, held, within⟩

/-- Whether no part of a path holds a null character. -/
def NullFree (path : Path) : Prop :=
  ∀ part ∈ path.parts, Symbol.char '\x00' ∉ part.text.toList

instance (path : Path) : Decidable path.NullFree :=
  inferInstanceAs (Decidable (∀ part ∈ path.parts, _))

theorem null_not_mem_text (nullFree : path.NullFree) : Symbol.char '\x00' ∉ path.text.toList := by
  intro inside
  rcases mem_text inside with dot | slash | ⟨part, held, within⟩
  · exact absurd dot (by decide)
  · exact absurd slash (by decide)
  · exact nullFree part held within

theorem mem_intercalate_of_mem {character : Symbol} {written : Text} {texts : List Text}
    (among : written ∈ texts) (inside : character ∈ written.toList) :
    character ∈ (Text.intercalate "/" texts).toList := by
  induction texts with
  | nil => cases among
  | cons first rest ih =>
      cases rest with
      | nil =>
          rw [Text.intercalate_singleton, ← List.mem_singleton.mp among]
          exact inside
      | cons second others =>
          rw [Text.intercalate_cons_cons, Text.toList_append, Text.toList_append,
            List.mem_append, List.mem_append]
          rcases List.mem_cons.mp among with rfl | later
          · exact Or.inl (Or.inl inside)
          · exact Or.inr (ih later)

theorem nullFree_of_text (free : Symbol.char '\x00' ∉ path.text.toList) : path.NullFree := by
  intro part among inside
  apply free
  have some : path.parts ≠ [] := List.ne_nil_of_mem among
  rw [text, if_neg fun none => some none.2, Text.toList_append, List.mem_append]
  exact Or.inr (mem_intercalate_of_mem (List.mem_map_of_mem among) inside)

theorem null_mem_text_iff : Symbol.char '\x00' ∈ path.text.toList ↔ ¬path.NullFree := by
  constructor
  · intro inside free
    exact null_not_mem_text free inside
  · intro held
    by_contra free
    exact held (nullFree_of_text free)

theorem nullFree_plain (anchor : Anchor) (location : Location) :
    (plain anchor location).NullFree := by
  intro part among
  rcases List.mem_map.mp (List.mem_reverse.mp among) with ⟨name, _, rfl⟩
  exact name.isName.2.2.1

theorem size_intercalate_slash (last : Text) (texts : List Text) :
    (Text.intercalate "/" (texts.reverse ++ [last])).byteSize =
      (texts.map fun text => text.byteSize + 1).sum + last.byteSize := by
  induction texts generalizing last with
  | nil => simp
  | cons text rest ih =>
      rw [List.reverse_cons, Text.intercalate_append_of_ne_nil (by simp) (by simp),
        Text.intercalate_singleton, Text.byteSize_append, Text.byteSize_append, ih,
        List.map_cons, List.sum_cons]
      have slash : ("/" : Text).byteSize = 1 := rfl
      omega

theorem size_text (anchor : Anchor) (part : Part) (above : List Part) :
    (Path.mk anchor (part :: above).reverse).text.byteSize =
      anchor.text.byteSize + (above.map fun other => other.text.byteSize + 1).sum +
        part.text.byteSize := by
  have texts : (part :: above).reverse.map Part.text =
      (above.map Part.text).reverse ++ [part.text] := by
    simp
  have some : (part :: above).reverse ≠ [] := by simp
  rw [text, if_neg fun none => some none.2, Text.byteSize_append, texts,
    size_intercalate_slash, List.map_map]
  exact (Nat.add_assoc _ _ _).symm

theorem size_text_tail (anchor : Anchor) (part : Part) (above : List Part) :
    (Path.mk anchor above.reverse).text.byteSize ≤
      (Path.mk anchor (part :: above).reverse).text.byteSize := by
  have some : 0 < part.text.byteSize := by
    rw [Nat.pos_iff_ne_zero, Ne, Text.byteSize_eq_zero_iff]
    exact part.isPart.1
  rw [size_text]
  cases above with
  | nil =>
      have dot : ("." : Text).byteSize = 1 := rfl
      cases anchor with
      | relative =>
          simp [text, Anchor.text]
          omega
      | root => simp [text, Anchor.text]
      | doubleRoot => simp [text, Anchor.text]
  | cons other rest =>
      rw [size_text, List.map_cons, List.sum_cons]
      omega

theorem size_text_plain (anchor : Anchor) (name : Name) (above : Location) :
    (plain anchor (name :: above)).text.byteSize =
      anchor.text.byteSize + (above.map fun other => other.text.byteSize + 1).sum +
        name.text.byteSize := by
  rw [plain, List.map_cons, size_text, List.map_map]
  rfl

theorem size_text_plain_tail (anchor : Anchor) (name : Name) (above : Location) :
    (plain anchor above).text.byteSize ≤
      (plain anchor (name :: above)).text.byteSize :=
  size_text_tail anchor name.part (above.map Name.part)

theorem size_text_plain_le_of_suffix (anchor : Anchor) {above location : Location}
    (within : above <:+ location) :
    (plain anchor above).text.byteSize ≤ (plain anchor location).text.byteSize := by
  induction location with
  | nil =>
      cases List.suffix_nil.mp within
      exact Nat.le_refl _
  | cons name rest ih =>
      rcases List.suffix_cons_iff.mp within with rfl | further
      · exact Nat.le_refl _
      · exact Nat.le_trans (ih further) (size_text_plain_tail anchor name rest)

/-- With another name behind it, a path takes as many bytes as it does from any other start. -/
theorem size_text_plain_le_of_anchor (first second : Anchor) (above : Location)
    (long : 2 ≤ name.text.byteSize) :
    (plain first above).text.byteSize ≤ (plain second (name :: above)).text.byteSize := by
  have slashes : first.text.byteSize ≤ 2 := by
    cases first <;> decide
  rw [size_text_plain second]
  cases above with
  | nil =>
      have alone : (plain first []).text.byteSize ≤ 2 := by
        cases first <;> decide
      omega
  | cons other rest =>
      rw [size_text_plain, List.map_cons, List.sum_cons]
      omega

theorem checkPath_eq_ok_iff :
    Tree.checkPath path = .ok () ↔ path.NullFree ∧ path.text.byteSize ≤ Tree.pathLimit := by
  rw [Tree.checkPath]
  by_cases free : path.NullFree
  · rw [if_neg (null_not_mem_text free)]
    simp [free]
  · rw [if_pos (null_mem_text_iff.mpr free)]
    simp [free]

theorem checkPath_error_cases {error : AccessError}
    (refused : Tree.checkPath path = .error error) :
    error = .nullByte ∨
      error = .code .nameTooLong ∧ Tree.pathLimit < path.text.byteSize := by
  rw [Tree.checkPath] at refused
  split at refused
  · cases refused
    exact Or.inl rfl
  split at refused
  · cases refused
    exact Or.inr ⟨rfl, ‹_›⟩
  · cases refused

/-- The path of a directory is checked with success if that of something in it is. -/
theorem checkPath_tail {part : Part} {above : List Part}
    (valid : Tree.checkPath ⟨anchor, (part :: above).reverse⟩ = .ok ()) :
    Tree.checkPath ⟨anchor, above.reverse⟩ = .ok () := by
  rw [checkPath_eq_ok_iff] at valid ⊢
  refine ⟨?_, (size_text_tail anchor part above).trans valid.2⟩
  intro other among
  apply valid.1
  rw [List.mem_reverse] at among ⊢
  exact List.mem_cons_of_mem part among

/-- The check of a path does not see what is written in it, but for null characters. -/
theorem checkPath_congr {other : Path} (nulls : path.NullFree ↔ other.NullFree)
    (sizes : path.text.byteSize = other.text.byteSize) :
    Tree.checkPath path = Tree.checkPath other := by
  simp only [Tree.checkPath, null_mem_text_iff, nulls, sizes]

theorem checkPath_plain (short :
    (plain anchor location).text.byteSize ≤ Tree.pathLimit) :
    Tree.checkPath (plain anchor location) = .ok () :=
  checkPath_eq_ok_iff.mpr ⟨nullFree_plain anchor location, short⟩

end Path

end MessageTables
