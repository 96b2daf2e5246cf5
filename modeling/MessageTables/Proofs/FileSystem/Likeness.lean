import MessageTables.Proofs.FileSystem.Delivering

/-!
# Trees with the same content

Two trees are alike if they have the same files with the same bytes, the same
directories with the same permissions and the same links. The permissions of
files and all times are left aside.

What replacing a file comes to can be told from what is alike: whether a directory
is there and what it grants, whether a name is taken, and whether a directory is at
the output. So in trees that are alike it has the same result, whatever is drawn and
whenever it is done, and leaves trees that are alike.
-/

namespace MessageTables

namespace Node

/-- What a node holds: the bytes of a file, the permissions of a directory, the text of a link. -/
def content : Node → Node
  | file bytes _ _ => file bytes 0 ⟨0, 0⟩
  | directory mode _ => directory mode ⟨0, 0⟩
  | link target => link target

theorem content_lasting (node : Node) : node.lasting.content = node.content := by
  cases node <;> rfl

theorem isDirectory_content (node : Node) : node.content.isDirectory = node.isDirectory := by
  cases node <;> rfl

theorem isDirectory_eq_of_content_eq {node other : Node} (same : node.content = other.content) :
    node.isDirectory = other.isDirectory := by
  rw [← isDirectory_content, same, isDirectory_content]

theorem grants_eq_of_content_eq {node other : Node} (same : node.content = other.content)
    (directory : node.isDirectory = true) (right : Right) :
    node.grants right = other.grants right := by
  cases node with
  | directory mode time =>
      cases other with
      | directory otherMode otherTime =>
          cases same
          rfl
      | file bytes otherMode otherTime => cases same
      | link target => cases same
  | file bytes mode time => cases directory
  | link target => cases directory

end Node

namespace Tree

/-- What stands at a location, without the permissions of a file and without times. -/
def contents (tree : Tree) (location : Location) : Option Node :=
  (tree.node? location).map Node.content

/-- Whether two trees have the same files, directories and links, with the same content. -/
def Alike (first second : Tree) : Prop :=
  first.contents = second.contents

variable {tree first second third one other : Tree} {location outer : Location} {mode : Nat}
  {part : Part} {above parts : List Part} {anchor : Anchor}

theorem contents_eq_view (tree : Tree) (location : Location) :
    tree.contents location = (tree.view location).map Node.content := by
  rw [contents, view, Option.map_map]
  congr 1
  funext node
  exact node.content_lasting.symm

/-- A course comes to directories that are there or have yet to be made. -/
theorem isDirectory_of_course {node : Node}
    (seen : tree.view (tree.course mode parts).reached = some node) : node.isDirectory = true := by
  induction parts with
  | nil =>
      rw [course] at seen
      have top := tree.isDirectory_nil
      rwa [isDirectory_eq_view, seen, Option.any_some] at top
  | cons part above ih =>
      rw [course] at seen
      rcases goOn_cases tree mode (tree.course mode above) part with
        ⟨code, same⟩ | ⟨location, _, made, same⟩
      · rw [same] at seen
        exact ih seen
      · rw [same] at seen
        rcases makePart_eq_ok_iff.mp made with
          ⟨name, _, _, _, ⟨there, present, directory⟩ | ⟨absent, _⟩⟩
        · cases present.symm.trans seen
          exact directory
        · cases absent.symm.trans seen

namespace Alike

theorem refl (tree : Tree) : tree.Alike tree := rfl

theorem trans (alike : first.Alike second) (further : second.Alike third) : first.Alike third :=
  Eq.trans alike further

variable (alike : first.Alike second)

include alike

theorem view_cases (location : Location) :
    (first.view location = none ∧ second.view location = none) ∨
      ∃ node other, first.view location = some node ∧ second.view location = some other ∧
        node.content = other.content := by
  have same := congrFun alike location
  rw [contents_eq_view, contents_eq_view] at same
  cases seen : first.view location with
  | none =>
      rw [seen, Option.map_none, eq_comm, Option.map_eq_none_iff] at same
      exact Or.inl ⟨rfl, same⟩
  | some node =>
      rw [seen, Option.map_some, eq_comm, Option.map_eq_some_iff] at same
      rcases same with ⟨other, there, content⟩
      exact Or.inr ⟨node, other, rfl, there, content.symm⟩

theorem isSome_eq (location : Location) :
    (second.view location).isSome = (first.view location).isSome := by
  rcases alike.view_cases location with ⟨absent, missing⟩ | ⟨node, other, seen, there, _⟩
  · rw [absent, missing]
  · rw [seen, there, Option.isSome_some, Option.isSome_some]

theorem isDirectory_eq (location : Location) :
    second.isDirectory location = first.isDirectory location := by
  rw [isDirectory_eq_view, isDirectory_eq_view]
  rcases alike.view_cases location with ⟨absent, missing⟩ | ⟨node, other, seen, there, content⟩
  · rw [absent, missing]
  · rw [seen, there, Option.any_some, Option.any_some, Node.isDirectory_eq_of_content_eq content]

/-! ## What replacing a file comes to -/

theorem allows_eq (way : ∀ node, first.view outer = some node → node.isDirectory = true)
    (right : Right) : second.allows mode outer right = first.allows mode outer right := by
  rw [allows, allows]
  rcases alike.view_cases outer with ⟨absent, missing⟩ | ⟨node, other, seen, there, content⟩
  · rw [absent, missing]
  · rw [seen, there]
    exact (Node.grants_eq_of_content_eq content (way node seen) right).symm

theorem makePart_eq (way : ∀ node, first.view outer = some node → node.isDirectory = true) :
    second.makePart mode outer part = first.makePart mode outer part := by
  rw [makePart, makePart, alike.allows_eq way, alike.allows_eq way]
  cases Name.ofText? part.text with
  | none => rfl
  | some name =>
      rcases alike.view_cases (name :: outer) with
        ⟨absent, missing⟩ | ⟨node, other, seen, there, content⟩
      · simp only [absent, missing]
      · simp only [seen, there, Node.isDirectory_eq_of_content_eq content]

theorem course_eq (mode : Nat) (parts : List Part) :
    second.course mode parts = first.course mode parts := by
  induction parts with
  | nil =>
      have top : second.allows mode [] .enter = first.allows mode [] .enter :=
        alike.allows_eq (@isDirectory_of_course first mode []) .enter
      rw [allows_eq_grants second.isDirectory_nil, allows_eq_grants first.isDirectory_nil] at top
      rw [course, course, top]
  | cons part above ih =>
      have makes : second.makePart mode (first.course mode above).reached part =
          first.makePart mode (first.course mode above).reached part :=
        alike.makePart_eq fun _ => isDirectory_of_course
      rw [course, course, ih, goOn, goOn, makes]

/-- A file is put in the same way in trees that are alike. -/
theorem delivery_eq (anchor : Anchor) (part : Part) (above : List Part) (text : Text) :
    second.delivery mode (TreeAction.directoryPath anchor (part :: above)) text =
      first.delivery mode (TreeAction.directoryPath anchor (part :: above)) text := by
  apply delivery_congr (alike.course_eq mode above)
  · rintro key - rfl
    exact alike.allows_eq fun _ => isDirectory_of_course
  · intro name directory short _
    simp only [Crowded, alike.isSome_eq]
  · intro key _
    exact alike.isDirectory_eq key

/-- Putting files that hold the same in the same place leaves trees that are alike. -/
theorem of_leaves {reached : Location} {target : Option Location} {file otherFile : Node}
    (leaves : first.Leaves one mode reached target file)
    (otherLeaves : second.Leaves other mode reached target otherFile)
    (content : file.content = otherFile.content) : one.Alike other := by
  funext key
  have same := congrFun alike key
  rw [contents_eq_view, contents_eq_view] at same ⊢
  have missing : first.view key = none ↔ second.view key = none := by
    rw [← Option.isNone_iff_eq_none, ← Option.isNone_iff_eq_none, ← Option.not_isSome,
      ← Option.not_isSome, alike.isSome_eq]
  rw [leaves key, otherLeaves key]
  split
  · exact congrArg some content
  · simp only [missing]
    split
    · rfl
    · exact same

end Alike

end Tree

end MessageTables
