import MessageTables.Proofs.FileSystem.Descents
import MessageTables.Proofs.FileSystem.Directories

/-!
# Where parts lead

In a tree without links, a path without parts that lead up is followed part by
part: each part is entered from where the parts before it lead. `Tree.reach` is
that recursion, with the last part first. Locating a path and finding the
directory of its entry are the checks of the path and `reach`, and nothing else,
so what a path comes to is known by looking at one part after the other.
-/

namespace MessageTables

/-- What a walk that meets no link comes to. -/
def Arrival.result : Arrival → Except ErrorCode Location
  | found location => .ok location
  | vacant _ _ => .error .noEntry
  | detour _ _ _ => .error .linkLoop
  | failed code => .error code

namespace Tree

open TreeAction (directoryPath)

/-- What has to hold of a location before a name is entered from there. -/
def checkEnter (tree : Tree) (outer : Location) : Except ErrorCode Unit :=
  if !tree.isDirectory outer then .error .notDirectory
  else if !tree.grants outer .enter then .error .denied
  else .ok ()

/-- What a part of a path leads to from a location. -/
def enterPart (tree : Tree) (outer : Location) (part : Part) : Except ErrorCode Location := do
  tree.checkEnter outer
  match Name.ofText? part.text with
  | none => .error .nameTooLong
  | some name =>
      if (tree.node? (name :: outer)).isSome then .ok (name :: outer) else .error .noEntry

/-- What comes of making a node for a part of a path at a location. -/
def createPart (tree : Tree) (outer : Location) (part : Part) (node : Node) (time : Timestamp) :
    Except ErrorCode Tree := do
  tree.checkEnter outer
  match Name.ofText? part.text with
  | none => .error .nameTooLong
  | some name =>
      if (tree.node? (name :: outer)).isSome then .error .alreadyExists
      else if tree.grants outer .write then .ok (tree.addEntry (name :: outer) node time)
      else .error .denied

/-- What parts lead to from the top, the last part first. -/
def reach (tree : Tree) : List Part → Except ErrorCode Location
  | [] => .ok []
  | part :: above => tree.reach above >>= (tree.enterPart · part)

variable {tree : Tree} {part : Part} {above parts : List Part} {anchor : Anchor}
  {location outer : Location}

theorem checkEnter_eq_ok_iff :
    tree.checkEnter outer = .ok () ↔
      tree.isDirectory outer = true ∧ tree.grants outer .enter = true := by
  unfold checkEnter
  cases tree.isDirectory outer <;> cases tree.grants outer .enter <;> simp

theorem enterPart_eq_ok_iff :
    tree.enterPart outer part = .ok location ↔
      ∃ name, Name.ofText? part.text = some name ∧ location = name :: outer ∧
        tree.grants outer .enter = true ∧ (tree.node? (name :: outer)).isSome = true := by
  rw [enterPart, bind_eq_ok_iff]
  constructor
  · rintro ⟨_, checked, entered⟩
    cases named : Name.ofText? part.text with
    | none =>
        simp only [named] at entered
        cases entered
    | some name =>
        simp only [named] at entered
        split at entered
        · rename_i present
          cases entered
          exact ⟨name, rfl, rfl, (checkEnter_eq_ok_iff.mp checked).2, present⟩
        · cases entered
  · rintro ⟨name, named, rfl, granted, present⟩
    refine ⟨(), checkEnter_eq_ok_iff.mpr ⟨isDirectory_of_node? present, granted⟩, ?_⟩
    simp only [named, present, if_true]

theorem enterPart_of_unnamed (entered : tree.checkEnter outer = .ok ())
    (unnamed : Name.ofText? part.text = none) :
    tree.enterPart outer part = .error .nameTooLong := by
  rw [enterPart, entered, unnamed]
  rfl

theorem reach_of_unnamed (led : tree.reach above = .ok outer)
    (entered : tree.checkEnter outer = .ok ()) (unnamed : Name.ofText? part.text = none) :
    tree.reach (part :: above) = .error .nameTooLong := by
  rw [reach, led]
  exact enterPart_of_unnamed entered unnamed

/-- Parts lead to the location that they name. -/
theorem parts_of_reach (reached : tree.reach parts = .ok location) :
    location.map Name.part = parts := by
  induction parts generalizing location with
  | nil =>
      cases reached
      rfl
  | cons part above ih =>
      rcases bind_eq_ok_iff.mp reached with ⟨outer, outside, entered⟩
      rcases enterPart_eq_ok_iff.mp entered with ⟨name, named, rfl, _⟩
      rw [List.map_cons, ih outside]
      exact congrArg (· :: above) (Part.ext (Name.eq_of_ofText? named))

theorem isSome_of_reach (reached : tree.reach parts = .ok location) :
    (tree.node? location).isSome = true := by
  cases parts with
  | nil =>
      cases reached
      rfl
  | cons part above =>
      rcases bind_eq_ok_iff.mp reached with ⟨outer, _, entered⟩
      rcases enterPart_eq_ok_iff.mp entered with ⟨name, _, rfl, _, present⟩
      exact present

theorem steps_parts (descends : Part.up ∉ part :: above) :
    (directoryPath anchor (part :: above)).steps =
      (part :: above).reverse.map fun part => .enter part.text := by
  apply Path.Descends.steps_eq
  · intro among
    exact descends (List.mem_reverse.mp among)
  · simp [directoryPath]

section LinkFree

variable (linkFree : tree.LinkFree)

include linkFree

theorem result_walk_enter (outer : Location) (part : Part) :
    (tree.walk outer [.enter part.text]).result = tree.enterPart outer part := by
  rw [walk_cons, enterPart, checkEnter]
  split
  · rfl
  · simp only [ne_eq, reduceCtorEq, not_false_eq_true, true_and]
    split
    · rfl
    · simp only [bind, Except.bind]
      cases Name.ofText? part.text with
      | none => rfl
      | some name =>
          simp only
          cases found : tree.node? (name :: outer) with
          | none => rfl
          | some node =>
              cases node with
              | link target => exact absurd found (linkFree.node?_ne _ _)
              | file bytes mode time => rfl
              | directory mode time => rfl

theorem result_walk_concat (start : Location) (steps : List Step) (step : Step) :
    (tree.walk start (steps ++ [step])).result =
      (tree.walk start steps).result >>= fun next => (tree.walk next [step]).result := by
  cases walked : tree.walk start steps with
  | found location =>
      rw [(walk_append [step]).1 location walked]
      rfl
  | vacant parent name =>
      rw [walk_append_of_missing (Or.inl ⟨parent, name, walked⟩)]
      rfl
  | detour parent target rest => exact absurd walked (linkFree.walk_ne_detour _ _ _ _ _)
  | failed code =>
      rw [walk_append_of_failed walked]
      rfl

/-- A walk down some parts comes to what they lead to. -/
theorem result_walk (parts : List Part) :
    (tree.walk [] (parts.reverse.map fun part => .enter part.text)).result = tree.reach parts := by
  induction parts with
  | nil => rfl
  | cons part above ih =>
      rw [List.reverse_cons, List.map_append, List.map_singleton, result_walk_concat linkFree, ih,
        reach]
      simp only [result_walk_enter linkFree]

theorem follow_eq (links : Nat) (start : Location) (steps : List Step) :
    tree.follow links start steps =
      match tree.walk start steps with
      | .found location => .ok (.node location)
      | .vacant parent name => .ok (.vacant parent name)
      | .failed code => .error code
      | .detour _ _ _ => .error .linkLoop := by
  rw [follow.eq_def]
  cases walked : tree.walk start steps with
  | found location => simp only [walked]
  | vacant parent name => simp only [walked]
  | failed code => simp only [walked]
  | detour parent target rest => exact absurd walked (linkFree.walk_ne_detour _ _ _ _ _)

section Parts

variable (descends : Part.up ∉ part :: above)

include descends

theorem locate_parts (valid : checkPath (directoryPath anchor (part :: above)) = .ok ()) :
    tree.locate (directoryPath anchor (part :: above)) =
      (tree.reach (part :: above)).mapError .code := by
  rw [locate, place, valid, follow_eq linkFree, steps_parts descends,
    ← result_walk linkFree (part :: above)]
  cases walked : tree.walk [] ((part :: above).reverse.map fun part => .enter part.text) with
  | found location => rfl
  | vacant parent name => rfl
  | failed code => rfl
  | detour parent target rest => exact absurd walked (linkFree.walk_ne_detour _ _ _ _ _)

/-- The entry of a path is looked for where the parts before its last lead. -/
theorem entry_parts (valid : checkPath (directoryPath anchor (part :: above)) = .ok ()) :
    tree.entry (directoryPath anchor (part :: above)) =
      (tree.reach above >>= fun outer =>
        tree.checkEnter outer >>= fun _ => .ok (outer, .enter part.text)).mapError .code := by
  have steps : (directoryPath anchor (part :: above)).steps =
      above.reverse.map (fun part => .enter part.text) ++ [.enter part.text] := by
    rw [steps_parts descends, List.reverse_cons, List.map_append, List.map_singleton]
  rw [entry, steps, List.dropLast_concat, List.getLast?_concat, valid, follow_eq linkFree,
    ← result_walk linkFree above]
  cases walked : tree.walk [] (above.reverse.map fun part => .enter part.text) with
  | found location =>
      simp only [Arrival.result, bind, Except.bind, Except.mapError, checkEnter]
      split
      · rfl
      split
      · rfl
      · rfl
  | vacant parent name => rfl
  | failed code => rfl
  | detour parent target rest => exact absurd walked (linkFree.walk_ne_detour _ _ _ _ _)

theorem create_parts (valid : checkPath (directoryPath anchor (part :: above)) = .ok ())
    (node : Node) (time : Timestamp) :
    tree.create (directoryPath anchor (part :: above)) node time =
      (tree.reach above >>= (tree.createPart · part node time)).mapError .code := by
  rw [create, entry_parts linkFree descends valid]
  cases tree.reach above with
  | error code => rfl
  | ok outer =>
      simp only [createPart, bind, Except.bind]
      cases tree.checkEnter outer with
      | error code => rfl
      | ok _ =>
          simp only [entryNamed, Except.mapError, pure, Except.pure]
          cases Name.ofText? part.text with
          | none => rfl
          | some name =>
              simp only
              cases tree.node? (name :: outer) with
              | none =>
                  simp only
                  split <;> rfl
              | some node => rfl

theorem nodeAt_parts_of_error {code : ErrorCode}
    (valid : checkPath (directoryPath anchor (part :: above)) = .ok ())
    (nowhere : tree.reach (part :: above) = .error code) :
    tree.nodeAt (directoryPath anchor (part :: above)) = .error (.code code) := by
  rw [nodeAt, locate_parts linkFree descends valid, nowhere]
  rfl

theorem nodeAt_parts_of_ok {node : Node}
    (valid : checkPath (directoryPath anchor (part :: above)) = .ok ())
    (reached : tree.reach (part :: above) = .ok location)
    (found : tree.node? location = some node) :
    tree.nodeAt (directoryPath anchor (part :: above)) = .ok node := by
  rw [nodeAt_eq_ok_iff]
  refine ⟨location, ?_, found⟩
  rw [locate_parts linkFree descends valid, reached]
  rfl

end Parts

end LinkFree

end Tree

end MessageTables
