import MessageTables.Proofs.FileSystem.Courses

/-!
# Where parts lead once directories have been made

Directories that are made where nothing was change little for the parts that go
through them. What was led to still is. What was missing still is, unless the
parts go no further than to a new directory, and there are only two ways in which
it can now be missed differently: a part behind a new directory is no name, or the
permissions of new directories do not allow to enter them.
-/

namespace MessageTables

namespace Tree

open TreeAction (directoryPath)

variable {before after : Tree} {mode : Nat} {parts above : List Part} {part : Part}
  {location outer : Location} {anchor : Anchor} {code : ErrorCode}

/-- The ways in which a walk can fail behind a new directory, but for something missing again. -/
inductive FailsBehind (mode : Nat) (parts : List Part) : ErrorCode → Prop where
  | unnamed {part : Part} (among : part ∈ parts) (unnamed : Name.ofText? part.text = none) :
      FailsBehind mode parts .nameTooLong
  | closed (unentered : mode.testBit Right.enter.bit = false) : FailsBehind mode parts .denied

theorem FailsBehind.mono (fails : FailsBehind mode above code) (part : Part) :
    FailsBehind mode (part :: above) code := by
  cases fails with
  | unnamed among unnamed => exact .unnamed (List.mem_cons_of_mem part among) unnamed
  | closed unentered => exact .closed unentered

/-- How what parts lead to can change when directories have been made where nothing was. -/
inductive LeadsLater (before after : Tree) (mode : Nat) (parts : List Part) :
    Except ErrorCode Location → Except ErrorCode Location → Prop where
  | same (result : Except ErrorCode Location) : LeadsLater before after mode parts result result
  | made {location : Location} (absent : before.view location = none) :
      LeadsLater before after mode parts (.error .noEntry) (.ok location)
  | behind {location : Location} {code : ErrorCode} (absent : before.view location = none)
      (present : after.view location = some (.directory mode ⟨0, 0⟩))
      (within : location.map Name.part <:+ parts.tail) (fails : FailsBehind mode parts code) :
      LeadsLater before after mode parts (.error .noEntry) (.error code)

theorem checkEnter_congr (same : after.view outer = before.view outer) :
    after.checkEnter outer = before.checkEnter outer := by
  simp only [checkEnter, isDirectory_eq_view, grants_eq_view, same]

/-- Nothing was in a directory that is new, so a part of it was missing before. -/
theorem leadsLater_behind (absent : before.view outer = none)
    (present : after.view outer = some (.directory mode ⟨0, 0⟩))
    (named : outer.map Name.part = above) :
    LeadsLater before after mode (part :: above) (.error .noEntry)
      (after.enterPart outer part) := by
  have directory : after.isDirectory outer = true := by
    rw [isDirectory_eq_view, present]
    rfl
  have granted : after.grants outer .enter = mode.testBit Right.enter.bit := by
    rw [grants_eq_view, present]
    rfl
  have within : outer.map Name.part <:+ (part :: above).tail := named ▸ List.suffix_refl _
  rw [enterPart, checkEnter, directory, granted]
  cases entered : mode.testBit Right.enter.bit with
  | false => exact .behind absent present within (.closed entered)
  | true =>
      simp only [Bool.not_true, Bool.false_eq_true, if_false, bind, Except.bind]
      cases unnamed : Name.ofText? part.text with
      | none => exact .behind absent present within (.unnamed List.mem_cons_self unnamed)
      | some name =>
          simp only
          split
          · exact .made (view_cons_of_absent absent name)
          · exact .same _

/-- From a directory that was there, a part leads to the same, or to a new directory. -/
theorem leadsLater_enterPart (outside : after.view outer = before.view outer)
    (inside : ∀ name : Name, name.part = part → before.SteadyAt after mode (name :: outer)) :
    LeadsLater before after mode parts (before.enterPart outer part)
      (after.enterPart outer part) := by
  rw [enterPart, enterPart, checkEnter_congr outside]
  cases before.checkEnter outer with
  | error code => exact .same _
  | ok _ =>
      simp only [bind, Except.bind, ← isSome_view]
      cases named : Name.ofText? part.text with
      | none => exact .same _
      | some name =>
          rcases inside name (Part.ext (Name.eq_of_ofText? named)) with
            same | ⟨missing, made, _⟩
          · simp only [same]
            exact .same _
          · simp only [missing, made]
            exact .made missing

/-- What parts lead to in a later tree that is as before along them, but for new directories. -/
theorem reach_later (steady : ∀ key : Location, key.map Name.part <:+ parts →
      before.SteadyAt after mode key) :
    LeadsLater before after mode parts (before.reach parts) (after.reach parts) := by
  induction parts with
  | nil => exact .same _
  | cons part above ih =>
      have outside := ih fun key within => steady key (within.trans (List.suffix_cons part above))
      have present (tree : Tree) {outer : Location} (led : tree.reach above = .ok outer) :
          tree.view outer ≠ none := by
        rw [Ne, view_eq_none_iff]
        exact Option.isSome_iff_ne_none.mp (isSome_of_reach led)
      have along (tree : Tree) {outer : Location} (led : tree.reach above = .ok outer) :
          before.SteadyAt after mode outer :=
        steady outer (parts_of_reach led ▸ List.suffix_cons part above)
      rw [reach, reach]
      generalize earlier : before.reach above = first, later : after.reach above = second at outside
      cases outside with
      | same =>
          cases first with
          | error code => exact .same _
          | ok outer =>
              rcases along before earlier with outerSame | ⟨missing, _⟩
              · apply leadsLater_enterPart outerSame
                intro name last
                apply steady
                rw [List.map_cons, last, parts_of_reach earlier]
              · exact absurd missing (present before earlier)
      | @made outer absent =>
          rcases along after later with outerSame | ⟨_, made, _⟩
          · exact absurd (outerSame.trans absent) (present after later)
          · exact leadsLater_behind absent made (parts_of_reach later)
      | behind absent made within fails =>
          exact .behind absent made (within.trans (List.tail_suffix above)) (fails.mono part)

/-! ## Reading in a later tree -/

/-- Nothing is read of a node but what lasts. -/
theorem read_congr {path : Path}
    (same : (after.nodeAt path).map Node.lasting = (before.nodeAt path).map Node.lasting) :
    after.read path = before.read path := by
  rw [read, read]
  cases found : before.nodeAt path with
  | error error =>
      rw [found] at same
      cases other : after.nodeAt path with
      | error otherError =>
          rw [other] at same
          cases same
          rfl
      | ok node =>
          rw [other] at same
          cases same
  | ok node =>
      rw [found] at same
      cases other : after.nodeAt path with
      | error error =>
          rw [other] at same
          cases same
      | ok otherNode =>
          rw [other] at same
          have lasting : otherNode.lasting = node.lasting := Except.ok.inj same
          have grants : otherNode.grants .read = node.grants .read := by
            rw [← Node.grants_lasting, lasting, Node.grants_lasting]
          simp only [bind, Except.bind, grants]
          cases node with
          | file bytes mode time =>
              rw [Node.eq_of_lasting_eq rfl lasting]
              rfl
          | link target =>
              rw [Node.eq_of_lasting_eq rfl lasting]
              rfl
          | directory mode time =>
              cases otherNode with
              | directory otherMode later => rfl
              | file bytes otherMode later => cases lasting
              | link target => cases lasting

theorem read_of_unchecked {tree : Tree} {path : Path} {error : AccessError}
    (unchecked : checkPath path = .error error) : tree.read path = .error error := by
  rw [read, nodeAt, locate, place, unchecked]
  rfl

theorem read_parts_of_error {tree : Tree} (linkFree : tree.LinkFree)
    (descends : Part.up ∉ part :: above)
    (valid : checkPath (directoryPath anchor (part :: above)) = .ok ())
    (nowhere : tree.reach (part :: above) = .error code) :
    tree.read (directoryPath anchor (part :: above)) = .error (.code code) := by
  rw [read, nodeAt_parts_of_error linkFree descends valid nowhere]
  rfl

/-- A file is read as before unless it was missing, and then it can only be missed differently. -/
theorem read_later (linkFree : before.LinkFree) (later : after.LinkFree)
    (descends : Part.up ∉ part :: above) (anchor : Anchor)
    (steady : ∀ key : Location, key.map Name.part <:+ part :: above →
      before.SteadyAt after mode key)
    (untouched : ∀ key : Location, key.map Name.part = part :: above →
      after.view key = before.view key) :
    after.read (directoryPath anchor (part :: above)) =
        before.read (directoryPath anchor (part :: above)) ∨
      ∃ location code, before.view location = none ∧
        after.view location = some (.directory mode ⟨0, 0⟩) ∧
        location.map Name.part <:+ above ∧ FailsBehind mode (part :: above) code ∧
        before.read (directoryPath anchor (part :: above)) = .error (.code .noEntry) ∧
        after.read (directoryPath anchor (part :: above)) = .error (.code code) := by
  cases valid : checkPath (directoryPath anchor (part :: above)) with
  | error error => exact Or.inl (by rw [read_of_unchecked valid, read_of_unchecked valid])
  | ok _ =>
      have leads := reach_later steady
      generalize earlier : before.reach (part :: above) = first,
        afterwards : after.reach (part :: above) = second at leads
      cases leads with
      | same =>
          left
          cases first with
          | error code =>
              rw [read_parts_of_error linkFree descends valid earlier,
                read_parts_of_error later descends valid afterwards]
          | ok location =>
              apply read_congr
              rcases Option.isSome_iff_exists.mp (isSome_of_reach earlier) with ⟨node, found⟩
              rcases Option.isSome_iff_exists.mp (isSome_of_reach afterwards) with ⟨other, there⟩
              have views := untouched location (parts_of_reach earlier)
              rw [view_of_node? there, view_of_node? found] at views
              rw [nodeAt_parts_of_ok linkFree descends valid earlier found,
                nodeAt_parts_of_ok later descends valid afterwards there]
              exact congrArg Except.ok (Option.some.inj views)
      | @made location absent =>
          have present := isSome_of_reach afterwards
          have same := untouched location (parts_of_reach afterwards)
          rw [absent, view_eq_none_iff] at same
          rw [same] at present
          cases present
      | @behind location code absent present within fails =>
          exact Or.inr ⟨location, code, absent, present, within, fails,
            read_parts_of_error linkFree descends valid earlier,
            read_parts_of_error later descends valid afterwards⟩

end Tree

end MessageTables
