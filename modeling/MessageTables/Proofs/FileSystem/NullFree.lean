import MessageTables.Proofs.FileSystem.TemporaryNames

/-!
# Failures of paths without null characters

A null character is looked for before a path is followed, and nowhere else. So
where the paths that an operation is given are free of them, all its failures
have a code.
-/

namespace MessageTables

namespace Tree

variable {tree : Tree} {path source target : Path} {time : Timestamp}

theorem checkPath_ne_nullByte (nullFree : path.NullFree) : checkPath path ≠ .error .nullByte := by
  rw [checkPath, if_neg (Path.null_not_mem_text nullFree)]
  split <;> rintro ⟨⟩

theorem checkPath_cases (nullFree : path.NullFree) :
    checkPath path = .ok () ∨ checkPath path = .error (.code .nameTooLong) := by
  rw [checkPath, if_neg (Path.null_not_mem_text nullFree)]
  split
  · exact Or.inr rfl
  · exact Or.inl rfl

theorem mapError_code_ne_nullByte {α : Type} (result : Except ErrorCode α) :
    result.mapError AccessError.code ≠ .error .nullByte := by
  cases result <;> rintro ⟨⟩

theorem place_ne_nullByte (nullFree : path.NullFree) : tree.place path ≠ .error .nullByte :=
  bind_ne_error (checkPath_ne_nullByte nullFree) fun _ => mapError_code_ne_nullByte _

theorem locate_ne_nullByte (nullFree : path.NullFree) : tree.locate path ≠ .error .nullByte := by
  apply bind_ne_error (place_ne_nullByte nullFree)
  intro place
  cases place <;> rintro ⟨⟩

theorem nodeAt_ne_nullByte (nullFree : path.NullFree) : tree.nodeAt path ≠ .error .nullByte := by
  apply bind_ne_error (locate_ne_nullByte nullFree)
  intro location
  split <;> rintro ⟨⟩

theorem read_ne_nullByte (nullFree : path.NullFree) : tree.read path ≠ .error .nullByte := by
  apply bind_ne_error (nodeAt_ne_nullByte nullFree)
  intro node
  by_cases granted : node.grants .read = true
  · simp only [granted, Bool.not_true, Bool.false_eq_true, if_false]
    cases node <;> rintro ⟨⟩
  · simp only [granted, Bool.not_false, if_true]
    rintro ⟨⟩

theorem changeTime_ne_nullByte (nullFree : path.NullFree) :
    tree.changeTime path ≠ .error .nullByte := by
  apply bind_ne_error (nodeAt_ne_nullByte nullFree)
  intro node
  split <;> rintro ⟨⟩

/-- A test takes a path with a null character for one that leads nowhere. -/
theorem test_ne_nullByte (tree : Tree) (property : Node → Bool) (path : Path) :
    tree.test property path ≠ .error .nullByte := by
  rw [test]
  split <;> rintro ⟨⟩

theorem entry_ne_nullByte (nullFree : path.NullFree) : tree.entry path ≠ .error .nullByte := by
  apply bind_ne_error (checkPath_ne_nullByte nullFree)
  intro _
  apply bind_ne_error (mapError_code_ne_nullByte _)
  intro place
  cases place with
  | vacant parent name => rintro ⟨⟩
  | node parent =>
      simp only
      split
      · rintro ⟨⟩
      · split <;> rintro ⟨⟩

theorem entryNamed_ne_nullByte (tree : Tree) (parent : Location) (text : Text) :
    tree.entryNamed parent text ≠ .error .nullByte := by
  rw [entryNamed]
  split <;> rintro ⟨⟩

theorem create_ne_nullByte (nullFree : path.NullFree) (node : Node) :
    tree.create path node time ≠ .error .nullByte := by
  apply bind_ne_error (entry_ne_nullByte nullFree)
  rintro ⟨parent, step⟩
  cases step with
  | enter text =>
      apply bind_ne_error (entryNamed_ne_nullByte tree parent text)
      rintro ⟨location, held⟩
      cases held with
      | none =>
          simp only
          split <;> rintro ⟨⟩
      | some node => rintro ⟨⟩
  | arrive => rintro ⟨⟩
  | stay => rintro ⟨⟩
  | up => rintro ⟨⟩

theorem ensureDirectory_ne_nullByte (nullFree : path.NullFree) (mode : Nat) :
    tree.ensureDirectory path mode time ≠ .error .nullByte := by
  have created : tree.create path (.directory mode time) time ≠ .error .nullByte :=
    create_ne_nullByte nullFree (.directory mode time)
  rw [ensureDirectory]
  split
  · rintro ⟨⟩
  · rintro ⟨⟩
  · rename_i refused
    exact absurd refused created
  · split
    · rintro ⟨⟩
    · rename_i error _ _ refused _ _
      intro same
      rw [Except.error.inj same] at refused
      exact created refused
    · rename_i refused
      intro same
      rw [Except.error.inj same] at refused
      exact test_ne_nullByte tree _ path refused

theorem unlink_ne_nullByte (nullFree : path.NullFree) :
    tree.unlink path time ≠ .error .nullByte := by
  apply bind_ne_error (entry_ne_nullByte nullFree)
  rintro ⟨parent, step⟩
  cases step with
  | enter text =>
      apply bind_ne_error (entryNamed_ne_nullByte tree parent text)
      rintro ⟨location, held⟩
      cases held with
      | none => rintro ⟨⟩
      | some node =>
          simp only
          split
          · rintro ⟨⟩
          · split <;> rintro ⟨⟩
  | arrive => rintro ⟨⟩
  | stay => rintro ⟨⟩
  | up => rintro ⟨⟩

theorem rename_ne_nullByte (sourceFree : source.NullFree) (targetFree : target.NullFree) :
    tree.rename source target time ≠ .error .nullByte := by
  apply bind_ne_error (entry_ne_nullByte sourceFree)
  rintro ⟨sourceParent, sourceStep⟩
  apply bind_ne_error (entry_ne_nullByte targetFree)
  rintro ⟨targetParent, targetStep⟩
  simp only
  split
  · apply bind_ne_error (entryNamed_ne_nullByte tree _ _)
    rintro ⟨origin, held⟩
    cases held with
    | none => rintro ⟨⟩
    | some node =>
        apply bind_ne_error (entryNamed_ne_nullByte tree _ _)
        rintro ⟨destination, replaced⟩
        simp only
        split
        · rintro ⟨⟩
        · split <;> rintro ⟨⟩
  · rintro ⟨⟩

end Tree

namespace Path

variable {path : Path} {part : Part}

theorem NullFree.parent (nullFree : path.NullFree) : path.parent.NullFree :=
  fun part among => nullFree part (List.mem_of_mem_dropLast among)

theorem NullFree.child (nullFree : path.NullFree) (free : Symbol.char '\x00' ∉ part.text.toList) :
    (path.child part).NullFree := by
  intro other among
  rcases List.mem_append.mp among with inside | last
  · exact nullFree other inside
  · rw [List.mem_singleton.mp last]
    exact free

theorem NullFree.absolute (nullFree : path.NullFree) : path.absolute.NullFree := by
  have collected (parts above : List Part) : ∀ part ∈ parts.foldl
      (fun parts part => if part = Part.up then parts.tail else part :: parts) above,
        part ∈ parts ∨ part ∈ above := by
    induction parts generalizing above with
    | nil => exact fun part among => Or.inr among
    | cons first rest ih =>
        intro part among
        rcases ih _ part among with later | inside
        · exact Or.inl (List.mem_cons_of_mem first later)
        · simp only at inside
          split at inside
          · exact Or.inr (List.mem_of_mem_tail inside)
          · rcases List.mem_cons.mp inside with rfl | further
            · exact Or.inl List.mem_cons_self
            · exact Or.inr further
  intro part among
  rcases collected path.parts [] part (List.mem_reverse.mp among) with inside | none
  · exact nullFree part inside
  · cases none

theorem NullFree.name (nullFree : path.NullFree) : Symbol.char '\x00' ∉ path.name.toList := by
  rw [Path.name]
  split
  · decide
  · rename_i part last
    exact nullFree part (List.mem_of_getLast? last)

theorem NullFree.temporary (nullFree : path.NullFree) (token : Token) :
    (path.temporary token).NullFree := by
  rw [temporary_eq_child]
  apply nullFree.parent.absolute.child
  rw [null_mem_temporaryText_iff]
  exact nullFree.name

end Path

namespace TreeAction

variable {tree after : Tree} {output : Path} {text : Text} {mode : Nat} {draw : Draw}
  {time : Timestamp} {paths : List Path}

theorem change_ne_nullByte {about : List Path} {operation : Tree → Except AccessError Tree}
    (coded : operation tree ≠ .error .nullByte) :
    change about operation tree ≠ .error (.refused .nullByte paths) after := by
  cases done : operation tree with
  | ok next =>
      rw [change_of_ok done]
      rintro ⟨⟩
  | error other =>
      rw [change_of_error done]
      intro same
      cases same
      exact coded done

theorem makeDirectories_ne_nullByte {anchor : Anchor} {parts : List Part}
    (nullFree : ∀ part ∈ parts, Symbol.char '\x00' ∉ part.text.toList) :
    makeDirectories anchor mode time parts tree ≠ .error (.refused .nullByte paths) after := by
  induction parts generalizing tree after with
  | nil =>
      apply change_ne_nullByte
      apply Tree.ensureDirectory_ne_nullByte
      intro part among
      cases among
  | cons part above ih =>
      have pathFree : (directoryPath anchor (part :: above)).NullFree :=
        fun other among => nullFree other (List.mem_reverse.mp among)
      have higher := fun other among => nullFree other (List.mem_cons_of_mem part among)
      rcases makeDirectories_cons_cases anchor mode time part above tree with
        ⟨made, _, done⟩ | ⟨error, _, refused, failed⟩ | ⟨_, again⟩
      · rw [done]
        rintro ⟨⟩
      · rw [failed]
        intro same
        cases same
        exact Tree.ensureDirectory_ne_nullByte pathFree mode refused
      · rw [again]
        cases outer : makeDirectories anchor mode time above tree with
        | error mishap middle =>
            rw [bind_of_error outer]
            intro same
            cases same
            exact ih higher outer
        | ok _ middle =>
            rw [bind_of_ok outer]
            exact change_ne_nullByte (Tree.ensureDirectory_ne_nullByte pathFree mode)

theorem makeTemporary_ne_nullByte (nullFree : output.NullFree) :
    makeTemporary output draw time tree ≠ .error (.refused .nullByte paths) after := by
  rcases makeTemporary_cases output draw time tree with ⟨_, ends⟩ | ⟨token, _, ends⟩
  · rw [ends]
    rintro ⟨⟩
  · rw [ends]
    have created : createTemporary (output.temporary token) time tree ≠ .error .nullByte :=
      Tree.create_ne_nullByte (nullFree.temporary token) _
    cases result : createTemporary (output.temporary token) time tree with
    | ok started => rintro ⟨⟩
    | error error =>
        intro same
        cases same
        exact created result

/-- No step of replacing a file fails for a null character. -/
theorem replaceFile_ne_nullByte (nullFree : output.NullFree) :
    replaceFile output text mode draw time tree ≠ .error (.refused .nullByte paths) after := by
  intro failed
  cases directories : makeDirectories output.anchor mode time output.parent.parts.reverse
    tree with
  | error mishap made =>
      rw [replaceFile_of_error directories] at failed
      cases failed
      exact makeDirectories_ne_nullByte
        (fun part among => nullFree.parent part (List.mem_reverse.mp among)) directories
  | ok _ made =>
      have ending := ending_of_makeDirectories text draw directories
      rw [failed] at ending
      cases ending with
      | unstarted refused => exact makeTemporary_ne_nullByte nullFree refused
      | undone holds refused removed =>
          exact Tree.rename_ne_nullByte (nullFree.temporary _) nullFree refused

end TreeAction

end MessageTables
