import MessageTables.Proofs.Generation.Stages
import MessageTables.Proofs.Table.Parsing

/-!
# Reading a table from a file

The breaks of a file are unified before it is parsed, and parsing takes every break as
it is written. Both see the same lines, so a file gives what its bytes give as a text:
the same records, or the same fault in the same line. A file that cannot be read gives
the reason, and in no case is anything changed.
-/

namespace MessageTables.Table

theorem parse_textOf (bytes : ByteArray) (source : Option Text) :
    parse (textOf bytes) source = parse (Text.ofList (Text.decodeBytes bytes)) source :=
  parse_unifyBreaks (Text.decodeBytes bytes) source

section Loaded

variable {tree : Tree} {path : Path} {bytes : ByteArray}

theorem loaded_of_unread {error : AccessError} (refused : tree.read path = .error error) :
    loaded tree path = .error (.ofAccess path.text error) := by
  rw [loaded, refused]

theorem loaded_of_rejected {rejection : Rejection} (read : tree.read path = .ok bytes)
    (refused : parse (Text.ofList (Text.decodeBytes bytes)) (some path.text) =
      .error rejection) :
    loaded tree path = .error (.ofRejection rejection) := by
  rw [loaded, read]
  simp only [parse_textOf, refused]
  rfl

theorem loaded_of_parsed {records : List Record} (read : tree.read path = .ok bytes)
    (parsed : parse (Text.ofList (Text.decodeBytes bytes)) (some path.text) = .ok records) :
    loaded tree path = .ok records := by
  rw [loaded, read]
  simp only [parse_textOf, parsed]
  rfl

theorem loaded_error_cases {failure : Failure} (unread : loaded tree path = .error failure) :
    (∃ error, tree.read path = .error error ∧ failure = .ofAccess path.text error) ∨
      ∃ bytes rejection, tree.read path = .ok bytes ∧
        parse (Text.ofList (Text.decodeBytes bytes)) (some path.text) = .error rejection ∧
        failure = .ofRejection rejection := by
  cases read : tree.read path with
  | error error =>
      rw [loaded_of_unread read] at unread
      cases unread
      exact Or.inl ⟨error, rfl, rfl⟩
  | ok bytes =>
      cases parsed : parse (Text.ofList (Text.decodeBytes bytes)) (some path.text) with
      | error rejection =>
          rw [loaded_of_rejected read parsed] at unread
          cases unread
          exact Or.inr ⟨bytes, rejection, rfl, parsed, rfl⟩
      | ok records =>
          rw [loaded_of_parsed read parsed] at unread
          cases unread

end Loaded

/-- A table file is read as the text that has the file's bytes for its characters. -/
theorem load_eq_parse (path : Path) (session : Session) :
    load path session =
      match session.tree.read path with
      | .error error => .error (.ofAccess path.text error) session
      | .ok bytes =>
          match parse (Text.ofList (Text.decodeBytes bytes)) (some path.text) with
          | .error rejection => .error (.ofRejection rejection) session
          | .ok records => .ok records session := by
  rw [load_eq, loaded]
  cases session.tree.read path with
  | error error => rfl
  | ok bytes =>
      simp only [parse_textOf]
      cases parse (Text.ofList (Text.decodeBytes bytes)) (some path.text) with
      | error rejection => rfl
      | ok records => rfl

end MessageTables.Table
