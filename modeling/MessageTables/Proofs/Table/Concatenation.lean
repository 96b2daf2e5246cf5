import MessageTables.Proofs.Table.FirstFault

/-!
# Tables one behind the other

Two texts with a line feed between them are read as the one and then the other:
their records follow each other, the first text decides if it is no table, and a
fault of the second is told with the lines before it added to its number.

The line feed is a break of its own unless the first text ends with a carriage
return. The two then make one break, so there is a line less before the second
text. What makes both cases alike is that in either the lines of the whole are
those of some text before the break, and then those of the second.
-/

namespace MessageTables

/-- The position that is some lines further down. -/
def Position.movedDown (count : Nat) (position : Position) : Position :=
  { position with line := position.line.map (· + count) }

/--
The rejection of the same line some lines further down. A code that is too long is told
without its line.
-/
def Rejection.movedDown (count : Nat) : Rejection → Rejection
  | .invalid error =>
      .invalid { error with position := error.position.map (Position.movedDown count) }
  | .oversizedCode digitCount => .oversizedCode digitCount

namespace Table

open Text (breakCount)

variable {source : Option Text} {position : Position} {count number : Nat} {line : List Symbol}
  {lines : List (List Symbol)} {text front rest : Text}

/-! ## Lines further down -/

theorem readLine_movedDown :
    readLine (position.movedDown count) line =
      (readLine position line).mapError (Rejection.movedDown count) := by
  unfold readLine
  split
  · unfold readFields
    split
    · rfl
    split
    · rfl
    · rfl
  · rfl

theorem readLines_movedDown :
    readLines source (number + count) lines =
      (readLines source number lines).mapError (Rejection.movedDown count) := by
  induction lines generalizing number with
  | nil => rfl
  | cons line lines ih =>
      have further : readLines source (number + count + 1) lines =
          (readLines source (number + 1) lines).mapError (Rejection.movedDown count) := by
        rw [Nat.add_right_comm]
        exact ih
      have moved : readLine ⟨source, some ↑(number + count)⟩ line =
          (readLine ⟨source, some number⟩ line).mapError (Rejection.movedDown count) := by
        rw [← readLine_movedDown]
        simp [Position.movedDown]
      rw [readLines, readLines, moved, further]
      split
      · rfl
      · cases readLine ⟨source, some number⟩ line with
        | error rejection => rfl
        | ok record =>
            cases readLines source (number + 1) lines with
            | error rejection => rfl
            | ok records => rfl

theorem readLines_append (earlier later : List (List Symbol)) :
    readLines source number (earlier ++ later) = (do
      let records ← readLines source number earlier
      let others ← readLines source (number + earlier.length) later
      return records ++ others) := by
  induction earlier generalizing number with
  | nil => exact (bind_pure (readLines source number later)).symm
  | cons line earlier ih =>
      have further := @ih (number + 1)
      rw [Nat.add_right_comm, Nat.add_assoc] at further
      rw [List.cons_append, readLines, readLines, further, List.length_cons]
      split
      · rfl
      · cases readLine ⟨source, some number⟩ line with
        | error rejection => rfl
        | ok record =>
            cases readLines source (number + 1) earlier with
            | error rejection => rfl
            | ok records =>
                cases readLines source (number + (earlier.length + 1)) later with
                | error rejection => rfl
                | ok others => rfl

/-- A text with the lines of one and then those of another is read as the one and then the other. -/
theorem parse_of_lines_eq_append
    (shape : Text.lines text.toList = Text.lines front.toList ++ Text.lines rest.toList) :
    parse text source = (do
      let records ← parse front source
      let others ← (parse rest source).mapError
        (Rejection.movedDown (Text.lines front.toList).length)
      return records ++ others) := by
  unfold parse
  rw [shape, readLines_append, readLines_movedDown]

/-! ## The seam -/

theorem lines_append_lineFeed (alone : front.toList.getLast? ≠ some '\r') :
    Text.lines (front ++ "\n" ++ rest).toList =
      Text.lines front.toList ++ Text.lines rest.toList := by
  have broken : Text.lines (front.toList ++ [Symbol.char '\n'] ++ rest.toList) =
      Text.lines front.toList ++ Text.lines rest.toList :=
    Text.lines_append_break .lineFeed (by simp) fun _ => alone
  simpa using broken

theorem lines_append_return_lineFeed (front rest : Text) :
    Text.lines (front ++ "\r" ++ "\n" ++ rest).toList =
      Text.lines front.toList ++ Text.lines rest.toList := by
  have broken : Text.lines (front.toList ++ [Symbol.char '\r', '\n'] ++ rest.toList) =
      Text.lines front.toList ++ Text.lines rest.toList :=
    Text.lines_append_break .both (by simp) (by simp)
  simpa using broken

theorem exists_append_return (ended : front.toList.getLast? = some (Symbol.char '\r')) :
    ∃ body : Text, front = body ++ "\r" := by
  rcases List.getLast?_eq_some_iff.mp ended with ⟨body, shape⟩
  refine ⟨Text.ofList body, Text.toList_inj.mp ?_⟩
  simpa using shape

/-- A return at the end of a text is a break with nothing behind it. -/
theorem parse_append_return (front : Text) (source : Option Text) :
    parse (front ++ "\r") source = parse front source := by
  have shape : Text.lines (front ++ "\r").toList =
      Text.lines front.toList ++ Text.lines ("" : Text).toList := by
    rw [Text.toList_append]
    exact Text.lines_append_return front.toList
  rw [parse_of_lines_eq_append shape]
  cases parse front source with
  | error rejection => rfl
  | ok records => exact congrArg Except.ok (List.append_nil records)

theorem exists_line_of_parse {error : TableError}
    (refused : parse text source = .error (.invalid error)) :
    ∃ line : Nat, 1 ≤ line ∧ line ≤ breakCount text.toList + 1 ∧
      error.position = some ⟨source, some line⟩ := by
  rcases parse_eq_error_iff.mp refused with ⟨before, line, behind, fault, refuses⟩
  rcases fault.exists_cut fault.apart with ⟨earlier, later, shape, count, _⟩
  have total := Text.length_lines text.toList
  rw [fault.whole, shape, List.length_append, List.length_cons, count, ← fault.whole] at total
  refine ⟨breakCount before + 1, Nat.le_add_left _ _, by omega, ?_⟩
  rw [refuses.position_eq]
  simp

/--
A line feed between two texts joins what they are read as. The first text is refused
as it is alone. A fault of the second, which is in one of its lines, is told of the
line that is as many lines further down as the first text has; one line less if the
first text ends with a return, as the line feed is then a part of its last break.
-/
theorem parse_append_lineFeed (front rest : Text) (source : Option Text) :
    parse (front ++ "\n" ++ rest) source = (do
      let records ← parse front source
      let others ← (parse rest source).mapError (Rejection.movedDown
        (if front.toList.getLast? = some (Symbol.char '\r') then breakCount front.toList
          else breakCount front.toList + 1))
      return records ++ others) ∧
    ∀ error, parse rest source = .error (.invalid error) →
      ∃ line : Nat, 1 ≤ line ∧ line ≤ breakCount rest.toList + 1 ∧
        error.position = some ⟨source, some line⟩ := by
  refine ⟨?_, fun error refused => exists_line_of_parse refused⟩
  by_cases ended : front.toList.getLast? = some (Symbol.char '\r')
  · rcases exists_append_return ended with ⟨body, rfl⟩
    have count : breakCount (body ++ "\r").toList = (Text.lines body.toList).length := by
      rw [Text.length_lines, Text.toList_append]
      exact Text.breakCount_append_return body.toList
    rw [if_pos ended, count, parse_append_return]
    exact parse_of_lines_eq_append (lines_append_return_lineFeed body rest)
  · rw [if_neg ended, ← Text.length_lines]
    exact parse_of_lines_eq_append (lines_append_lineFeed ended)

theorem parse_append_lineFeed_behind_return :
    parse "\n2,Pong" (some "base.csv") =
        .error (.invalid ⟨.malformedLine "2,Pong" 2, some ⟨some "base.csv", some 2⟩⟩) ∧
      parse ("1,Ping,base\r" ++ "\n" ++ "\n2,Pong") (some "base.csv") =
        .error (.invalid ⟨.malformedLine "2,Pong" 2, some ⟨some "base.csv", some 3⟩⟩) ∧
      ∃ line : Nat, 1 ≤ line ∧ line ≤ breakCount ("\n2,Pong" : Text).toList + 1 ∧
        (some ⟨some "base.csv", some 2⟩ : Option Position) =
          some ⟨some "base.csv", some line⟩ := by
  have accepted : parse "1,Ping,base\r" (some "base.csv") = .ok [⟨1, "Ping", "base_pb"⟩] := by
    cbv
  have refused : parse "\n2,Pong" (some "base.csv") =
      .error (.invalid ⟨.malformedLine "2,Pong" 2, some ⟨some "base.csv", some 2⟩⟩) := by
    cbv
  have joined := parse_append_lineFeed "1,Ping,base\r" "\n2,Pong" (some "base.csv")
  refine ⟨refused, ?_, joined.right _ refused⟩
  rw [joined.left, accepted, refused]
  rfl

end Table

end MessageTables
