import MessageTables.Proofs.Table.Format

/-!
# The first fault of a table

A text that is no table has a first line at fault: what is before the line is a
table, and the line is neither empty nor a row. The line decides alone how the
text is refused. What is behind it is never read, and what is before it only gives
the line its number, one more than there are line breaks before it.
-/

namespace MessageTables.Table

open Text (LineBreak StartsApart Unbroken breakCount)

/--
How a line that is no row is refused: for its fields, then for the first of them, then for
its length.
-/
inductive Refuses (position : Position) (line : List Symbol) : Rejection → Prop where
  | malformed (wrong : (fields line).length ≠ 3) :
      Refuses position line
        (.invalid ⟨.malformedLine (Text.ofList line) (fields line).length, some position⟩)
  | invalidCode {code name protocol : List Symbol} (shape : fields line = [code, name, protocol])
      (noNumber : Text.isDigits code = false) :
      Refuses position line (.invalid ⟨.invalidCode (Text.ofList code), some position⟩)
  | oversized {code name protocol : List Symbol} (shape : fields line = [code, name, protocol])
      (isNumber : Text.isDigits code = true) (long : digitLimit < code.length) :
      Refuses position line (.oversizedCode code.length)

/--
Whether a text has a line at fault, without a fault before it: a table, the line, and what
is behind the line.
-/
structure FirstFault (text front line rest : List Symbol) : Prop where
  whole : text = front ++ line ++ rest
  closed : ∀ character ∈ front.getLast?, Text.isBreak character = true
  unbroken : Unbroken line
  apart : StartsApart Text.isBreak rest
  filled : line ≠ []
  noRow : ∀ row : Row, ¬ row.WrittenAs line
  table : ∃ rows, Writing rows front

variable {source : Option Text} {position : Position} {number : Nat} {rows : List Row}
  {line text front rest : List Symbol} {lines earlier later : List (List Symbol)}
  {rejection : Rejection}

theorem refuses_of_readLine (refused : readLine position line = .error rejection) :
    Refuses position line rejection := by
  unfold readLine at refused
  split at refused
  · rename_i code name protocol shape
    unfold readFields at refused
    split at refused
    · rename_i noNumber
      cases refused
      exact .invalidCode shape (by simpa using noNumber)
    split at refused
    · rename_i isNumber long
      cases refused
      exact .oversized shape (by simpa using isNumber) long
    · cases refused
  · rename_i other
    cases refused
    refine .malformed fun three => ?_
    rcases List.length_eq_three.mp three with ⟨code, name, protocol, shape⟩
    exact other code name protocol shape

theorem readLine_of_refuses (refuses : Refuses position line rejection) :
    readLine position line = .error rejection := by
  cases refuses with
  | malformed wrong =>
      unfold readLine
      split
      · rename_i shape
        exact absurd (congrArg List.length shape) wrong
      · rfl
  | invalidCode shape noNumber => simp [readLine, shape, readFields, noNumber]
  | oversized shape isNumber long => simp [readLine, shape, readFields, isNumber, long]

/-- A line is refused in one way only. -/
theorem Refuses.eq {other : Rejection} (refuses : Refuses position line rejection)
    (alike : Refuses position line other) : rejection = other :=
  Except.error.inj ((readLine_of_refuses refuses).symm.trans (readLine_of_refuses alike))

theorem exists_refuses (unbroken : Unbroken line) (noRow : ∀ row : Row, ¬ row.WrittenAs line)
    (position : Position) :
    ∃ rejection, readLine position line = .error rejection ∧ Refuses position line rejection := by
  cases read : readLine position line with
  | error rejection => exact ⟨rejection, rfl, refuses_of_readLine read⟩
  | ok record =>
      rcases (readLine_eq_ok_iff unbroken).mp read with ⟨row, written, _⟩
      exact absurd written (noRow row)

/-! ## What is read before a fault -/

theorem readLines_append_eq_error
    (written : List.Forall₂ Row.WrittenAs rows (earlier.filter (!·.isEmpty)))
    (filled : line ≠ [])
    (refused : readLine ⟨source, some ↑(number + earlier.length)⟩ line = .error rejection) :
    readLines source number (earlier ++ line :: later) = .error rejection := by
  induction earlier generalizing number rows with
  | nil =>
      rw [List.nil_append, readLines, if_neg (by simpa using filled)]
      rw [List.length_nil, Nat.add_zero] at refused
      rw [refused]
  | cons first earlier ih =>
      rw [List.length_cons, Nat.add_comm earlier.length, ← Nat.add_assoc] at refused
      rw [List.cons_append, readLines]
      split
      · rename_i blank
        rw [List.filter_cons, if_neg (by simpa using blank)] at written
        exact ih written refused
      · rename_i nonempty
        rw [List.filter_cons, if_pos (by simpa using nonempty)] at written
        rcases List.forall₂_cons_right_iff.mp written with ⟨row, others, isRow, further, rfl⟩
        have read : readLine ⟨source, some number⟩ first = .ok row.record :=
          (readLine_eq_ok_iff isRow.isPiece.free).mpr ⟨row, isRow, rfl⟩
        rw [read, ih further refused]

/-- The lines of a text are blank or rows, or there is a first that is neither. -/
theorem exists_rows_or_exists_fault (lines : List (List Symbol)) :
    (∃ rows, List.Forall₂ Row.WrittenAs rows (lines.filter (!·.isEmpty))) ∨
      ∃ earlier line later, lines = earlier ++ line :: later ∧ line ≠ [] ∧
        (∀ row : Row, ¬ row.WrittenAs line) ∧
          ∃ rows, List.Forall₂ Row.WrittenAs rows (earlier.filter (!·.isEmpty)) := by
  induction lines with
  | nil => exact Or.inl ⟨[], .nil⟩
  | cons line lines ih =>
      by_cases blank : line = []
      · subst blank
        rcases ih with passed | ⟨earlier, fault, later, rfl, others⟩
        · exact Or.inl passed
        · exact Or.inr ⟨[] :: earlier, fault, later, rfl, others⟩
      by_cases isRow : ∃ row : Row, row.WrittenAs line
      · rcases isRow with ⟨row, written⟩
        have kept (others : List (List Symbol)) :
            (line :: others).filter (!·.isEmpty) = line :: others.filter (!·.isEmpty) := by
          rw [List.filter_cons, if_pos (by simpa using blank)]
        rcases ih with ⟨rows, passed⟩ | ⟨earlier, fault, later, rfl, filled, noRow, rows, passed⟩
        · left
          rw [kept]
          exact ⟨row :: rows, .cons written passed⟩
        · right
          refine ⟨line :: earlier, fault, later, rfl, filled, noRow, row :: rows, ?_⟩
          rw [kept]
          exact .cons written passed
      · exact Or.inr ⟨[], line, lines, rfl, blank, not_exists.mp isRow, [], .nil⟩

theorem filter_closed (earlier : List (List Symbol)) :
    (earlier ++ [[]]).filter (!·.isEmpty) = earlier.filter (!·.isEmpty) := by
  simp

/-! ## The fault of a text -/

theorem exists_firstFault {text : Text} (refused : ∀ records, parse text source ≠ .ok records) :
    ∃ front line rest, FirstFault text.toList front line rest := by
  have cut := Text.cut_lines text.toList
  rcases exists_rows_or_exists_fault (Text.lines text.toList) with
    ⟨rows, passed⟩ | ⟨earlier, line, later, shape, filled, noRow, rows, passed⟩
  · exact absurd ((readLines_eq_ok_iff cut.unbroken).mpr ⟨rows, passed, rfl⟩) (refused _)
  · rw [shape] at cut
    rcases cut.exists_front with ⟨front, rest, whole, closed, unbroken, apart⟩
    refine ⟨front, line, rest, whole, closed.isBreak_getLast?, unbroken, apart, filled, noRow,
      rows, ?_⟩
    rw [writing_iff, closed.pieces_eq, filter_closed]
    exact passed

/-- The lines of a text with a fault, also when there is another text behind the faulty line. -/
theorem FirstFault.exists_cut (fault : FirstFault text front line rest) {behind : List Symbol}
    (apart : StartsApart Text.isBreak behind) :
    ∃ earlier later, Text.lines (front ++ line ++ behind) = earlier ++ line :: later ∧
      earlier.length = breakCount front ∧
        ∃ rows, List.Forall₂ Row.WrittenAs rows (earlier.filter (!·.isEmpty)) := by
  have frontCut := Text.cut_lines front
  rcases frontCut.exists_earlier fault.closed with ⟨earlier, shape⟩
  rw [shape] at frontCut
  have count := frontCut.length_eq
  rw [List.length_append, List.length_singleton, Nat.add_right_cancel_iff] at count
  rcases fault.table with ⟨rows, writing⟩
  have written := writing_iff.mp writing
  rw [frontCut.pieces_eq, filter_closed] at written
  rcases Text.exists_cut_append fault.unbroken apart with ⟨later, lineCut⟩
  have begins : (line ++ behind).head? ≠ some '\n' := by
    intro first
    rw [List.head?_append_of_ne_nil _ fault.filled] at first
    exact absurd (fault.unbroken '\n' (List.mem_of_mem_head? first)) (by decide)
  have whole := frontCut.append begins lineCut
  rw [← List.append_assoc] at whole
  exact ⟨earlier, later, Text.lines_eq_iff.mpr whole, count, rows, written⟩

/-- The faulty line decides how the text is refused, whatever is behind it. -/
theorem FirstFault.exists_refuses (fault : FirstFault text front line rest)
    (source : Option Text) :
    ∃ rejection, Refuses ⟨source, some (breakCount front + 1)⟩ line rejection ∧
      ∀ behind, StartsApart Text.isBreak behind →
        parse (Text.ofList (front ++ line ++ behind)) source = .error rejection := by
  rcases Table.exists_refuses fault.unbroken fault.noRow
    ⟨source, some (breakCount front + 1)⟩ with ⟨rejection, refused, refuses⟩
  refine ⟨rejection, refuses, fun behind apart => ?_⟩
  rcases fault.exists_cut apart with ⟨earlier, later, shape, count, rows, written⟩
  unfold parse
  rw [Text.toList_ofList, shape]
  apply readLines_append_eq_error written fault.filled
  rw [← refused, count, Nat.add_comm]
  rfl

/-- A rejection is always that of the first line at fault. -/
theorem parse_eq_error_iff {text : Text} :
    parse text source = .error rejection ↔
      ∃ front line rest, FirstFault text.toList front line rest ∧
        Refuses ⟨source, some (breakCount front + 1)⟩ line rejection := by
  have told {front line rest : List Symbol} (fault : FirstFault text.toList front line rest) :
      ∃ found, Refuses ⟨source, some (breakCount front + 1)⟩ line found ∧
        parse text source = .error found := by
    rcases fault.exists_refuses source with ⟨found, refuses, always⟩
    have here := always rest fault.apart
    rw [← fault.whole, Text.ofList_toList] at here
    exact ⟨found, refuses, here⟩
  constructor
  · intro refused
    have noTable : ∀ records, parse text source ≠ .ok records := by
      intro records accepted
      rw [refused] at accepted
      cases accepted
    rcases exists_firstFault noTable with ⟨front, line, rest, fault⟩
    rcases told fault with ⟨found, refuses, parsed⟩
    cases refused.symm.trans parsed
    exact ⟨front, line, rest, fault, refuses⟩
  · rintro ⟨front, line, rest, fault, refuses⟩
    rcases told fault with ⟨found, others, parsed⟩
    rw [parsed, refuses.eq others]

theorem Refuses.position_eq {error : TableError}
    (refuses : Refuses position line (.invalid error)) :
    error.position = some position := by
  cases refuses with
  | malformed => rfl
  | invalidCode => rfl

/--
A text that is no table is refused for its first line at fault, under the number of
that line. Behind the line's break any other text would do, and what is told of a
faulty table with a path begins with the path and that number.
-/
theorem refused_for_firstFault (text : Text) (source : Option Text)
    (refused : ∀ records, parse text source ≠ .ok records) :
    (∃ front line rest, FirstFault text.toList front line rest) ∧
    ∀ front line rest, FirstFault text.toList front line rest →
      (Text.lines text.toList)[breakCount front]? = some line ∧
      ∃ rejection, parse text source = .error rejection ∧
        Refuses ⟨source, some (breakCount front + 1)⟩ line rejection ∧
        (∀ ending other, LineBreak ending →
          parse (Text.ofList (front ++ line ++ ending ++ other)) source = .error rejection) ∧
        ∀ error path, rejection = .invalid error → source = some path →
          error.text = path ++ ":" ++ Text.numeral (breakCount front + 1) ++ ": " ++
            error.fault.message := by
  refine ⟨exists_firstFault refused, fun front line rest fault => ⟨?_, ?_⟩⟩
  · rcases fault.exists_cut fault.apart with ⟨earlier, later, shape, count, _⟩
    rw [fault.whole, shape, ← count]
    simp
  rcases fault.exists_refuses source with ⟨rejection, refuses, always⟩
  refine ⟨rejection, ?_, refuses, ?_, ?_⟩
  · have here := always rest fault.apart
    rwa [← fault.whole, Text.ofList_toList] at here
  · intro ending other broken
    have replaced := always (ending ++ other) (broken.startsApart other)
    rwa [← List.append_assoc] at replaced
  · rintro error path rfl rfl
    cases refuses with
    | malformed => rfl
    | invalidCode => rfl

theorem refused_for_firstFault_third_line :
    (∀ records, parse "1,Ping,base\r\n\r2,Pong\n,x" (some "base.csv") ≠ .ok records) ∧
      ∃ front line rest rejection,
        FirstFault ("1,Ping,base\r\n\r2,Pong\n,x" : Text).toList front line rest ∧
        parse "1,Ping,base\r\n\r2,Pong\n,x" (some "base.csv") = .error rejection ∧
        rejection = .invalid ⟨.malformedLine "2,Pong" 2, some ⟨some "base.csv", some 3⟩⟩ ∧
        Refuses ⟨some "base.csv", some (breakCount front + 1)⟩ line rejection := by
  have outcome : parse "1,Ping,base\r\n\r2,Pong\n,x" (some "base.csv") =
      .error (.invalid ⟨.malformedLine "2,Pong" 2, some ⟨some "base.csv", some 3⟩⟩) := by
    cbv
  have refused : ∀ records,
      parse "1,Ping,base\r\n\r2,Pong\n,x" (some "base.csv") ≠ .ok records := by
    intro records accepted
    rw [outcome] at accepted
    cases accepted
  have described := refused_for_firstFault _ _ refused
  rcases described.left with ⟨front, line, rest, fault⟩
  rcases described.right front line rest fault with ⟨_, rejection, same, refuses, _⟩
  exact ⟨refused, front, line, rest, rejection, fault, same,
    Except.error.inj (same.symm.trans outcome), refuses⟩

end MessageTables.Table
