import MessageTables.Proofs.Table.Parsing
import MessageTables.Proofs.Text.Breaks

/-!
# The format of tables

`Writing` says how rows are written as a table: what is between two commas, two
rows or at either end may be repeated, and every line break may be written in any
of its three ways. A table is read exactly when it is such a writing, and the
records are the rows that were written.

Both directions go through pieces. A line is written for a row when its pieces
between commas are the row's fields, and a text is written for rows when its
pieces between line breaks are lines written for them, so no proof here looks
at single characters.
-/

namespace MessageTables.Table

open Text (Breaks LineBreak StartsApart Unbroken pieces)

/-! ## Rows and how they are written -/

/-- What a field of a row is: characters, none of which separates fields or lines. -/
structure IsField (field : List Symbol) : Prop where
  nonempty : field ≠ []
  free : ∀ character ∈ field, character ≠ ',' ∧ character ≠ '\r' ∧ character ≠ '\n'

/-- What a line of a table says: the digits of a code, a name and a protocol. -/
structure Row where
  digits : List Symbol
  name : List Symbol
  protocol : List Symbol
  isNumber : Text.isDigits digits = true
  short : digits.length ≤ digitLimit
  isName : IsField name
  isProtocol : IsField protocol

namespace Row

/-- The record that a row gives. -/
def record (row : Row) : Record where
  code := Text.digitsValue row.digits
  name := Text.ofList row.name
  decoder := Record.decoderOf (Text.ofList row.protocol)

/--
Whether a line is the three fields of a row with commas between them, and perhaps around
them.
-/
def WrittenAs (row : Row) (line : List Symbol) : Prop :=
  ∃ before between further behind : Nat,
    line = List.replicate before (Symbol.char ',') ++ row.digits ++
      List.replicate (between + 1) (Symbol.char ',') ++ row.name ++
      List.replicate (further + 1) (Symbol.char ',') ++ row.protocol ++
      List.replicate behind (Symbol.char ',')

end Row

/--
The texts that rows may be written as: a line for each row, with line breaks between them
and perhaps around them.
-/
inductive Writing : List Row → List Symbol → Prop where
  | blank {text : List Symbol} (breaks : Breaks text) : Writing [] text
  | last {row : Row} {before line behind : List Symbol} (leading : Breaks before)
      (written : row.WrittenAs line) (trailing : Breaks behind) :
      Writing [row] (before ++ line ++ behind)
  | more {row next : Row} {rows : List Row} {before line between rest : List Symbol}
      (leading : Breaks before) (written : row.WrittenAs line) (separated : Breaks between)
      (several : between ≠ []) (further : Writing (next :: rows) rest) :
      Writing (row :: next :: rows) (before ++ line ++ between ++ rest)

variable {source : Option Text} {position : Position} {number : Nat} {row : Row}
  {rows : List Row} {line text before between rest : List Symbol} {lines : List (List Symbol)}
  {record : Record} {records : List Record} {rejection : Rejection}

/-! ## A line and its fields -/

theorem IsField.isPiece (isField : IsField text) : Text.IsPiece (· == Symbol.char ',') text where
  nonempty := isField.nonempty
  free character inside := by simpa using (isField.free character inside).left

theorem IsField.unbroken (isField : IsField text) : Unbroken text := by
  intro character inside
  rcases isField.free character inside with ⟨_, noReturn, noFeed⟩
  simp [Text.isBreak, noReturn, noFeed]

theorem isField_of_isPiece (isPiece : Text.IsPiece (· == Symbol.char ',') text)
    (unbroken : Unbroken text) :
    IsField text where
  nonempty := isPiece.nonempty
  free character inside := by
    have ordinary := unbroken character inside
    exact ⟨by simpa using isPiece.free character inside,
      fun same => by simp [same, Text.isBreak] at ordinary,
      fun same => by simp [same, Text.isBreak] at ordinary⟩

theorem isField_of_isDigits (digits : Text.isDigits text = true) : IsField text where
  nonempty := (Text.isDigits_iff.mp digits).left
  free character inside := by
    have digit := (Text.isDigits_iff.mp digits).right character inside
    refine ⟨?_, ?_, ?_⟩ <;>
    · rintro rfl
      exact absurd digit (by decide)

theorem eq_replicate_of_commas
    (commas : ∀ character ∈ text, (character == Symbol.char ',') = true) :
    text = List.replicate text.length (Symbol.char ',') :=
  List.eq_replicate_of_mem fun character inside => eq_of_beq (commas character inside)

theorem commas_replicate (count : Nat) :
    ∀ character ∈ List.replicate count (Symbol.char ','), (character == Symbol.char ',') = true :=
  fun _ inside => beq_of_eq (List.eq_of_mem_replicate inside)

theorem startsApart_commas (count : Nat) (text : List Symbol) :
    StartsApart (· == Symbol.char ',') (List.replicate (count + 1) (Symbol.char ',') ++ text) := by
  rintro _ ⟨⟩
  rfl

theorem fields_of_isPiece (count : Nat) (isPiece : Text.IsPiece (· == Symbol.char ',') text)
    (apart : StartsApart (· == Symbol.char ',') rest) :
    fields (List.replicate count (Symbol.char ',') ++ (text ++ rest)) = text :: fields rest :=
  (Text.pieces_append_of_separators (commas_replicate count) _).trans
    (Text.pieces_append isPiece apart)

theorem exists_of_fields_eq_cons {others : List (List Symbol)}
    (shape : fields line = text :: others) :
    ∃ count rest, line = List.replicate count (Symbol.char ',') ++ (text ++ rest) ∧
      Text.IsPiece (· == Symbol.char ',') text ∧ StartsApart (· == Symbol.char ',') rest ∧
      fields rest = others := by
  rcases Text.exists_of_pieces_eq_cons shape with
    ⟨before, rest, rfl, commas, isPiece, apart, behind⟩
  refine ⟨before.length, rest, ?_, isPiece, apart, behind⟩
  rw [← eq_replicate_of_commas commas, List.append_assoc]

/-- The same behind a field, where there is a comma at least. -/
theorem exists_of_startsApart {others : List (List Symbol)}
    (apart : StartsApart (· == Symbol.char ',') line) (shape : fields line = text :: others) :
    ∃ count rest, line = List.replicate (count + 1) (Symbol.char ',') ++ (text ++ rest) ∧
      Text.IsPiece (· == Symbol.char ',') text ∧ StartsApart (· == Symbol.char ',') rest ∧
      fields rest = others := by
  have filled : pieces (· == Symbol.char ',') line ≠ [] :=
    ne_of_eq_of_ne shape (List.cons_ne_nil _ _)
  rcases apart.exists_separator filled with ⟨separator, behind, rfl, comma, same⟩
  rcases exists_of_fields_eq_cons (same.trans shape) with ⟨count, rest, rfl, others⟩
  refine ⟨count, rest, ?_, others⟩
  rw [eq_of_beq comma]
  rfl

theorem fields_eq_three_iff {code name protocol : List Symbol} :
    fields line = [code, name, protocol] ↔
      (Text.IsPiece (· == Symbol.char ',') code ∧ Text.IsPiece (· == Symbol.char ',') name ∧
        Text.IsPiece (· == Symbol.char ',') protocol) ∧
      ∃ before between further behind : Nat,
        line = List.replicate before (Symbol.char ',') ++ code ++
          List.replicate (between + 1) (Symbol.char ',') ++ name ++
          List.replicate (further + 1) (Symbol.char ',') ++ protocol ++
          List.replicate behind (Symbol.char ',') := by
  simp only [List.append_assoc]
  constructor
  · intro shape
    rcases exists_of_fields_eq_cons shape with ⟨before, rest, rfl, isCode, apart, shape⟩
    rcases exists_of_startsApart apart shape with ⟨between, rest, rfl, isName, apart, shape⟩
    rcases exists_of_startsApart apart shape with ⟨further, rest, rfl, isProtocol, _, shape⟩
    have commas := Text.pieces_eq_nil_iff.mp shape
    refine ⟨⟨isCode, isName, isProtocol⟩, before, between, further, rest.length, ?_⟩
    rw [← eq_replicate_of_commas commas]
  · rintro ⟨⟨isCode, isName, isProtocol⟩, before, between, further, behind, rfl⟩
    have ending : StartsApart (· == Symbol.char ',')
        (List.replicate behind (Symbol.char ',')) := fun character first =>
      commas_replicate behind character (List.mem_of_mem_head? first)
    have nothing : fields (List.replicate behind (Symbol.char ',')) = [] :=
      Text.pieces_of_separators (commas_replicate behind)
    rw [fields_of_isPiece _ isCode (startsApart_commas _ _),
      fields_of_isPiece _ isName (startsApart_commas _ _), fields_of_isPiece _ isProtocol ending,
      nothing]

theorem Row.writtenAs_iff :
    row.WrittenAs line ↔ fields line = [row.digits, row.name, row.protocol] := by
  rw [fields_eq_three_iff]
  have isRow := And.intro (isField_of_isDigits row.isNumber).isPiece
    (And.intro row.isName.isPiece row.isProtocol.isPiece)
  exact (and_iff_right isRow).symm

theorem Row.WrittenAs.isPiece (written : row.WrittenAs line) :
    Text.IsPiece Text.isBreak line where
  nonempty := by
    rintro rfl
    cases Row.writtenAs_iff.mp written
  free character inside := by
    rcases written with ⟨before, between, further, behind, rfl⟩
    simp only [List.mem_append, List.mem_replicate] at inside
    rcases inside with (((((comma | digit) | comma) | letter) | comma) | letter) | comma
    · rw [comma.right]
      decide
    · exact (isField_of_isDigits row.isNumber).unbroken character digit
    · rw [comma.right]
      decide
    · exact row.isName.unbroken character letter
    · rw [comma.right]
      decide
    · exact row.isProtocol.unbroken character letter
    · rw [comma.right]
      decide

/-- A line gives a record exactly when it is a row's, and the record is that row's. -/
theorem readLine_eq_ok_iff (unbroken : Unbroken line) :
    readLine position line = .ok record ↔
      ∃ row : Row, row.WrittenAs line ∧ record = row.record := by
  constructor
  · intro read
    rcases readLine_eq_ok read with ⟨code, name, protocol, shape, digits, short, rfl⟩
    rcases fields_eq_three_iff.mp shape with ⟨⟨isCode, isName, isProtocol⟩, written⟩
    rcases written with ⟨before, between, further, behind, rfl⟩
    have nameUnbroken : Unbroken name := fun character inside =>
      unbroken character (by simp [inside])
    have protocolUnbroken : Unbroken protocol := fun character inside =>
      unbroken character (by simp [inside])
    exact ⟨⟨code, name, protocol, digits, short, isField_of_isPiece isName nameUnbroken,
      isField_of_isPiece isProtocol protocolUnbroken⟩,
      ⟨before, between, further, behind, rfl⟩, rfl⟩
  · rintro ⟨row, written, rfl⟩
    unfold readLine readFields
    rw [Row.writtenAs_iff.mp written]
    simp [row.isNumber, Nat.not_lt.mpr row.short, Row.record]

/-! ## Lines and texts -/

theorem readLines_cons_eq_ok_iff (filled : line ≠ []) :
    readLines source number (line :: lines) = .ok records ↔
      ∃ record others, readLine ⟨source, some number⟩ line = .ok record ∧
        readLines source (number + 1) lines = .ok others ∧ records = record :: others := by
  rw [readLines, if_neg (by simpa using filled)]
  cases readLine ⟨source, some number⟩ line with
  | error rejection => simp
  | ok record =>
      cases readLines source (number + 1) lines with
      | error rejection => simp
      | ok others => simp [eq_comm]

theorem readLines_eq_ok_iff (unbroken : ∀ line ∈ lines, Unbroken line) :
    readLines source number lines = .ok records ↔
      ∃ rows, List.Forall₂ Row.WrittenAs rows (lines.filter (!·.isEmpty)) ∧
        records = rows.map Row.record := by
  induction lines generalizing number records with
  | nil =>
      constructor
      · rintro ⟨⟩
        exact ⟨[], .nil, rfl⟩
      · rintro ⟨rows, written, rfl⟩
        cases written
        rfl
  | cons line lines ih =>
      have later := fun other inside => unbroken other (List.mem_cons_of_mem line inside)
      have alone := unbroken line List.mem_cons_self
      by_cases blank : line = []
      · subst blank
        exact ih later
      · have filled : (!line.isEmpty) = true := by
          simpa using blank
        rw [readLines_cons_eq_ok_iff blank, List.filter_cons, if_pos filled]
        constructor
        · rintro ⟨record, others, read, readOthers, rfl⟩
          rcases (readLine_eq_ok_iff alone).mp read with ⟨row, written, rfl⟩
          rcases (ih later).mp readOthers with ⟨rows, writtenOthers, rfl⟩
          exact ⟨row :: rows, .cons written writtenOthers, rfl⟩
        · rintro ⟨_, written, rfl⟩
          cases written with
          | cons first others =>
              exact ⟨_, _, (readLine_eq_ok_iff alone).mpr ⟨_, first, rfl⟩,
                (ih later).mpr ⟨_, others, rfl⟩, rfl⟩

theorem pieces_of_writtenAs (leading : Breaks before) (written : row.WrittenAs line)
    (apart : StartsApart Text.isBreak rest) :
    pieces Text.isBreak (before ++ line ++ rest) = line :: pieces Text.isBreak rest := by
  rw [List.append_assoc, Text.pieces_append_of_separators (Text.breaks_iff.mp leading),
    Text.pieces_append written.isPiece apart]

theorem startsApart_of_breaks (breaks : Breaks text) : StartsApart Text.isBreak text :=
  fun character first => Text.breaks_iff.mp breaks character (List.mem_of_mem_head? first)

theorem startsApart_append_of_breaks (breaks : Breaks between) (several : between ≠ []) :
    StartsApart Text.isBreak (between ++ rest) := by
  intro character first
  rw [List.head?_append_of_ne_nil _ several] at first
  exact startsApart_of_breaks breaks character first

theorem Writing.forall₂ (writing : Writing rows text) :
    List.Forall₂ Row.WrittenAs rows (pieces Text.isBreak text) := by
  induction writing with
  | blank breaks =>
      rw [Text.pieces_of_separators (Text.breaks_iff.mp breaks)]
      exact .nil
  | last leading written trailing =>
      rw [pieces_of_writtenAs leading written (startsApart_of_breaks trailing),
        Text.pieces_of_separators (Text.breaks_iff.mp trailing)]
      exact .cons written .nil
  | more leading written separated several further ih =>
      rw [List.append_assoc, pieces_of_writtenAs leading written
        (startsApart_append_of_breaks separated several),
        Text.pieces_append_of_separators (Text.breaks_iff.mp separated)]
      exact .cons written ih

theorem writing_of_forall₂ (written : List.Forall₂ Row.WrittenAs rows (pieces Text.isBreak text)) :
    Writing rows text := by
  induction rows generalizing text with
  | nil => exact .blank (Text.breaks_iff.mpr (Text.pieces_eq_nil_iff.mp
      (List.forall₂_nil_left_iff.mp written)))
  | cons row rows ih =>
      rcases List.forall₂_cons_left_iff.mp written with ⟨line, others, first, further, shape⟩
      rcases Text.exists_of_pieces_eq_cons shape with
        ⟨before, rest, rfl, separators, _, apart, rfl⟩
      have leading := Text.breaks_iff.mpr separators
      cases rows with
      | nil =>
          have none := List.forall₂_nil_left_iff.mp further
          exact .last leading first (Text.breaks_iff.mpr (Text.pieces_eq_nil_iff.mp none))
      | cons next rows =>
          have filled : pieces Text.isBreak rest ≠ [] := by
            intro none
            rw [none] at further
            cases further
          rcases apart.exists_separator filled with ⟨separator, behind, rfl, separates, same⟩
          have between : Breaks [separator] := Text.breaks_iff.mpr (by simpa using separates)
          have writing := ih (same ▸ further)
          have whole := Writing.more leading first between (List.cons_ne_nil _ _) writing
          rwa [List.append_assoc, List.singleton_append] at whole

theorem writing_iff :
    Writing rows text ↔ List.Forall₂ Row.WrittenAs rows (pieces Text.isBreak text) :=
  ⟨Writing.forall₂, writing_of_forall₂⟩

/--
A text is read as a table exactly when rows are written there, and the records are
those of the rows. So every record has a code that is not negative, a name that is a
field, and a decoder that is a field with `_pb` behind it.
-/
theorem parse_eq_ok_iff_writing (text : Text) (source : Option Text)
    (records : List Record) :
    (parse text source = .ok records ↔
      ∃ rows, Writing rows text.toList ∧ records = rows.map Row.record) ∧
    (parse text source = .ok records → ∀ record ∈ records,
      0 ≤ record.code ∧ IsField record.name.toList ∧
        ∃ protocol : Text, IsField protocol.toList ∧ record.decoder = protocol ++ "_pb") := by
  have cut := Text.cut_lines text.toList
  have format : parse text source = .ok records ↔
      ∃ rows, Writing rows text.toList ∧ records = rows.map Row.record := by
    simp only [writing_iff, cut.pieces_eq]
    exact readLines_eq_ok_iff cut.unbroken
  refine ⟨format, fun accepted record inside => ?_⟩
  rcases format.mp accepted with ⟨rows, _, rfl⟩
  rcases List.mem_map.mp inside with ⟨row, _, rfl⟩
  refine ⟨Int.natCast_nonneg _, ?_, Text.ofList row.protocol, ?_, rfl⟩
  · simpa [Row.record] using row.isName
  · simpa using row.isProtocol

theorem parse_eq_ok_iff_writing_mixed_breaks :
    parse "\r\n,007,,Hello,chat\n\r2,Bye,chat,\r" none =
        .ok [⟨7, "Hello", "chat_pb"⟩, ⟨2, "Bye", "chat_pb"⟩] ∧
      (∃ rows, Writing rows ("\r\n,007,,Hello,chat\n\r2,Bye,chat,\r" : Text).toList ∧
        [⟨7, "Hello", "chat_pb"⟩, ⟨2, "Bye", "chat_pb"⟩] = rows.map Row.record) ∧
      ∃ protocol : Text, IsField protocol.toList ∧ "chat_pb" = protocol ++ "_pb" := by
  have accepted : parse "\r\n,007,,Hello,chat\n\r2,Bye,chat,\r" none =
      .ok [⟨7, "Hello", "chat_pb"⟩, ⟨2, "Bye", "chat_pb"⟩] := by
    cbv
  have format := parse_eq_ok_iff_writing "\r\n,007,,Hello,chat\n\r2,Bye,chat,\r" none
    [⟨7, "Hello", "chat_pb"⟩, ⟨2, "Bye", "chat_pb"⟩]
  exact ⟨accepted, format.left.mp accepted,
    (format.right accepted _ List.mem_cons_self).right.right⟩

end MessageTables.Table
