import MessageTables.Text.Spelling

/-!
# Texts read from bytes

A text that is read from bytes is decoded, and so are its beginnings. To put two
such texts together could make a character of stray bytes on both sides; it does
not if the second text begins with a character.
-/

namespace MessageTables.Text

variable {symbols rest : List Symbol}

/-- A text that can be written has the bytes that every text has. -/
theorem eq_bytes_of_encode? {text : Text} {bytes : ByteArray}
    (encodes : text.encode? = some bytes) : bytes = text.bytes := by
  rw [encode?] at encodes
  split at encodes
  · cases encodes
  · exact (Option.some.inj encodes).symm

theorem exists_string_of_noStray (noStray : symbols.any Symbol.isStray = false) :
    ∃ string : String, ofList symbols = string := by
  induction symbols with
  | nil => exact ⟨"", rfl⟩
  | cons symbol symbols ih =>
      rw [List.any_cons, Bool.or_eq_false_iff] at noStray
      rcases ih noStray.2 with ⟨string, same⟩
      cases symbol with
      | stray byte => cases noStray.1
      | char value =>
          refine ⟨String.ofList (value :: string.toList), ext ?_⟩
          rw [toList_ofList, toList_ofString, String.toList_ofList, List.map_cons,
            ← toList_ofString, ← same]

/-- The bytes of characters are their UTF-8. -/
theorem encode?_ofString (string : String) : (ofString string).encode? = some string.toUTF8 := by
  have noStray : (ofString string).toList.any Symbol.isStray = false := by
    rw [toList_ofString, List.any_map]
    exact List.any_eq_false.mpr fun _ _ => Bool.false_ne_true
  have spelled : (ofString string).bytes = string.toByteArray := by
    rw [← String.utf8Encode_toList, bytes, toList_ofString, List.flatMap_map]
    rfl
  rw [encode?, noStray, spelled]
  rfl

/-- What is written to a file tells which text was written. -/
theorem eq_of_encode? {first second : Text} {bytes : ByteArray}
    (one : first.encode? = some bytes) (two : second.encode? = some bytes) : first = second := by
  have exists_string {text : Text} (encodes : text.encode? = some bytes) :
      ∃ string : String, text = string := by
    rw [encode?] at encodes
    split at encodes
    · cases encodes
    · exact exists_string_of_noStray (Bool.eq_false_iff.mpr ‹_›)
  rcases exists_string one with ⟨left, rfl⟩
  rcases exists_string two with ⟨right, rfl⟩
  rw [encode?_ofString] at one two
  rw [String.toByteArray_inj.mp (Option.some.inj (one.trans two.symm))]

/-- The bytes of no symbol are no character. -/
theorem isDecoded_char_cons (value : Char) (rest : List Symbol) :
    isDecoded (.char value :: rest) = isDecoded rest := by
  rw [isDecoded, leadingStrays]
  · rfl
  · rintro byte others ⟨⟩

theorem isDecoded_map_char (characters : List Char) :
    isDecoded (characters.map Symbol.char) = true := by
  induction characters with
  | nil => rfl
  | cons character rest ih => rw [List.map_cons, isDecoded_char_cons, ih]

theorem isDecoded_ofString (string : String) : IsDecoded string :=
  isDecoded_map_char string.toList

/-- The stray bytes that some symbols begin with are among those that they and more begin with. -/
theorem exists_leadingStrays_append (symbols rest : List Symbol) :
    ∃ more, leadingStrays (symbols ++ rest) = leadingStrays symbols ++ more := by
  induction symbols with
  | nil => exact ⟨leadingStrays rest, rfl⟩
  | cons symbol symbols ih =>
      cases symbol with
      | char value => exact ⟨[], rfl⟩
      | stray byte =>
          obtain ⟨more, whole⟩ := ih
          exact ⟨more, by rw [List.cons_append, leadingStrays, leadingStrays, whole,
            List.append_assoc]⟩

theorem isDecoded_of_append (decoded : isDecoded (symbols ++ rest) = true) :
    isDecoded symbols = true := by
  induction symbols with
  | nil => rfl
  | cons symbol symbols ih =>
      rw [List.cons_append, isDecoded, Bool.and_eq_true, Option.isNone_iff_eq_none] at decoded
      rw [isDecoded, Bool.and_eq_true, Option.isNone_iff_eq_none]
      refine ⟨?_, ih decoded.2⟩
      obtain ⟨more, whole⟩ := exists_leadingStrays_append (symbol :: symbols) rest
      rw [List.cons_append] at whole
      cases read : (leadingStrays (symbol :: symbols)).toByteArray.utf8DecodeChar? 0 with
      | none => rfl
      | some character =>
          have longer := ByteArray.utf8DecodeChar?_append_eq_some read more.toByteArray
          rw [← List.toByteArray_append, ← whole, decoded.1] at longer
          cases longer

theorem leadingStrays_append_char (symbols : List Symbol) (value : Char) (rest : List Symbol) :
    leadingStrays (symbols ++ .char value :: rest) = leadingStrays symbols := by
  induction symbols with
  | nil => rfl
  | cons symbol symbols ih =>
      cases symbol with
      | char other => rfl
      | stray byte => rw [List.cons_append, leadingStrays, leadingStrays, ih]

theorem isDecoded_append_char {value : Char} (decoded : isDecoded symbols = true)
    (further : isDecoded rest = true) : isDecoded (symbols ++ .char value :: rest) = true := by
  induction symbols with
  | nil => rw [List.nil_append, isDecoded_char_cons, further]
  | cons symbol symbols ih =>
      rw [isDecoded, Bool.and_eq_true] at decoded
      rw [List.cons_append, isDecoded, ← List.cons_append, leadingStrays_append_char, decoded.1,
        ih decoded.2]
      rfl

/-- A text read from bytes may be followed by any characters. -/
theorem IsDecoded.append_ofString {text : Text} (decoded : text.IsDecoded) (ending : String) :
    (text ++ ending).IsDecoded := by
  rw [IsDecoded, toList_append, toList_ofString]
  cases ending.toList with
  | nil => rw [List.map_nil, List.append_nil, decoded]
  | cons value rest => exact isDecoded_append_char decoded (isDecoded_map_char rest)

/-- Any characters may stand before a text read from bytes. -/
theorem IsDecoded.ofString_append {text : Text} (beginning : String) (decoded : text.IsDecoded) :
    (beginning ++ text).IsDecoded := by
  rw [IsDecoded, toList_append, toList_ofString]
  induction beginning.toList with
  | nil => exact decoded
  | cons value rest ih => rw [List.map_cons, List.cons_append, isDecoded_char_cons, ih]

end MessageTables.Text
