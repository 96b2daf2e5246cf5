import MessageTables.Text.Symbol

/-!
# Texts

A text is a row of symbols. What the program words itself is written as a
string and holds characters only; what names a file may hold stray bytes.

The symbols of a text are the form in which texts are reasoned about:
everything said here of texts is said of the lists of their symbols. Texts are
ordered like these, symbol by symbol.
-/

namespace MessageTables

/-- A row of symbols. -/
structure Text where
  ofList ::
  toList : List Symbol
  deriving DecidableEq, Repr

namespace Text

/-- The text of the characters of a string. -/
def ofString (string : String) : Text :=
  ofList (string.toList.map .char)

instance : Coe String Text :=
  ⟨ofString⟩

instance : Append Text :=
  ⟨fun left right => ofList (left.toList ++ right.toList)⟩

/-- The number of symbols of a text. -/
def length (text : Text) : Nat :=
  text.toList.length

/-- The number of bytes of a text. -/
def byteSize (text : Text) : Nat :=
  text.toList.foldr (fun symbol size => symbol.byteSize + size) 0

/-- Some texts one behind the other. -/
def join (texts : List Text) : Text :=
  ofList (texts.flatMap toList)

/-- Some texts with a text between each two of them. -/
def intercalate (separator : Text) : List Text → Text
  | [] => ""
  | [text] => text
  | text :: next :: rest => text ++ separator ++ intercalate separator (next :: rest)

instance : LT Text :=
  ⟨fun left right => List.lt (left.toList.map Symbol.code) (right.toList.map Symbol.code)⟩

instance : LE Text :=
  ⟨fun left right => List.le (left.toList.map Symbol.code) (right.toList.map Symbol.code)⟩

instance (left right : Text) : Decidable (left < right) :=
  List.decidableLex (· < ·) (left.toList.map Symbol.code) (right.toList.map Symbol.code)

@[simp] theorem toList_ofList (symbols : List Symbol) : (ofList symbols).toList = symbols :=
  rfl

@[simp] theorem ofList_toList (text : Text) : ofList text.toList = text :=
  rfl

@[simp] theorem toList_ofString (string : String) :
    (ofString string).toList = string.toList.map .char :=
  rfl

@[simp] theorem toList_append (left right : Text) :
    (left ++ right).toList = left.toList ++ right.toList :=
  rfl

@[ext] theorem ext {left right : Text} (symbols : left.toList = right.toList) : left = right :=
  congrArg ofList symbols

theorem toList_inj {left right : Text} : left.toList = right.toList ↔ left = right :=
  ⟨ext, congrArg toList⟩

theorem toList_eq_nil_iff {text : Text} : text.toList = [] ↔ text = "" :=
  ⟨fun none => ext none, congrArg toList⟩

@[simp] theorem append_empty (text : Text) : text ++ ofString "" = text :=
  ext (List.append_nil _)

theorem append_assoc (first second third : Text) :
    first ++ second ++ third = first ++ (second ++ third) :=
  ext (List.append_assoc ..)

/-! ## Sizes -/

@[simp] theorem byteSize_empty : (ofString "").byteSize = 0 :=
  rfl

theorem byteSize_cons (symbol : Symbol) (rest : List Symbol) :
    (ofList (symbol :: rest)).byteSize = symbol.byteSize + (ofList rest).byteSize :=
  rfl

@[simp] theorem byteSize_append (left right : Text) :
    (left ++ right).byteSize = left.byteSize + right.byteSize := by
  obtain ⟨symbols⟩ := left
  induction symbols with
  | nil => exact (Nat.zero_add _).symm
  | cons symbol rest ih =>
      have first : (ofList (symbol :: rest) ++ right).byteSize =
          symbol.byteSize + (ofList rest ++ right).byteSize :=
        byteSize_cons symbol (rest ++ right.toList)
      rw [first, ih, byteSize_cons, Nat.add_assoc]

/-- A text whose symbols take a byte each takes as many bytes as it has symbols. -/
theorem byteSize_eq_length {text : Text} (single : ∀ symbol ∈ text.toList, symbol.byteSize = 1) :
    text.byteSize = text.length := by
  obtain ⟨symbols⟩ := text
  induction symbols with
  | nil => rfl
  | cons symbol rest ih =>
      rw [toList_ofList, List.forall_mem_cons] at single
      rw [byteSize_cons, single.1, ih single.2, Nat.add_comm]
      rfl

theorem byteSize_eq_zero_iff {text : Text} : text.byteSize = 0 ↔ text = "" := by
  refine ⟨fun none => ?_, fun empty => empty ▸ rfl⟩
  obtain ⟨symbols⟩ := text
  cases symbols with
  | nil => rfl
  | cons symbol rest =>
      have : 0 < symbol.byteSize := by
        cases symbol with
        | char value => exact Char.utf8Size_pos value
        | stray byte => exact Nat.one_pos
      rw [byteSize_cons] at none
      omega

/-! ## Texts with a text between them -/

@[simp] theorem intercalate_nil (separator : Text) : intercalate separator [] = "" :=
  rfl

@[simp] theorem intercalate_singleton (separator text : Text) :
    intercalate separator [text] = text :=
  rfl

theorem intercalate_cons_cons (separator text next : Text) (rest : List Text) :
    intercalate separator (text :: next :: rest) =
      text ++ separator ++ intercalate separator (next :: rest) :=
  rfl

theorem intercalate_append_of_ne_nil {separator : Text} {front back : List Text}
    (some : front ≠ []) (more : back ≠ []) :
    intercalate separator (front ++ back) =
      intercalate separator front ++ separator ++ intercalate separator back := by
  induction front with
  | nil => exact absurd rfl some
  | cons text rest ih =>
      cases rest with
      | nil =>
          obtain ⟨next, others, rfl⟩ := List.exists_cons_of_ne_nil more
          rfl
      | cons next rest =>
          have tail := ih (List.cons_ne_nil _ _)
          rw [List.cons_append] at tail
          rw [List.cons_append, List.cons_append, intercalate_cons_cons, tail,
            intercalate_cons_cons]
          simp only [append_assoc]

/-! ## Order -/

theorem not_lt {left right : Text} : ¬left < right ↔ right ≤ left :=
  List.not_lt

theorem le_total (left right : Text) : left ≤ right ∨ right ≤ left :=
  List.le_total _ _

theorem le_trans {first second third : Text} (one : first ≤ second) (two : second ≤ third) :
    first ≤ third :=
  List.le_trans one two

theorem le_antisymm {left right : Text} (one : left ≤ right) (two : right ≤ left) :
    left = right := by
  have codes : left.toList.map Symbol.code = right.toList.map Symbol.code :=
    List.le_antisymm one two
  exact ext (List.map_inj_right (fun _ _ => Symbol.code_inj.mp) |>.mp codes)

end Text

end MessageTables
