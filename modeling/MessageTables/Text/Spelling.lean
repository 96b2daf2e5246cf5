import MessageTables.Text.Basic

/-!
# Texts as bytes

A text is spelled in bytes symbol by symbol. `Text.bytes` spells every text, as
the name of a file is spelled; `Text.encode?` is what may be written to a file,
which is UTF-8 and has no spelling for stray bytes.

The other way round, bytes are read as characters wherever they spell one, so a
text read from bytes is `IsDecoded`: nowhere in it do stray bytes in a row spell
a character. Such a text is told from every other by its bytes.
-/

namespace MessageTables

namespace Text

/-- The bytes of a text. -/
def bytes (text : Text) : ByteArray :=
  (text.toList.flatMap Symbol.bytes).toByteArray

/-- The UTF-8 of a text, if it holds characters only. -/
def encode? (text : Text) : Option ByteArray :=
  if text.toList.any Symbol.isStray then none else some text.bytes

/-- The stray bytes in a row that some symbols begin with. -/
def leadingStrays : List Symbol → List UInt8
  | .stray byte :: rest => (Symbol.stray byte).bytes ++ leadingStrays rest
  | _ => []

/-- Whether some symbols nowhere have stray bytes in a row that spell a character. -/
def isDecoded : List Symbol → Bool
  | [] => true
  | symbol :: rest =>
      ((leadingStrays (symbol :: rest)).toByteArray.utf8DecodeChar? 0).isNone && isDecoded rest

/-- What a text is when it is read from bytes. -/
def IsDecoded (text : Text) : Prop :=
  isDecoded text.toList = true

instance (text : Text) : Decidable (IsDecoded text) :=
  inferInstanceAs (Decidable (_ = _))

end Text

end MessageTables
