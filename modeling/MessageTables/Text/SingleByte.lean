import MessageTables.Text.Basic

/-!
# One character a byte

Tables are read with one character for every byte, the one whose code point the
byte is. So any row of bytes is a text, and no two rows are the same text.
-/

namespace MessageTables.Text

/-- The character of a byte. -/
def characterOfByte (byte : UInt8) : Symbol :=
  .char (Char.ofNat byte.toNat)

/-- The text of some bytes. -/
def decodeBytes (bytes : ByteArray) : List Symbol :=
  bytes.data.toList.map characterOfByte

end MessageTables.Text
