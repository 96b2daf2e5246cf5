import MessageTables.Text.NonPrintable

/-!
# Quoted text

A text is written between two delimiters, single quotes unless the text holds
single quotes and no double quote. The delimiter and the backslash are written
behind a backslash; the tabulator and the two line break characters have names
(`\t`, `\n`, `\r`); every other non-printable character is written by its code
point, with the shortest of `\x`, `\u` and `\U` that has room for it.

`quote` writes a text and `unquote` reads it back: reading stops at the first
delimiter that is not escaped, so what is written stays on one line and between
its delimiters, whatever the text.
-/

namespace MessageTables.Text

/-- The delimiter a text is written with. -/
def delimiter (text : List Symbol) : Symbol :=
  if Symbol.char '\'' ∈ text ∧ Symbol.char '"' ∉ text then '"' else '\''

/-- A number in lower-case hexadecimal digits, cut or padded to a width. -/
def hexDigits : (width : Nat) → Nat → List Symbol
  | 0, _ => []
  | width + 1, value => hexDigits width (value / 16) ++ [.char (Nat.digitChar (value % 16))]

/-- A character by its code point. -/
def codePointEscape (character : Symbol) : List Symbol :=
  if character.code < 0x100 then
    '\\' :: 'x' :: hexDigits 2 character.code
  else if character.code < 0x10000 then
    '\\' :: 'u' :: hexDigits 4 character.code
  else
    '\\' :: 'U' :: hexDigits 8 character.code

/-- One character of a text between the given delimiters. -/
def escape (delimiter character : Symbol) : List Symbol :=
  if character = delimiter ∨ character = '\\' then ['\\', character]
  else if character = '\t' then ['\\', 't']
  else if character = '\n' then ['\\', 'n']
  else if character = '\r' then ['\\', 'r']
  else if isPrintable character then [character]
  else codePointEscape character

/-- A text between its delimiters, as characters. -/
def quoteCharacters (text : List Symbol) : List Symbol :=
  delimiter text :: (text.flatMap (escape (delimiter text)) ++ [delimiter text])

/-- A text between its delimiters. -/
def quote (text : Text) : Text :=
  Text.ofList (quoteCharacters text.toList)

/-- The value of a lower-case hexadecimal digit. -/
def hexDigitValue? : Symbol → Option Nat
  | .stray _ => none
  | .char digit =>
      if digit.isDigit then some (digit.toNat - '0'.toNat)
      else if 'a' ≤ digit ∧ digit ≤ 'f' then some (digit.toNat - 'a'.toNat + 10)
      else none

/--
The number that some hexadecimal digits continue, the first of them being the most
significant.
-/
def hexValue? : Nat → List Symbol → Option Nat
  | value, [] => some value
  | value, digit :: rest =>
      match hexDigitValue? digit with
      | none => none
      | some digitValue => hexValue? (16 * value + digitValue) rest

/-- The symbol whose code point some hexadecimal digits give. -/
def symbolOfCodePoint? (digits : List Symbol) : Option Symbol :=
  (hexValue? 0 digits).bind Symbol.ofCode?

/-- The character that one letter after a backslash stands for. -/
def characterOfLetter? : Symbol → Option Symbol
  | '\\' => some '\\'
  | '\'' => some '\''
  | '"' => some '"'
  | 't' => some '\t'
  | 'n' => some '\n'
  | 'r' => some '\r'
  | _ => none

/-- A text with one more character in front, if both have been read. -/
def prepend? (character? : Option Symbol) (read : Option (List Symbol × List Symbol)) :
    Option (List Symbol × List Symbol) :=
  match character?, read with
  | some character, some (text, rest) => some (character :: text, rest)
  | _, _ => none

/-- Reads up to the closing delimiter: the text before it and the characters after it. -/
def unquoteUntil (delimiter : Symbol) : List Symbol → Option (List Symbol × List Symbol)
  | [] => none
  | character :: rest =>
      if character = delimiter then some ([], rest)
      else if character ≠ '\\' then prepend? (some character) (unquoteUntil delimiter rest)
      else
        match rest with
        | 'x' :: a :: b :: rest =>
            prepend? (symbolOfCodePoint? [a, b]) (unquoteUntil delimiter rest)
        | 'u' :: a :: b :: c :: d :: rest =>
            prepend? (symbolOfCodePoint? [a, b, c, d]) (unquoteUntil delimiter rest)
        | 'U' :: a :: b :: c :: d :: e :: f :: g :: h :: rest =>
            prepend? (symbolOfCodePoint? [a, b, c, d, e, f, g, h])
              (unquoteUntil delimiter rest)
        | letter :: rest => prepend? (characterOfLetter? letter) (unquoteUntil delimiter rest)
        | [] => none

/-- Reads one quoted text that nothing follows. -/
def unquote (written : List Symbol) : Option (List Symbol) :=
  match written with
  | [] => none
  | opening :: rest =>
      if opening = '\'' ∨ opening = '"' then
        match unquoteUntil opening rest with
        | some (text, []) => some text
        | _ => none
      else none

end MessageTables.Text
