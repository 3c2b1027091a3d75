import GeoTag.Text.Hidden

/-!
# Quoted text

`quoted` is how a message shows a text it complains about: in double quotes, with the quote, the
backslash and the common controls written by a letter after a backslash and every other hidden
character written by its number in braces.  A single quote stands as it is.
-/

namespace GeoTag

namespace Text

/-- The number of a character in braces, in lower-case hexadecimal digits. -/
def numbered (c : Char) : List Char :=
  ['\\', 'u', '\x7b'] ++ Nat.toDigits 16 c.toNat ++ ['\x7d']

/-- The quoted form of one character. -/
def quotedChar (c : Char) : List Char :=
  if c = '"' then ['\\', '"']
  else if c = '\\' then ['\\', '\\']
  else if c = '\n' then ['\\', 'n']
  else if c = '\r' then ['\\', 'r']
  else if c = '\t' then ['\\', 't']
  else if c = '\x00' then ['\\', '0']
  else if isHidden c then numbered c
  else [c]

/-- The text in double quotes, with what does not print on its own escaped. -/
def quoted (s : String) : String :=
  String.ofList ('"' :: s.toList.flatMap quotedChar ++ ['"'])

end Text

end GeoTag
