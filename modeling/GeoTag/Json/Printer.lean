import GeoTag.Json.Number
import GeoTag.Text.Hex

/-!
# Compact text of a JSON value

`Json.render` writes a value without any space.  In strings the quote, the backslash and the
characters below U+0020 are escaped, the common ones by a letter and the others by four lower-case
hexadecimal digits; every other character stands as it is.
-/

namespace GeoTag

namespace Json

/-- The form of one character inside a string. -/
def escape (c : Char) : List Char :=
  if c = '"' then ['\\', '"']
  else if c = '\\' then ['\\', '\\']
  else if c = '\x08' then ['\\', 'b']
  else if c = '\x0c' then ['\\', 'f']
  else if c = '\n' then ['\\', 'n']
  else if c = '\r' then ['\\', 'r']
  else if c = '\t' then ['\\', 't']
  else if c.toNat < 0x20 then '\\' :: 'u' :: Text.hex4 c.toNat
  else [c]

/-- A string in double quotes. -/
def renderString (s : String) : List Char := '"' :: s.toList.flatMap escape ++ ['"']

mutual

/-- The compact text of a value. -/
def render : Json → List Char
  | .null => ['n', 'u', 'l', 'l']
  | .bool true => ['t', 'r', 'u', 'e']
  | .bool false => ['f', 'a', 'l', 's', 'e']
  | .number n => n.render
  | .string s => renderString s
  | .array items => '[' :: renderItems items
  | .object members => '\x7b' :: renderMembers members

/-- Items between commas, up to the closing bracket. -/
def renderItems : List Json → List Char
  | [] => [']']
  | [item] => render item ++ [']']
  | item :: items => render item ++ ',' :: renderItems items

/-- Members between commas, up to the closing brace. -/
def renderMembers : List (String × Json) → List Char
  | [] => ['\x7d']
  | [(name, value)] => renderString name ++ ':' :: render value ++ ['\x7d']
  | (name, value) :: rest => renderString name ++ ':' :: render value ++ ',' :: renderMembers rest

end

/-- The compact text of a value. -/
def toText (value : Json) : String := String.ofList value.render

end Json

end GeoTag
