import GeoTag.Json.Number
import GeoTag.Text.Hex

/-!
# Reading JSON

`Json.parse?` reads a whole text by the strict grammar of JSON: one value with blanks around it,
no comments, no trailing commas, no bare controls and no lone surrogates in strings, and at most
`Json.maxDepth` arrays and objects inside each other.  A name that occurs twice in an object keeps
its first place and its last value.
-/

namespace GeoTag

namespace Json

/-- The four characters that may stand between tokens. -/
def isSpace (c : Char) : Bool := c = ' ' || c = '\n' || c = '\r' || c = '\t'

/-- The text after the spaces at its start. -/
def skipSpace (cs : List Char) : List Char := cs.dropWhile isSpace

/-- The character that a letter after a backslash stands for. -/
def unescape? (c : Char) : Option Char :=
  if c = '"' then some '"'
  else if c = '\\' then some '\\'
  else if c = '/' then some '/'
  else if c = 'b' then some '\x08'
  else if c = 'f' then some '\x0c'
  else if c = 'n' then some '\n'
  else if c = 'r' then some '\r'
  else if c = 't' then some '\t'
  else none

/-- The first half of a surrogate pair. -/
def isHighSurrogate (n : Nat) : Bool := 0xD800 ≤ n && n < 0xDC00

/-- The second half of a surrogate pair. -/
def isLowSurrogate (n : Nat) : Bool := 0xDC00 ≤ n && n < 0xE000

/-- The character of a surrogate pair. -/
def ofSurrogates (high low : Nat) : Char :=
  Char.ofNat (0x10000 + (high - 0xD800) * 0x400 + (low - 0xDC00))

/-- The characters of a string up to its closing quote, after those already read, which stand in
reverse. -/
def readChars? (seen : List Char) : List Char → Option (List Char × List Char)
  | [] => none
  | c :: rest =>
    if c = '"' then some (seen.reverse, rest)
    else if c = '\\' then
      match rest with
      | [] => none
      | 'u' :: a :: b :: c :: d :: rest =>
        match Text.hex4? a b c d with
        | none => none
        | some n =>
          if isHighSurrogate n then
            match rest with
            | '\\' :: 'u' :: a :: b :: c :: d :: rest =>
              match Text.hex4? a b c d with
              | none => none
              | some low =>
                if isLowSurrogate low then readChars? (ofSurrogates n low :: seen) rest else none
            | _ => none
          else if isLowSurrogate n then none
          else readChars? (Char.ofNat n :: seen) rest
      | e :: rest =>
        match unescape? e with
        | none => none
        | some x => readChars? (x :: seen) rest
    else if c.toNat < 0x20 then none
    else readChars? (c :: seen) rest

/-- A string after its opening quote. -/
def readString? (cs : List Char) : Option (String × List Char) :=
  (readChars? [] cs).map fun (chars, rest) => (String.ofList chars, rest)

/-- The rest of a text after a word. -/
def readWord? (word cs : List Char) : Option (List Char) :=
  if word.isPrefixOf cs then some (cs.drop word.length) else none

/-- The most arrays and objects inside each other. -/
def maxDepth : Nat := 127

mutual

/-- A value at the start of a text, after spaces. -/
def readValue? : Nat → Nat → List Char → Option (Json × List Char)
  | 0, _, _ => none
  | fuel + 1, depth, cs =>
    match skipSpace cs with
    | [] => none
    | c :: rest =>
      if c = '"' then (readString? rest).map fun (s, rest) => (.string s, rest)
      else if c = '[' then
        match depth, skipSpace rest with
        | 0, _ => none
        | _ + 1, ']' :: rest => some (.array [], rest)
        | depth + 1, _ => readItems? fuel depth [] rest
      else if c = '\x7b' then
        match depth, skipSpace rest with
        | 0, _ => none
        | _ + 1, '\x7d' :: rest => some (.object [], rest)
        | depth + 1, _ => readMembers? fuel depth [] rest
      else if c = 'n' then (readWord? ['u', 'l', 'l'] rest).map fun rest => (.null, rest)
      else if c = 't' then (readWord? ['r', 'u', 'e'] rest).map fun rest => (.bool true, rest)
      else if c = 'f' then (readWord? ['a', 'l', 's', 'e'] rest).map fun rest => (.bool false, rest)
      else (Number.read? (c :: rest)).map fun (n, rest) => (.number n, rest)

/-- The items of an array from one of them on, after those already read, which stand in reverse. -/
def readItems? : Nat → Nat → List Json → List Char → Option (Json × List Char)
  | 0, _, _, _ => none
  | fuel + 1, depth, seen, cs =>
    match readValue? fuel depth cs with
    | none => none
    | some (item, rest) =>
      match skipSpace rest with
      | ',' :: rest => readItems? fuel depth (item :: seen) rest
      | ']' :: rest => some (.array (item :: seen).reverse, rest)
      | _ => none

/-- The members of an object from one of them on, after those already read. -/
def readMembers? : Nat → Nat → List (String × Json) → List Char → Option (Json × List Char)
  | 0, _, _, _ => none
  | fuel + 1, depth, seen, cs =>
    match skipSpace cs with
    | '"' :: rest =>
      match readString? rest with
      | none => none
      | some (name, rest) =>
        match skipSpace rest with
        | ':' :: rest =>
          match readValue? fuel depth rest with
          | none => none
          | some (value, rest) =>
            match skipSpace rest with
            | ',' :: rest => readMembers? fuel depth (Keyed.put name value seen) rest
            | '\x7d' :: rest => some (.object (Keyed.put name value seen), rest)
            | _ => none
        | _ => none
    | _ => none

end

/-- The value that a whole text spells. -/
def parse? (s : String) : Option Json :=
  let cs := s.toList
  match readValue? (2 * cs.length + 2) maxDepth cs with
  | none => none
  | some (value, rest) => if (skipSpace rest).isEmpty then some value else none

end Json

end GeoTag
