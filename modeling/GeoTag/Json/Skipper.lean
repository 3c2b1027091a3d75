import GeoTag.Json.Reader

/-!
# Passing over a JSON value

Where a value is not wanted, only its form is checked: `Json.skipValue?` is the rest of a text after
a value by the grammar of `Json.parse?`, but to any depth, with numbers of any size and with any
four digits after `\u`.
-/

namespace GeoTag

namespace Json

/-- The rest of a text after a string, whose opening quote is already read. -/
def skipString? : List Char → Option (List Char)
  | [] => none
  | c :: rest =>
    if c = '"' then some rest
    else if c = '\\' then
      match rest with
      | [] => none
      | 'u' :: a :: b :: c :: d :: rest =>
        match Text.hex4? a b c d with
        | none => none
        | some _ => skipString? rest
      | e :: rest =>
        match unescape? e with
        | none => none
        | some _ => skipString? rest
    else if c.toNat < 0x20 then none
    else skipString? rest

mutual

/-- The rest of a text after a value. -/
def skip? : Nat → List Char → Option (List Char)
  | 0, _ => none
  | fuel + 1, cs =>
    match skipSpace cs with
    | [] => none
    | c :: rest =>
      if c = '"' then skipString? rest
      else if c = '[' then
        match skipSpace rest with
        | ']' :: rest => some rest
        | rest => skipItems? fuel rest
      else if c = '\x7b' then
        match skipSpace rest with
        | '\x7d' :: rest => some rest
        | rest => skipMembers? fuel rest
      else if c = 'n' then readWord? ['u', 'l', 'l'] rest
      else if c = 't' then readWord? ['r', 'u', 'e'] rest
      else if c = 'f' then readWord? ['a', 'l', 's', 'e'] rest
      else (Literal.ofText? (c :: rest)).map Prod.snd

/-- The rest of a text after the items of an array, from one of them on. -/
def skipItems? : Nat → List Char → Option (List Char)
  | 0, _ => none
  | fuel + 1, cs =>
    match skip? fuel cs with
    | none => none
    | some rest =>
      match skipSpace rest with
      | ',' :: rest => skipItems? fuel rest
      | ']' :: rest => some rest
      | _ => none

/-- The rest of a text after the members of an object, from one of them on. -/
def skipMembers? : Nat → List Char → Option (List Char)
  | 0, _ => none
  | fuel + 1, cs =>
    match skipSpace cs with
    | '"' :: rest =>
      match skipString? rest with
      | none => none
      | some rest =>
        match skipSpace rest with
        | ':' :: rest =>
          match skip? fuel rest with
          | none => none
          | some rest =>
            match skipSpace rest with
            | ',' :: rest => skipMembers? fuel rest
            | '\x7d' :: rest => some rest
            | _ => none
        | _ => none
    | _ => none

end

/-- The rest of a text after a value of which only the form is checked. -/
def skipValue? (cs : List Char) : Option (List Char) := skip? (2 * cs.length + 2) cs

end Json

end GeoTag
