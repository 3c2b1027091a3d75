import GeoTag.Address.Basic
import GeoTag.Text.Blank
import GeoTag.Text.Hex
import GeoTag.Text.Split

/-!
# Address literals

`V4.ofLiteral?` reads a dotted quad and `V6.ofLiteral?` eight groups of up to four hexadecimal
digits, where two colons in a row stand for one or more zero groups and the last two groups may be
a dotted quad.  `Address.ofText?` reads the text of a field: it drops blanks at the ends and lets a
zone follow an IPv6 literal.
-/

namespace GeoTag

namespace V4

/-- One to three decimal digits without a leading zero, at most 255. -/
def octet? (cs : List Char) : Option Nat :=
  let n := Address.ofParts 10 (cs.map fun c => c.toNat - '0'.toNat)
  if cs.length ∈ [1, 2, 3] ∧ cs.all Char.isDigit ∧ (cs.head? = some '0' → cs.length = 1) ∧ n ≤ 255
  then some n else none

/-- Four octets between dots. -/
def octets? (cs : List Char) : Option (List Nat) :=
  let pieces := Text.splitOn '.' cs
  if pieces.length = 4 then pieces.mapM octet? else none

/-- The IPv4 address of a dotted quad. -/
def ofLiteral? (cs : List Char) : Option (BitVec 32) := (octets? cs).map ofOctets

end V4

namespace V6

/-- One to four hexadecimal digits. -/
def group? (cs : List Char) : Option Nat :=
  if cs.length ∈ [1, 2, 3, 4] then (cs.mapM Text.hexValue?).map (Address.ofParts 16) else none

/-- Groups of which the last may be a dotted quad, which counts as two. -/
def groups? : List (List Char) → Option (List Nat)
  | [] => some []
  | [piece] =>
    match V4.octets? piece with
    | some octets => some (Address.toParts 65536 2 (Address.ofParts 256 octets))
    | none => (group? piece).map fun g => [g]
  | piece :: pieces => (group? piece).bind fun g => (groups? pieces).map fun gs => g :: gs

/-- The pieces between colons; an empty text has none. -/
def pieces (cs : List Char) : List (List Char) := if cs.isEmpty then [] else Text.splitOn ':' cs

/-- All groups of a literal, with the zero groups that two colons stand for. -/
def literalGroups? (cs : List Char) : Option (List Nat) :=
  match Text.splitRun ':' cs with
  | none => (groups? (pieces cs)).filter fun gs => gs.length = 8
  | some (before, after) =>
    ((pieces before).mapM group?).bind fun front =>
      (groups? (pieces after)).bind fun back =>
        if front.length + back.length ≤ 7 then
          some (front ++ List.replicate (8 - front.length - back.length) 0 ++ back)
        else none

/-- The IPv6 address of a literal. -/
def ofLiteral? (cs : List Char) : Option (BitVec 128) := (literalGroups? cs).map ofGroups

end V6

namespace Address

/-- The address of a literal of either family. -/
def ofLiteral? (cs : List Char) : Option Address :=
  match V4.ofLiteral? cs with
  | some bits => some (.v4 bits)
  | none => (V6.ofLiteral? cs).map .v6

/-- A character of a zone: an ASCII letter or digit, `_`, `-` or `.`. -/
def isZoneChar (c : Char) : Bool := c.isAlphanum || c = '_' || c = '-' || c = '.'

/-- The address of an IPv6 literal that is followed by a percent sign and a zone. -/
def ofZoned? (cs : List Char) : Option Address :=
  match Text.splitOnce '%' cs with
  | none => none
  | some (literal, zone) =>
    if zone.isEmpty ∨ ¬ zone.all isZoneChar then none else (V6.ofLiteral? literal).map .v6

/-- The number of bytes that a text takes in UTF-8. -/
def byteLength (cs : List Char) : Nat := cs.foldr (fun c n => c.utf8Size + n) 0

/-- The shortest literal is `::`. -/
def minLength : Nat := 2

/-- The most bytes that a literal with its zone may take. -/
def maxLength : Nat := 64

/-- The address that the text of a field spells, if it spells one. -/
def ofText? (s : String) : Option Address :=
  let cs := Text.trim s.toList
  if byteLength cs < minLength ∨ maxLength < byteLength cs then none
  else
    match ofLiteral? cs with
    | some address => some address
    | none => ofZoned? cs

/-- What a value offers to whoever looks for an address in it. -/
inductive Source where
  /-- A text that may hold a literal. -/
  | text (s : String)
  /-- A value that already is an address. -/
  | typed (address : Address)
  /-- A value of any other kind. -/
  | other

/-- The address in a value, if there is one. -/
def ofSource? : Source → Option Address
  | .text s => ofText? s
  | .typed address => some address
  | .other => none

end Address

end GeoTag
