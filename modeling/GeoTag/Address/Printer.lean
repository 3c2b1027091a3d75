import GeoTag.Address.Basic

/-!
# Canonical text of an address

An IPv4 address is a dotted quad.  An IPv6 address is eight groups in lower-case hexadecimal
without leading zeros; the longest row of two or more zero groups, the first of the longest, is
written as two colons, and an IPv4-mapped address ends in a dotted quad.
-/

namespace GeoTag

/-- Texts one after the other with a separator between them. -/
def separated (sep : Char) : List (List Char) → List Char
  | [] => []
  | [piece] => piece
  | piece :: pieces => piece ++ sep :: separated sep pieces

/-- The dotted quad of an IPv4 address. -/
def V4.render (bits : BitVec 32) : List Char :=
  separated '.' ((V4.octets bits).map (Nat.toDigits 10))

namespace V6

/-- The number of zeros at the start of a row of groups. -/
def leadingZeros (gs : List Nat) : Nat := (gs.takeWhile (· = 0)).length

/-- The place and length of the longest row of zero groups, the first of the longest. -/
def longestZeros : List Nat → Nat × Nat
  | [] => (0, 0)
  | g :: gs =>
    let here := leadingZeros (g :: gs)
    let (place, length) := longestZeros gs
    if length ≤ here then (0, here) else (place + 1, length)

/-- Groups in hexadecimal between colons. -/
def renderGroups (gs : List Nat) : List Char := separated ':' (gs.map (Nat.toDigits 16))

/-- The text of eight groups. -/
def renderAll (gs : List Nat) : List Char :=
  let (place, length) := longestZeros gs
  if 2 ≤ length then
    renderGroups (gs.take place) ++ [':', ':'] ++ renderGroups (gs.drop (place + length))
  else renderGroups gs

/-- The canonical text of an IPv6 address. -/
def render (bits : BitVec 128) : List Char :=
  match mapped? bits with
  | some inner => [':', ':', 'f', 'f', 'f', 'f', ':'] ++ V4.render inner
  | none => renderAll (groups bits)

end V6

namespace Address

/-- The canonical text of an address, as characters. -/
def render : Address → List Char
  | .v4 bits => V4.render bits
  | .v6 bits => V6.render bits

/-- The canonical text of an address. -/
def toText (address : Address) : String := String.ofList address.render

end Address

end GeoTag
