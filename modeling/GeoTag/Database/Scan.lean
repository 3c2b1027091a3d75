import GeoTag.Address.Basic
import GeoTag.Lookup

/-!
# Reading bytes

A `Section` is the stretch of a file from some byte on; offsets count from its start.  A `Scan`
reads at an offset that it moves, and fails where the bytes run out.  `Scan.jump` reads elsewhere
and comes back.
-/

namespace GeoTag

namespace Database

/-- The bytes of a file from a start on. -/
structure Section where
  /-- The bytes of the file. -/
  bytes : ByteArray
  /-- Where the section starts. -/
  start : Nat

/-- Reads a section at a moving offset. -/
abbrev Scan := ReaderT Section (StateT Nat (Except DatabaseFault))

namespace Scan

variable {α : Type}

/-- The value that a scan reads at an offset of a section. -/
def valueAt (scan : Scan α) (source : Section) (offset : Nat) : Except DatabaseFault α :=
  match scan source offset with
  | .ok (value, _) => .ok value
  | .error fault => .error fault

/-- Reads somewhere else and goes on here. -/
def jump (target : Nat) (scan : Scan α) : Scan α := do
  let here ← get
  set target
  let value ← scan
  set here
  return value

/-- Reads some bytes. -/
def bytes (count : Nat) : Scan ByteArray := do
  let source ← read
  let offset ← get
  let first := source.start + offset
  if first + count ≤ source.bytes.size then
    set (offset + count)
    return source.bytes.extract first (first + count)
  else throw .invalid

/-- The number that bytes spell, the most significant first. -/
def bigEndian (bytes : ByteArray) : Nat := Address.ofParts 256 (bytes.toList.map UInt8.toNat)

/-- Reads a number of some bytes, the most significant first. -/
def number (count : Nat) : Scan Nat := do return bigEndian (← bytes count)

/-- Reads as often as asked. -/
def many (scan : Scan α) : Nat → Scan (List α)
  | 0 => return []
  | count + 1 => do
    let value ← scan
    let values ← many scan count
    return value :: values

/-- Reads as often as asked and keeps nothing. -/
def times (scan : Scan Unit) : Nat → Scan Unit
  | 0 => return ()
  | count + 1 => do
    scan
    times scan count

end Scan

end Database

end GeoTag
