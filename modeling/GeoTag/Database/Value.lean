import GeoTag.Database.Scan
import GeoTag.Json.Basic

/-!
# Values of a database

A value starts with a control byte that gives its kind and its size.  A `Head` is a scalar or the
number of entries of a map or an array, which follow it.  `visit` reads a head, follows pointers and
comes back behind the first of them.  On it stand readers for each shape a caller may want: `text`,
`natural`, `real`, `truth`, `list`, `dictionary`, `skip` for any value at all and `json` for a value
as JSON.  A value of a kind that the caller does not want is a mismatch; bytes that break the format
are invalid, and whichever comes first counts.
-/

namespace GeoTag

namespace Database

/-- The start of a value. -/
structure Control where
  /-- The code of its kind. -/
  code : Nat
  /-- Its size in bytes or entries. -/
  size : Nat

/-- The code of a kind in the three high bits of a control byte; zero stands for a kind beyond seven
in the next byte. -/
def codeFrom (byte : Nat) : Scan Nat :=
  if byte / 32 = 0 then return ((← Scan.number 1) + 7) % 256 else return byte / 32

/-- The size in the five low bits of a control byte; the three greatest values say how many more
bytes hold it. -/
def sizeFrom (byte : Nat) : Scan Nat :=
  match byte % 32 with
  | 29 => return 29 + (← Scan.number 1)
  | 30 => return 285 + (← Scan.number 2)
  | 31 => return 65821 + (← Scan.number 3)
  | size => return size

/-- Reads the start of a value. -/
def control : Scan Control := do
  let byte ← Scan.number 1
  let code ← codeFrom byte
  let size ← sizeFrom byte
  return ⟨code, size⟩

/-- A scalar, or how many entries follow. -/
inductive Head where
  /-- A text. -/
  | text (value : String)
  /-- Bytes. -/
  | bytes (value : ByteArray)
  /-- A float of 32 or 64 bits. -/
  | float (value : Float)
  /-- A number of at most 64 bits. -/
  | unsigned (value : Nat)
  /-- A number of at most 128 bits, which no reader but JSON's wants. -/
  | wide (value : Nat)
  /-- A number of 32 bits in two's complement. -/
  | signed (value : Int)
  /-- A truth value. -/
  | bool (value : Bool)
  /-- A map of so many keys and values. -/
  | map (count : Nat)
  /-- An array of so many items. -/
  | array (count : Nat)

/-- Reads a number of at most so many bytes. -/
def numberWithin (most size : Nat) : Scan Nat :=
  if size ≤ most then Scan.number size else throw .invalid

/-- Reads the rest of a head after its control byte; a pointer has none. -/
def head (start : Control) : Scan Head := do
  let size := start.size
  match start.code with
  | 2 =>
    match String.fromUTF8? (← Scan.bytes size) with
    | some text => return .text text
    | none => throw .invalid
  | 3 =>
    if size = 8 then return .float (Float.ofBits (UInt64.ofNat (← Scan.number 8)))
    else throw .invalid
  | 4 => return .bytes (← Scan.bytes size)
  | 5 => return .unsigned (← numberWithin 2 size)
  | 6 => return .unsigned (← numberWithin 4 size)
  | 7 => return .map size
  | 8 => return .signed (BitVec.ofNat 32 (← numberWithin 4 size)).toInt
  | 9 => return .unsigned (← numberWithin 8 size)
  | 10 => return .wide (← numberWithin 16 size)
  | 11 => return .array size
  | 14 => if size ≤ 1 then return .bool (size = 1) else throw .invalid
  | 15 =>
    if size = 4 then return .float (Float32.ofBits (UInt32.ofNat (← Scan.number 4))).toFloat
    else throw .invalid
  | _ => throw .invalid

/-- The first offset that a pointer of so many bytes reaches; the longest one starts over. -/
def pointerBase : Nat → Nat
  | 2 => 2048
  | 3 => 526336
  | _ => 0

/-- Reads the target of a pointer: the size holds the number of bytes and, unless that is four, the
three highest bits. -/
def pointerTarget (size : Nat) : Scan Nat := do
  let count := size / 8 % 4 + 1
  let high := if count = 4 then 0 else size % 8
  return high * Nat.pow 256 count + (← Scan.number count) + pointerBase count

variable {α : Type}

/-- Reads a value at the end of at most so many pointers. -/
def visitWithin (use : Head → Scan α) : Nat → Scan α
  | 0 => throw .invalid
  | fuel + 1 => do
    let start ← control
    if start.code = 1 then
      let target ← pointerTarget start.size
      Scan.jump target (visitWithin use fuel)
    else use (← head start)

/-- More pointers than a chain without a loop can have, and more levels than values can be nested.
-/
def limit : Scan Nat := do return (← read).bytes.size + 1

/-- Reads a value, following pointers. -/
def visit (use : Head → Scan α) : Scan α := do visitWithin use (← limit)

/-! ### Readers by shape -/

/-- Reads a text; bytes in UTF-8 are one, too. -/
def text : Scan String := visit fun
  | .text value => return value
  | .bytes value =>
    match String.fromUTF8? value with
    | some text => return text
    | none => throw .mismatch
  | _ => throw .mismatch

/-- Reads a number of at most so many bits. -/
def natural (bits : Nat) : Scan Nat :=
  let within (value : Nat) : Scan Nat :=
    if value < Nat.pow 2 bits then return value else throw .mismatch
  visit fun
    | .unsigned value => within value
    | .signed (.ofNat value) => within value
    | _ => throw .mismatch

/-- Reads a float; a number of at most 64 bits is one, too. -/
def real : Scan Float := visit fun
  | .float value => return value
  | .unsigned value => return Float.ofNat value
  | .signed value => return Float.ofInt value
  | _ => throw .mismatch

/-- Reads a truth value. -/
def truth : Scan Bool := visit fun
  | .bool value => return value
  | _ => throw .mismatch

/-- Reads an array. -/
def list (item : Scan α) : Scan (List α) := visit fun
  | .array count => item.many count
  | _ => throw .mismatch

/-- Reads a map of texts; of values under one key the last one counts. -/
def dictionary : Scan (List (String × String)) := visit fun
  | .map count => return Keyed.ofList (← Scan.many (return (← text, ← text)) count)
  | _ => throw .mismatch

/-- Reads any value of at most so many levels. -/
def skipWithin : Nat → Scan Unit
  | 0 => throw .invalid
  | fuel + 1 => visit fun
    | .map count => (skipWithin fuel).times (2 * count)
    | .array count => (skipWithin fuel).times count
    | _ => return ()

/-- Reads any value and keeps nothing of it. -/
def skip : Scan Unit := do skipWithin (← limit)

/-! ### Values as JSON -/

/-- Reads a text that is no bytes. -/
def pureText : Scan String := visit fun
  | .text value => return value
  | _ => throw .mismatch

/-- Reads an integer as JSON. -/
def jsonInteger (value : Int) : Scan Json :=
  match Json.Number.ofInt? value with
  | some number => return .number number
  | none => throw .mismatch

/-- Reads a value of at most so many levels as JSON. -/
def jsonWithin : Nat → Scan Json
  | 0 => throw .invalid
  | fuel + 1 =>
    let member (key : Scan String) : Scan (String × Json) := return (← key, ← jsonWithin fuel)
    visit fun
      | .text value => return .string value
      | .bytes _ => throw .mismatch
      | .float value => return ((Json.Number.ofFloat? value).map Json.number).getD .null
      | .unsigned value => jsonInteger value
      | .wide value => jsonInteger value
      | .signed value => jsonInteger value
      | .bool value => return .bool value
      | .array count => return .array (← (jsonWithin fuel).many count)
      | .map 0 => return .object []
      | .map (count + 1) => do
        let first ← member pureText
        let others ← (member text).many count
        return .object (Keyed.ofList (first :: others))

/-- Reads a value as JSON.  Bytes have no JSON form, numbers must fit into 64 bits, and a float that
is not finite becomes `null`.  The first key of a map must be a text; bytes in UTF-8 will do for the
others. -/
def json : Scan Json := do jsonWithin (← limit)

end Database

end GeoTag
