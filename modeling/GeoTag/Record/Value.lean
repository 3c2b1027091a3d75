import GeoTag.Address.Literal
import GeoTag.Address.Printer
import GeoTag.Json.Printer

/-!
# Values of the fields of a record

A `FieldValue` is a JSON value seen by kind: texts, integers of 64 bits with a sign, floats and
truth values have kinds of their own, and so has a typed address, which no JSON text can hold.
Everything else stays the JSON value it is.  `FieldValue.ofJson` and `FieldValue.toJson` convert.
-/

namespace GeoTag

/-- The value of a field. -/
inductive FieldValue where
  /-- A text. -/
  | string (value : String)
  /-- An integer of 64 bits with a sign. -/
  | integer (value : Int64)
  /-- A float, finite or not. -/
  | float (value : Float)
  /-- A truth value. -/
  | bool (value : Bool)
  /-- A typed address. -/
  | address (value : Address)
  /-- Any other JSON value. -/
  | other (value : Json)

namespace FieldValue

/-- The value of a field for a JSON value. -/
def ofJson : Json → FieldValue
  | .string s => .string s
  | .bool b => .bool b
  | .number (.integer i fits) =>
    if i < 0x8000000000000000 then .integer (Int64.ofInt i) else .other (.number (.integer i fits))
  | .number (.float f _) => .float f
  | value => .other value

theorem fits_toInt (i : Int64) : Json.Number.Fits i.toInt := by
  unfold Json.Number.Fits
  have h₁ := i.le_toInt
  have h₂ := i.toInt_lt
  omega

/-- The JSON number of a signed integer. -/
def numberOfInt64 (i : Int64) : Json.Number := .integer i.toInt (fits_toInt i)

/-- The JSON value of a field: a float that is not finite becomes `null`, an address its canonical
text. -/
def toJson : FieldValue → Json
  | .string s => .string s
  | .integer i => .number (numberOfInt64 i)
  | .float f => ((Json.Number.ofFloat? f).map Json.number).getD .null
  | .bool b => .bool b
  | .address a => .string a.toText
  | .other value => value

/-- What the value offers to whoever looks for an address in it. -/
def source : FieldValue → Address.Source
  | .string s => .text s
  | .address a => .typed a
  | _ => .other

/-- The address in the value, if there is one. -/
def address? (value : FieldValue) : Option Address := Address.ofSource? value.source

/-- The text of a string. -/
def string? : FieldValue → Option String
  | .string s => some s
  | _ => none

/-- Equality: only values of one kind are equal, floats as IEEE numbers, JSON values by content. -/
def same : FieldValue → FieldValue → Bool
  | .string a, .string b => a = b
  | .integer a, .integer b => a = b
  | .float a, .float b => a == b
  | .bool a, .bool b => a = b
  | .address a, .address b => a = b
  | .other a, .other b => a.same b
  | _, _ => false

end FieldValue

end GeoTag
