import GeoTag.Database.Basic
import GeoTag.Decimal.Nearest

/-!
# Location and ASN databases of flat records

The records of these databases are read as JSON; a value that is no object has no members.
`location` and `info` sum a record up.
-/

namespace GeoTag

namespace IpInfo

/-- The text under a name. -/
def member? (name : String) (record : Json) : Option String := (record.get? name).bind Json.string?

/-- A coordinate: a number, or a text that spells one with blanks around it; else zero. -/
def coordinate (name : String) (record : Json) : Float :=
  match record.get? name with
  | some (.number (.integer value _)) => Float.ofInt value
  | some (.number (.float value _)) => value
  | some (.string value) => (Decimal.nearest? (Text.trim value.toList)).getD 0
  | _ => 0

/-- The location of a record. -/
def location (record : Json) : Location where
  latitude := coordinate "lat" record
  longitude := coordinate "lng" record
  countryCode := orNotAvailable (member? "country" record)
  country := orNotAvailable (member? "country_name" record)
  city := orNotAvailable (member? "city" record)
  region := orNotAvailable (member? "region" record)
  timeZone := orNotAvailable (member? "timezone" record)

/-- The text after the mark of an autonomous system, `AS` or `as`, if it starts with one. -/
def unmarked : List Char → List Char
  | 'A' :: 'S' :: rest => rest
  | 'a' :: 's' :: rest => rest
  | cs => cs

/-- A number of 32 bits: digits, with a plus sign before them or not. -/
def number? (cs : List Char) : Option Nat :=
  let digits : List Char :=
    match cs with
    | '+' :: rest => rest
    | _ => cs
  let n := Address.ofParts 10 (digits.map fun c => c.toNat - '0'.toNat)
  if digits ≠ [] ∧ digits.all Char.isDigit ∧ n < UInt32.size then some n else none

/-- The autonomous system of a record: its number with or without the mark, and who runs it. -/
def info (record : Json) : Option AsInfo :=
  ((member? "asn" record).bind fun text => number? (unmarked text.toList)).map fun number =>
    AsInfo.ofNumber number (orNotAvailable ((member? "name" record).or (member? "as_name" record)))

end IpInfo

end GeoTag
