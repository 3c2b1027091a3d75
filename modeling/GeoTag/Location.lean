import GeoTag.Decimal.Layout
import GeoTag.Text.Blank

/-!
# What is known about an address

A `Location` says where an address is and an `AsInfo` which autonomous system announces it.  A name
that a source does not know is `notAvailable`: a value of its own, not an error.
`validNames` holds for names worth showing, neither blank nor that placeholder.
-/

namespace GeoTag

/-- What stands for a name that a source does not know. -/
def notAvailable : String := "N/A"

/-- A name, or the placeholder where there is none. -/
def orNotAvailable (name : Option String) : String :=
  match name with
  | some s => if s.isEmpty then notAvailable else s
  | none => notAvailable

/-- Where an address is. -/
structure Location where
  /-- Degrees north. -/
  latitude : Float
  /-- Degrees east. -/
  longitude : Float
  /-- The two-letter code of the country. -/
  countryCode : String
  /-- The name of the country. -/
  country : String
  /-- The name of the city. -/
  city : String
  /-- The first subdivision of the country. -/
  region : String
  /-- The name of the time zone. -/
  timeZone : String

/-- Latitude and longitude with a comma between them. -/
def Location.coordinates (location : Location) : String :=
  String.ofList (Decimal.Layout.coordinate.float location.latitude ++ ',' ::
    Decimal.Layout.coordinate.float location.longitude)

/-- The autonomous system of an address. -/
structure AsInfo where
  /-- The decimal number of the system. -/
  number : String
  /-- Who runs the system. -/
  organization : String
deriving DecidableEq, Repr

/-- The system with a number of 32 bits. -/
def AsInfo.ofNumber (number : Nat) (organization : String) : AsInfo :=
  ⟨String.ofList (Decimal.natural number), organization⟩

/-- A name worth showing: not blank, and not the placeholder in any letter case. -/
def validName (name : String) : Bool :=
  !(decide (Text.Blank name.toList)) &&
    name.toList.map Char.toLower ≠ notAvailable.toList.map Char.toLower

/-- All names are worth showing. -/
def validNames (names : List String) : Bool := names.all validName

end GeoTag
