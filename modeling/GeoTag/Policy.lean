import GeoTag.Location
import GeoTag.Schema

/-!
# What is written for an address

A `Policy` is a schema together with a choice about time zones.  It turns a resolved address into
derived fields in a fixed order: one marker for a reserved address (`Policy.reservedFields`), the
fields of a location (`Policy.locationFields`), the fields of an autonomous system
(`Policy.asFields`).  The strict schema leaves out names not worth showing and always writes the
time zone; the legacy schema writes every name and the time zone by choice.
-/

namespace GeoTag

/-- A schema and whether legacy records get a time zone. -/
structure Policy where
  /-- The schema in force. -/
  schema : Schema
  /-- The legacy schema writes a time zone. -/
  legacyTimeZone : Bool
deriving DecidableEq, Repr

namespace Policy

/-- The country is written. -/
def writesCountry (policy : Policy) (location : Location) : Bool :=
  match policy.schema with
  | .legacy => true
  | .strict => validNames [location.country]

/-- The time zone is written. -/
def writesTimeZone (policy : Policy) : Bool :=
  match policy.schema with
  | .legacy => policy.legacyTimeZone
  | .strict => true

/-- City and country code together are written. -/
def writesPlace (location : Location) : Bool := validNames [location.city, location.countryCode]

/-- City and country code together. -/
def placeName (location : Location) : String := location.city ++ ", " ++ location.countryCode

/-- The marker of a reserved address. -/
def reservedFields (stem : String) : List (String × FieldValue) :=
  [(stem ++ Schema.reservedSuffix, .bool true)]

/-- The fields of a location, in order. -/
def locationFields (policy : Policy) (stem : String) (location : Location) :
    List (String × FieldValue) :=
  let s := policy.schema.suffixes
  [(stem ++ s.coordinates, .string location.coordinates),
    (stem ++ s.countryCode, .string location.countryCode),
    (stem ++ s.city, .string location.city),
    (stem ++ s.region, .string location.region)] ++
  (if policy.writesCountry location then [(stem ++ s.country, .string location.country)] else []) ++
  (if policy.writesTimeZone then [(stem ++ s.timeZone, .string location.timeZone)] else []) ++
  (match s.place with
    | some suffix =>
      if writesPlace location then [(stem ++ suffix, .string (placeName location))] else []
    | none => [])

/-- The fields of an autonomous system, in order; none in a schema without names for them. -/
def asFields (policy : Policy) (stem : String) (info : AsInfo) : List (String × FieldValue) :=
  let s := policy.schema.suffixes
  (s.asOrganization.toList.map fun suffix => (stem ++ suffix, .string info.organization)) ++
    s.asNumber.toList.map fun suffix => (stem ++ suffix, .string info.number)

/-- Marks a reserved address. -/
def markReserved (record : Record) (stem : String) : Record := record.putAll (reservedFields stem)

/-- Writes a location. -/
def putLocation (policy : Policy) (record : Record) (stem : String) (location : Location) :
    Record :=
  record.putAll (policy.locationFields stem location)

/-- Writes an autonomous system. -/
def putAs (policy : Policy) (record : Record) (stem : String) (info : AsInfo) : Record :=
  record.putAll (policy.asFields stem info)

end Policy

end GeoTag
