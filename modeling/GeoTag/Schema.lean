import GeoTag.Record.Basic

/-!
# Schemas

A `Schema` fixes which fields of a record are looked at and how the fields derived from them are
called.  The strict schema looks at the fields of `Schema.mapping` only and derives names from the
stem that stands beside each; the legacy schema looks at every field and derives names from the
field's own name.  A derived name is a stem followed by a suffix of the schema.
-/

namespace GeoTag

/-- Which fields are looked at and how derived fields are called. -/
inductive Schema where
  /-- Every field may be enriched, under flat names. -/
  | legacy
  /-- Only the well-known fields are enriched, under fixed stems. -/
  | strict
deriving DecidableEq, Repr

namespace Schema

/-- What the names of internal fields start with. -/
def internalMark : String := "gl2_"

/-- A field for internal bookkeeping, which is never looked at. -/
def isInternal (name : String) : Bool := internalMark.toList.isPrefixOf name.toList

/-- The well-known address fields, each with its stem. -/
def mapping : List (String × String) :=
  [("source_ip", "source"), ("host_ip", "host"), ("destination_ip", "destination")]

/-- The stem of a well-known address field. -/
def mappedStem? (name : String) : Option String := Keyed.get? name mapping

/-- The schema looks at the field. -/
def isCandidate (schema : Schema) (name : String) : Bool :=
  !isInternal name &&
    match schema with
    | .legacy => true
    | .strict => (mappedStem? name).isSome

/-- The fields of a record that the schema looks at, in order. -/
def candidates (schema : Schema) (record : Record) : List String :=
  record.names.filter schema.isCandidate

/-- What the names derived from a field start with. -/
def stem (schema : Schema) (name : String) : String :=
  match schema with
  | .legacy => name
  | .strict => (mappedStem? name).getD name

/-- The suffixes of derived names. -/
structure Suffixes where
  /-- Latitude and longitude. -/
  coordinates : String
  /-- The code of the country. -/
  countryCode : String
  /-- The city. -/
  city : String
  /-- The region. -/
  region : String
  /-- The name of the country. -/
  country : String
  /-- The time zone. -/
  timeZone : String
  /-- City and country code together. -/
  place : Option String
  /-- The number of the autonomous system. -/
  asNumber : Option String
  /-- The organization of the autonomous system. -/
  asOrganization : Option String
deriving DecidableEq, Repr

/-- The suffixes of a schema. -/
def suffixes : Schema → Suffixes
  | .legacy =>
    { coordinates := "_geolocation"
      countryCode := "_country_code"
      city := "_city_name"
      region := "_region"
      country := "_country"
      timeZone := "_timezone"
      place := none
      asNumber := none
      asOrganization := none }
  | .strict =>
    { coordinates := "_geo_coordinates"
      countryCode := "_geo_country_iso"
      city := "_geo_city"
      region := "_geo_region"
      country := "_geo_country"
      timeZone := "_geo_timezone"
      place := some "_geo_name"
      asNumber := some "_as_number"
      asOrganization := some "_as_organization" }

/-- The suffix of the marker of a reserved address, in either schema. -/
def reservedSuffix : String := "_reserved_ip"

/-- The schema has names for an autonomous system. -/
def wantsAs (schema : Schema) : Bool := schema.suffixes.asNumber.isSome

/-- The suffixes of a location, in the order in which they are written. -/
def Suffixes.ofLocation (s : Suffixes) : List String :=
  [s.coordinates, s.countryCode, s.city, s.region, s.country, s.timeZone] ++ s.place.toList

/-- The suffixes of an autonomous system, in the order in which they are written. -/
def Suffixes.ofAs (s : Suffixes) : List String := s.asOrganization.toList ++ s.asNumber.toList

/-- All suffixes of a schema. -/
def allSuffixes (schema : Schema) : List String :=
  reservedSuffix :: (schema.suffixes.ofLocation ++ schema.suffixes.ofAs)

/-- All names that may be derived from a field. -/
def derivedNames (schema : Schema) (name : String) : List String :=
  schema.allSuffixes.map fun suffix => schema.stem name ++ suffix

end Schema

end GeoTag
