import GeoTag.Database.Basic

/-!
# City and ASN databases with localized names

A city database holds records of nested records, with the names of places in several languages;
`localized` picks one.  `City.location` sums such a record up, and `System.info` does so for the
records of an ASN database.
-/

namespace GeoTag

namespace MaxMind

open Database (Scan Member record text natural real truth list dictionary)

/-- Names by language. -/
abbrev Names := List (String × String)

/-- The language of a locale: its text before the first hyphen or underscore. -/
def language (locale : String) : String :=
  String.ofList (locale.toList.takeWhile fun c => c ≠ '-' ∧ c ≠ '_')

/-- The language that is tried last. -/
def lastLanguage : String := "en"

/-- The name in a locale, else in its language, else in English. -/
def localized (names : Option Names) (locale : String) : String :=
  match names with
  | none => notAvailable
  | some names =>
    orNotAvailable
      ([locale, language locale, lastLanguage].findSome? fun key => Keyed.get? key names)

/-- A country of a city record. -/
structure Country where
  /-- Its code. -/
  code : Option String
  /-- Its names. -/
  names : Option Names

/-- What a city record says. -/
structure City where
  /-- The names of the city. -/
  names : Option Names
  /-- The country. -/
  country : Country
  /-- The names of the first subdivision. -/
  regionNames : Option Names
  /-- Degrees north. -/
  latitude : Option Float
  /-- Degrees east. -/
  longitude : Option Float
  /-- The name of the time zone. -/
  timeZone : Option String

/-- The city record in which nothing is said. -/
def City.blank : City := ⟨none, ⟨none, none⟩, none, none, none, none⟩

/-- What an ASN record says. -/
structure System where
  /-- The number of the system. -/
  number : Option Nat
  /-- Who runs it. -/
  organization : Option String

/-! ### Reading -/

/-- The member of names in a record that is nothing but its names. -/
def namesMember : Member (Option Names) := .kept "names" dictionary fun _ names => some names

/-- The number by which a place is known elsewhere. -/
def idMember {σ : Type} : Member σ := .checked "geoname_id" (natural 32)

/-- The members of a country. -/
def countryMembers : List (Member Country) :=
  [idMember, .checked "is_in_european_union" truth,
    .kept "iso_code" text fun c code => { c with code := some code },
    .kept "names" dictionary fun c names => { c with names := some names }]

/-- Reads a country. -/
def country : Scan Country := record countryMembers ⟨none, none⟩

/-- Reads a country that is represented abroad. -/
def representedCountry : Scan Country :=
  record (countryMembers ++ [.checked "type" text]) ⟨none, none⟩

/-- Reads the names of a city. -/
def cityNames : Scan (Option Names) := record [idMember, namesMember] none

/-- Reads the names of a continent. -/
def continent : Scan (Option Names) := record [.checked "code" text, idMember, namesMember] none

/-- Reads the names of a subdivision. -/
def subdivision : Scan (Option Names) :=
  record [idMember, .checked "iso_code" text, namesMember] none

/-- Reads coordinates and time zone into a city record. -/
def position (city : City) : Scan City :=
  record
    [.checked "accuracy_radius" (natural 16),
      .kept "latitude" real fun c x => { c with latitude := some x },
      .kept "longitude" real fun c x => { c with longitude := some x },
      .checked "metro_code" (natural 16),
      .kept "time_zone" text fun c s => { c with timeZone := some s }]
    city

/-- Reads a postal code. -/
def postal : Scan Unit := record [.checked "code" text] ()

/-- Reads what else is known of an address. -/
def traits : Scan Unit :=
  record
    [.checked "is_anonymous_proxy" truth, .checked "is_anycast" truth,
      .checked "is_satellite_provider" truth]
    ()

/-- Reads a city record. -/
def city : Scan City :=
  record
    [.kept "city" cityNames fun c names => { c with names := names },
      .checked "continent" continent,
      .kept "country" country fun c country => { c with country := country },
      ⟨"location", false, position⟩,
      .checked "postal" postal,
      .checked "registered_country" country,
      .checked "represented_country" representedCountry,
      .kept "subdivisions" (list subdivision) fun c regions =>
        { c with regionNames := regions.head?.join },
      .checked "traits" traits]
    City.blank

/-- Reads an ASN record. -/
def system : Scan System :=
  record
    [.kept "autonomous_system_number" (natural 32) fun s n => { s with number := some n },
      .kept "autonomous_system_organization" text fun s name =>
        { s with organization := some name }]
    ⟨none, none⟩

/-! ### Summing up -/

/-- The location of a city record, with names for a locale. -/
def City.location (city : City) (locale : String) : Location where
  latitude := city.latitude.getD 0
  longitude := city.longitude.getD 0
  countryCode := orNotAvailable city.country.code
  country := localized city.country.names locale
  city := localized city.names locale
  region := localized city.regionNames locale
  timeZone := orNotAvailable city.timeZone

/-- The autonomous system of an ASN record, if it has a number. -/
def System.info (system : System) : Option AsInfo :=
  system.number.map fun number => AsInfo.ofNumber number (orNotAvailable system.organization)

end MaxMind

end GeoTag
