import GeoTag.FileSystem
import GeoTag.Policy
import GeoTag.Text.Quoted

/-!
# Settings

`Settings` are what an engine is built from: switches, a schema, the vendor of the databases, paths
and a language.  A path counts only if it is not blank and its switch is on.  `Settings.Valid` asks
for a language tag of letters, digits, hyphens and underscores.
-/

namespace GeoTag

/-- Whose databases are read. -/
inductive Vendor where
  /-- City and ASN databases with names in many languages. -/
  | maxMind
  /-- Location and ASN databases with flat records in English. -/
  | ipInfo
deriving DecidableEq, Repr

namespace Vendor

/-- The vendor's name as it is written in settings. -/
def toText : Vendor → String
  | .maxMind => "MAXMIND"
  | .ipInfo => "IPINFO"

/-- The vendor with a name as it is written in settings. -/
def ofTag? (name : String) : Option Vendor :=
  if name = "MAXMIND" then some .maxMind else if name = "IPINFO" then some .ipInfo else none

/-- The vendor with a name in any letter case. -/
def ofName? (name : String) : Option Vendor :=
  ofTag? (String.ofList (name.toList.map Char.toUpper))

/-- What is said about a name that no vendor has. -/
def unknownMessage (name : String) : String := "unknown database vendor: " ++ name

end Vendor

/-- What an engine is built from. -/
structure Settings where
  /-- The engine does anything at all. -/
  enabled : Bool
  /-- The strict schema is in force. -/
  enforceSchema : Bool
  /-- Whose databases are read. -/
  vendor : Vendor
  /-- The path of the location database. -/
  cityPath : String
  /-- The path of the database of autonomous systems. -/
  asPath : String
  /-- The path of the range table that is asked where the location database has no answer. -/
  fallbackPath : Option String
  /-- Locations are looked up. -/
  cityEnabled : Bool
  /-- Autonomous systems are looked up. -/
  asEnabled : Bool
  /-- The language of names. -/
  locale : String
  /-- Legacy records get a time zone. -/
  legacyTimeZone : Bool
deriving DecidableEq, Repr

namespace Settings

/-- The settings where nothing is said. -/
def default : Settings where
  enabled := false
  enforceSchema := true
  vendor := .maxMind
  cityPath := ""
  asPath := ""
  fallbackPath := none
  cityEnabled := true
  asEnabled := true
  locale := "en"
  legacyTimeZone := true

/-- A character of a language tag: an ASCII letter or digit, a hyphen or an underscore. -/
def isTagChar (c : Char) : Bool := c.isAlphanum || c = '-' || c = '_'

/-- The language is a tag of at least one character. -/
def Valid (settings : Settings) : Prop :=
  settings.locale.toList ≠ [] ∧ ∀ c ∈ settings.locale.toList, isTagChar c = true

instance (settings : Settings) : Decidable settings.Valid :=
  @instDecidableAnd _ _ inferInstance
    (List.decidableBAll (fun c => isTagChar c = true) settings.locale.toList)

/-- What is said about settings that are not valid. -/
def invalidMessage (settings : Settings) : String :=
  "invalid configuration: locale " ++ Text.quoted settings.locale ++ " is not a language tag"

/-- The schema in force. -/
def schema (settings : Settings) : Schema := if settings.enforceSchema then .strict else .legacy

/-- The policy in force. -/
def policy (settings : Settings) : Policy := ⟨settings.schema, settings.legacyTimeZone⟩

/-- A path that is not blank. -/
def usable? (path : String) : Option String :=
  if Text.Blank path.toList then none else some path

/-- The path of the location database, if one is set and wanted. -/
def city? (settings : Settings) : Option String :=
  if settings.cityEnabled then usable? settings.cityPath else none

/-- The path of the database of autonomous systems, if one is set and wanted. -/
def as? (settings : Settings) : Option String :=
  if settings.asEnabled then usable? settings.asPath else none

/-- The path of the range table, if one is set and locations are wanted. -/
def fallback? (settings : Settings) : Option String :=
  if settings.cityEnabled then settings.fallbackPath.bind usable? else none

end Settings

end GeoTag
