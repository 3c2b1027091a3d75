import GeoTag.Database.Reader
import GeoTag.Engine
import GeoTag.RangeTable
import GeoTag.Settings.Basic

/-!
# From settings to an engine

`Vendor.openCity` and `Vendor.openAs` open a database of a vendor.  `Settings.cityResolver` and
`Settings.asResolver` open what settings name and make do with what can be opened, and
`Settings.engine` puts an engine together, which never fails: without anything to ask it is
disabled.  All of them open databases with a reader; where none is given, it is `Database.reader`.
-/

namespace GeoTag

/-- A database that could not be opened. -/
structure OpenFault where
  /-- The path of the file. -/
  path : String
  /-- What went wrong. -/
  cause : DatabaseFault
deriving DecidableEq, Repr

/-- The fault in words. -/
def OpenFault.message (fault : OpenFault) : String := "failed to open database " ++ fault.path

namespace Vendor

/-- What becomes of the database in a file, under the name of the file. -/
def openWith {α : Type} (reader : Database.Reader) (fs : FileSystem) (path : String)
    (backend : Database.View → String → Backend α) : Except OpenFault (Backend α) :=
  match reader.load fs path with
  | .ok db => .ok (backend db (Path.label path))
  | .error cause => .error ⟨path, cause⟩

/-- Opens a location database; the locale picks among names in several languages. -/
def openCity (fs : FileSystem) (vendor : Vendor) (path locale : String)
    (reader : Database.Reader := Database.reader) : Except OpenFault (Backend Location) :=
  openWith reader fs path fun db label =>
    match vendor with
    | .maxMind => MaxMind.cityBackend db label locale
    | .ipInfo => IpInfo.cityBackend db label

/-- Opens a database of autonomous systems. -/
def openAs (fs : FileSystem) (vendor : Vendor) (path : String)
    (reader : Database.Reader := Database.reader) : Except OpenFault (Backend AsInfo) :=
  openWith reader fs path fun db label =>
    match vendor with
    | .maxMind => MaxMind.asBackend db label
    | .ipInfo => IpInfo.asBackend db label

end Vendor

namespace Settings

/-- The location database that settings name, if it can be opened. -/
def cityBackend? (fs : FileSystem) (settings : Settings) (reader : Database.Reader) :
    Option (Backend Location) :=
  settings.city?.bind fun path => (settings.vendor.openCity fs path settings.locale reader).toOption

/-- The range table that settings name, if it can be loaded. -/
def table? (fs : FileSystem) (settings : Settings) : Option RangeTable :=
  settings.fallback?.bind fun path => (RangeTable.load fs path).toOption

/-- The database of autonomous systems that settings name, if it can be opened. -/
def asBackend? (fs : FileSystem) (settings : Settings) (reader : Database.Reader) :
    Option (Backend AsInfo) :=
  settings.as?.bind fun path => (settings.vendor.openAs fs path reader).toOption

/-- Where locations come from: the database, the table where it has no answer, or either alone. -/
def cityResolver (fs : FileSystem) (settings : Settings)
    (reader : Database.Reader := Database.reader) : Resolver Location :=
  match settings.cityBackend? fs reader, settings.table? fs with
  | primary, some table => .ofBackend (.withFallback primary table)
  | some primary, none => .ofBackend primary
  | none, none => .disabled

/-- Where autonomous systems come from. -/
def asResolver (fs : FileSystem) (settings : Settings)
    (reader : Database.Reader := Database.reader) : Resolver AsInfo :=
  ⟨settings.asBackend? fs reader⟩

/-- The engine with given resolvers; it does nothing if it is switched off or has nothing to ask. -/
def engineWith (settings : Settings) (city : Resolver Location) (asn : Resolver AsInfo) :
    Engine where
  city := city
  asn := asn
  policy := settings.policy
  enabled := settings.enabled && (city.isEnabled || asn.isEnabled)

/-- The engine that settings describe; it does nothing if they are not valid. -/
def engine (fs : FileSystem) (settings : Settings)
    (reader : Database.Reader := Database.reader) : Engine :=
  if settings.enabled = true ∧ settings.Valid then
    settings.engineWith (settings.cityResolver fs reader) (settings.asResolver fs reader)
  else ⟨.disabled, .disabled, settings.policy, false⟩

end Settings

end GeoTag
