import GeoTag.CommandLine.Options
import GeoTag.Settings.Document

/-!
# Settings in layers

The settings of a run come from the document that the command line names, or from the defaults; what
the command line says comes on top.  A database is found under its own option, else in the directory
of databases, under the name that the vendor in force gives it, else where the document says.
-/

namespace GeoTag

namespace Vendor

/-- The file name of the location database. -/
def cityFile : Vendor → String
  | .maxMind => "GeoLite2-City.mmdb"
  | .ipInfo => "standard_location.mmdb"

/-- The file name of the database of autonomous systems. -/
def asFile : Vendor → String
  | .maxMind => "GeoLite2-ASN.mmdb"
  | .ipInfo => "asn.mmdb"

end Vendor

namespace CommandLine

/-- Why there are no settings for a run. -/
inductive SetupFault where
  /-- The document could not be loaded. -/
  | cannotLoad (path : String) (fault : Settings.LoadFault)
  /-- The settings are not valid. -/
  | invalid (fault : Settings.LoadFault)
deriving DecidableEq

/-- The fault in words. -/
def SetupFault.message : SetupFault → String
  | .cannotLoad path fault => "failed to load configuration: " ++ path ++ ": " ++ fault.message
  | .invalid fault => fault.message

namespace Options

/-- The settings below the command line. -/
def base (fs : FileSystem) (options : Options) : Except SetupFault Settings :=
  match options.config with
  | none => .ok { Settings.default with enabled := true }
  | some path =>
    match Settings.load fs path with
    | .ok settings => .ok settings
    | .error fault => .error (.cannotLoad path fault)

/-- Where a database is: under its own option, in the directory, or where it was. -/
def locate (explicit directory : Option String) (file old : String) : String :=
  match explicit, directory with
  | some path, _ => path
  | none, some directory => Path.join directory file
  | none, none => old

/-- Settings with the command line on top; a directory may also come from the surroundings. -/
def overlay (options : Options) (surrounding : Option String) (settings : Settings) : Settings :=
  let vendor := options.vendor.getD settings.vendor
  let directory := options.directory.or surrounding
  { settings with
    vendor := vendor
    enforceSchema := settings.enforceSchema && !options.legacy
    legacyTimeZone := settings.legacyTimeZone && !options.noLegacyTimeZone
    locale := options.locale.getD settings.locale
    fallbackPath := options.fallback.or settings.fallbackPath
    cityPath := locate options.cityPath directory vendor.cityFile settings.cityPath
    asPath := locate options.asPath directory vendor.asFile settings.asPath }

/-- The settings of a run. -/
def settings (fs : FileSystem) (surrounding : Option String) (options : Options) :
    Except SetupFault Settings :=
  match options.base fs with
  | .error fault => .error fault
  | .ok below =>
    match (options.overlay surrounding below).checked with
    | .ok settings => .ok settings
    | .error fault => .error (.invalid fault)

end Options

end CommandLine

end GeoTag
