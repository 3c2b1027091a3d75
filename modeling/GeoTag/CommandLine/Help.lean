import GeoTag.CommandLine.Options

/-!
# Help

`helpText` tells what the program does, how it is called and what each option is for.  An option has
a row of its own: on the left its letter, its long name and what stands for its value, on the right,
from one column on for all of them, its purpose.
-/

namespace GeoTag

namespace CommandLine

/-- The name of the program. -/
def programName : String := "geoipenrich"

/-- The name and the version of the program. -/
def versionText : String := programName ++ " 0.1.0\n"

/-- The name of the variable in the surroundings that names the directory of databases. -/
def directoryVariable : String := "GEOIP_MMDB_DIR"

/-- What stands for the value of an option. -/
def Setting.valueName : Setting → String
  | .config | .cityPath | .asPath | .fallback => "FILE"
  | .vendor => "VENDOR"
  | .directory => "DIR"
  | .locale => "LOCALE"

/-- What an option that takes a value is for. -/
def Setting.purpose : Setting → String
  | .config => "Load settings from a JSON configuration file. Other options override it"
  | .vendor => "Database vendor: MAXMIND or IPINFO"
  | .cityPath => "Location (city) database file"
  | .asPath => "ASN database file"
  | .directory =>
    "Specify directory containing the MMDB database files. " ++
    "Used for any database not given explicitly"
  | .fallback => "Range table consulted when the location database has no answer"
  | .locale => "Preferred language for city, region and country names"

/-- What an option without a value is for. -/
def Switch.purpose : Switch → String
  | .legacy => "Inspect every field and write legacy field names instead of the strict schema"
  | .noLegacyTimeZone => "Leave out the time zone field in legacy mode"
  | .stats => "Print lookup timing statistics to stderr when done"
  | .verbose =>
    "Increase log verbosity (-v info, -vv debug, -vvv trace). RUST_LOG takes precedence"
  | .help => "Print help"
  | .version => "Print version"

namespace Flag

/-- All options, in the order of their rows. -/
def all : List Flag :=
  [.takes .config, .takes .vendor, .takes .cityPath, .takes .asPath, .takes .directory,
    .takes .fallback, .turns .legacy, .turns .noLegacyTimeZone, .takes .locale, .turns .stats,
    .turns .verbose, .turns .help, .turns .version]

/-- The letter of an option. -/
def letter? (flag : Flag) : Option Char := (letters.find? fun l => l.2 = flag).map Prod.fst

/-- The long name of an option. -/
def longName? (flag : Flag) : Option String := (longNames.find? fun n => n.2 = flag).map Prod.fst

/-- The names of an option; long names stand below each other, with a letter before them or not. -/
def names (flag : Flag) : String :=
  match flag.letter?, flag.longName? with
  | some c, some name => String.ofList ['-', c, ','] ++ " --" ++ name
  | some c, none => String.ofList ['-', c]
  | none, some name => "    --" ++ name
  | none, none => ""

/-- How an option is written; three dots follow the one that counts how often it is given. -/
def form (flag : Flag) : String :=
  flag.names ++
    match flag with
    | .takes setting => " <" ++ setting.valueName ++ ">"
    | .turns .verbose => "..."
    | .turns _ => ""

/-- What an option is for.  The directory of databases may also come from the surroundings; what it
is there is shown. -/
def purpose (surrounding : Option String) : Flag → String
  | .takes .directory =>
    Setting.directory.purpose ++ " [env: " ++ directoryVariable ++ "=" ++ surrounding.getD "" ++ "]"
  | .takes setting => setting.purpose
  | .turns switch => switch.purpose

end Flag

/-- That many blanks. -/
def blanks (n : Nat) : String := String.ofList (List.replicate n ' ')

/-- A row: what is described on the left and, from a column on, its description, line for line. -/
def helpRow (column : Nat) (left description : String) : String :=
  let lines := (Text.splitOn '\n' description.toList).map String.ofList
  "  " ++ left ++ blanks (column - 2 - left.length) ++
    String.intercalate ("\n" ++ blanks column) lines

/-- The lines of the help. -/
def helpLines (surrounding : Option String) : List String :=
  ["Geolocation and ASN enrichment of IP-bearing log record fields",
    "",
    "Usage: " ++ programName ++ " [OPTIONS] [FILE]...",
    "",
    "Arguments:",
    helpRow 13 "[FILE]..." "Input file(s) to process. Leave empty or use \"-\" to read from stdin",
    "",
    "Options:"] ++
  Flag.all.map fun flag => helpRow 32 flag.form (flag.purpose surrounding)

/-- How the program is used. -/
def helpText (surrounding : Option String) : String :=
  String.join ((helpLines surrounding).map fun line => line ++ "\n")

end CommandLine

end GeoTag
