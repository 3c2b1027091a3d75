import GeoTag.Settings.Basic
import GeoTag.Text.Split

/-!
# Options

A command line is read from left to right: long names after two hyphens, letters, which may be
joined, after one, and every other word is an input.  An option with a value takes it from behind an
equals sign, from the rest of its word or from the next word, which must not look like an option.
After two hyphens alone every word is an input.  `Request.parse` stops at the first fault and at the
first request for help or for the version.
-/

namespace GeoTag

namespace CommandLine

/-- An option that takes a value. -/
inductive Setting where
  | config | vendor | cityPath | asPath | directory | fallback | locale
deriving DecidableEq, Repr

/-- An option without a value. -/
inductive Switch where
  | legacy | noLegacyTimeZone | stats | verbose | help | version
deriving DecidableEq, Repr

/-- An option of either kind. -/
inductive Flag where
  /-- An option that takes a value. -/
  | takes (setting : Setting)
  /-- An option without a value. -/
  | turns (switch : Switch)
deriving DecidableEq, Repr

/-- Long names. -/
def longNames : List (String × Flag) :=
  [("config", .takes .config), ("vendor", .takes .vendor), ("city-db", .takes .cityPath),
    ("asn-db", .takes .asPath), ("fallback-ranges", .takes .fallback), ("locale", .takes .locale),
    ("legacy", .turns .legacy), ("no-legacy-timezone", .turns .noLegacyTimeZone),
    ("stats", .turns .stats), ("verbose", .turns .verbose), ("help", .turns .help),
    ("version", .turns .version)]

/-- Letters. -/
def letters : List (Char × Flag) :=
  [('c', .takes .config), ('I', .takes .directory), ('v', .turns .verbose), ('h', .turns .help),
    ('V', .turns .version)]

/-- What a command line says. -/
structure Options where
  /-- The path of the settings document. -/
  config : Option String
  /-- Whose databases are read. -/
  vendor : Option Vendor
  /-- The path of the location database. -/
  cityPath : Option String
  /-- The path of the database of autonomous systems. -/
  asPath : Option String
  /-- The directory of the databases that are not named. -/
  directory : Option String
  /-- The path of the range table. -/
  fallback : Option String
  /-- The language of names. -/
  locale : Option String
  /-- The legacy schema is in force. -/
  legacy : Bool
  /-- Legacy records get no time zone. -/
  noLegacyTimeZone : Bool
  /-- Statistics are written at the end. -/
  stats : Bool
  /-- How much is asked to be told. -/
  verbosity : Nat
  /-- The inputs. -/
  inputs : List String
deriving DecidableEq, Repr

/-- The options of an empty command line. -/
def Options.empty : Options where
  config := none
  vendor := none
  cityPath := none
  asPath := none
  directory := none
  fallback := none
  locale := none
  legacy := false
  noLegacyTimeZone := false
  stats := false
  verbosity := 0
  inputs := []

/-- What is wrong with a command line. -/
inductive UsageFault where
  /-- There is no such option. -/
  | unknown (text : String)
  /-- An option lacks its value. -/
  | valueMissing (setting : Setting)
  /-- An option is given a value that it does not take. -/
  | valueUnwanted (switch : Switch)
  /-- An option comes twice. -/
  | repeated (flag : Flag)
  /-- There is no such vendor. -/
  | vendor (name : String)
deriving DecidableEq, Repr

/-- What a command line asks for. -/
inductive Request where
  /-- Enrich the inputs. -/
  | run (options : Options)
  /-- Show how the program is used. -/
  | help
  /-- Show the version of the program. -/
  | version
deriving DecidableEq, Repr

/-- What reading a word leads to. -/
inductive Step where
  /-- The next word is read; it may have to be a value. -/
  | next (options : Options) (pending : Option Setting)
  /-- Nothing more is read. -/
  | stop (request : Request)

namespace Options

/-- Puts a value where there is none yet. -/
def fill {α : Type} (setting : Setting) (old : Option α) (value : α) :
    Except UsageFault (Option α) :=
  match old with
  | none => .ok (some value)
  | some _ => .error (.repeated (.takes setting))

/-- Takes the value of an option. -/
def set (options : Options) (setting : Setting) (value : String) : Except UsageFault Options :=
  match setting with
  | .config => (fill setting options.config value).map fun v => { options with config := v }
  | .vendor =>
    match Vendor.ofName? value with
    | none => .error (.vendor value)
    | some vendor => (fill setting options.vendor vendor).map fun v => { options with vendor := v }
  | .cityPath => (fill setting options.cityPath value).map fun v => { options with cityPath := v }
  | .asPath => (fill setting options.asPath value).map fun v => { options with asPath := v }
  | .directory =>
    (fill setting options.directory value).map fun v => { options with directory := v }
  | .fallback => (fill setting options.fallback value).map fun v => { options with fallback := v }
  | .locale => (fill setting options.locale value).map fun v => { options with locale := v }

/-- Takes an option without a value. -/
def turn (options : Options) (switch : Switch) : Except UsageFault Step :=
  let once (old : Bool) (new : Options) : Except UsageFault Step :=
    if old then .error (.repeated (.turns switch)) else .ok (.next new none)
  match switch with
  | .legacy => once options.legacy { options with legacy := true }
  | .noLegacyTimeZone => once options.noLegacyTimeZone { options with noLegacyTimeZone := true }
  | .stats => once options.stats { options with stats := true }
  | .verbose => .ok (.next { options with verbosity := options.verbosity + 1 } none)
  | .help => .ok (.stop .help)
  | .version => .ok (.stop .version)

/-- Takes an option whose value is at hand or still to come. -/
def take (options : Options) (setting : Setting) (value? : Option String) :
    Except UsageFault Step :=
  match value? with
  | some value => (options.set setting value).map fun options => .next options none
  | none => .ok (.next options (some setting))

/-- Reads a long name and the value behind an equals sign. -/
def readLong (options : Options) (name : String) (value? : Option String) :
    Except UsageFault Step :=
  match Keyed.get? name longNames with
  | none => .error (.unknown ("--" ++ name))
  | some (.takes setting) => options.take setting value?
  | some (.turns switch) =>
    if value?.isSome then .error (.valueUnwanted switch) else options.turn switch

/-- The value in the rest of a word behind a letter, with an equals sign before it or not. -/
def restValue? : List Char → Option String
  | [] => none
  | '=' :: value => some (String.ofList value)
  | value => some (String.ofList value)

/-- Reads joined letters. -/
def readLetters : Options → List Char → Except UsageFault Step
  | options, [] => .ok (.next options none)
  | options, c :: rest =>
    match letters.find? fun l => l.1 = c with
    | none => .error (.unknown (String.ofList ['-', c]))
    | some (_, .takes setting) => options.take setting (restValue? rest)
    | some (_, .turns switch) =>
      match options.turn switch with
      | .ok (.next options _) => readLetters options rest
      | other => other

end Options

/-- The word looks like an option: it starts with a hyphen and does not end there. -/
def looksLikeOption (word : String) : Bool :=
  match word.toList with
  | '-' :: _ :: _ => true
  | _ => false

/-- Reads a word that is no value. -/
def readWord (options : Options) (word : String) : Except UsageFault Step :=
  match word.toList with
  | '-' :: '-' :: text =>
    match Text.splitOnce '=' text with
    | some (name, value) => options.readLong (String.ofList name) (some (String.ofList value))
    | none => options.readLong (String.ofList text) none
  | '-' :: c :: rest => options.readLetters (c :: rest)
  | _ => .ok (.next { options with inputs := options.inputs ++ [word] } none)

/-- Reads words; the first of them may have to be a value. -/
def readWords : Options → Option Setting → List String → Except UsageFault Request
  | options, none, [] => .ok (.run options)
  | _, some setting, [] => .error (.valueMissing setting)
  | options, some setting, word :: words =>
    if looksLikeOption word then .error (.valueMissing setting)
    else
      match options.set setting word with
      | .error fault => .error fault
      | .ok options => readWords options none words
  | options, none, word :: words =>
    if word = "--" then .ok (.run { options with inputs := options.inputs ++ words })
    else
      match readWord options word with
      | .error fault => .error fault
      | .ok (.stop request) => .ok request
      | .ok (.next options pending) => readWords options pending words

/-- What a command line asks for. -/
def Request.parse (words : List String) : Except UsageFault Request :=
  readWords Options.empty none words

end CommandLine

end GeoTag
