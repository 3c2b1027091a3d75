import GeoTag.Json.Printer
import GeoTag.Json.Skipper
import GeoTag.Settings.Basic

/-!
# Settings as a document

Settings are written as a JSON object with a member for each, or as an array of their values in
order.  `Settings.decode` reads such a document from the front and stops at the first fault: a
missing setting keeps its default, an unknown member is passed over, and a member that comes twice
is a fault before its second value is read.  `Settings.load` also asks that the settings are valid.
`Settings.toJson` writes them.
-/

namespace GeoTag

namespace Settings

/-- A setting. -/
inductive Key where
  | enabled | enforceSchema | vendor | cityPath | asPath | fallbackPath | cityEnabled | asEnabled
  | locale | legacyTimeZone
deriving DecidableEq, Repr

namespace Key

/-- All settings, in the order of an array. -/
def all : List Key :=
  [enabled, enforceSchema, vendor, cityPath, asPath, fallbackPath, cityEnabled, asEnabled, locale,
    legacyTimeZone]

/-- The name of a setting in a document. -/
def name : Key → String
  | enabled => "enabled"
  | enforceSchema => "enforce_graylog_schema"
  | vendor => "db_vendor_type"
  | cityPath => "city_db_path"
  | asPath => "asn_db_path"
  | fallbackPath => "fallback_range_table_path"
  | cityEnabled => "city_enabled"
  | asEnabled => "asn_enabled"
  | locale => "locale"
  | legacyTimeZone => "legacy_timezone"

/-- The setting with a name. -/
def ofName? (s : String) : Option Key := all.find? fun key => key.name = s

end Key

/-! ### Faults -/

/-- What stands where something else is wanted. -/
inductive Found where
  | null
  | bool (value : Bool)
  | number (value : Json.Number)
  | string (value : String)
  | array
  | object
deriving DecidableEq

/-- What is found, in words. -/
def Found.toText : Found → String
  | .null => "null"
  | .bool b => "boolean `" ++ toString b ++ "`"
  | .number (.integer i fits) =>
    "integer `" ++ String.ofList (Json.Number.render (.integer i fits)) ++ "`"
  | .number (.float f finite) =>
    "floating point `" ++ String.ofList (Json.Number.render (.float f finite)) ++ "`"
  | .string s => "string " ++ Text.quoted s
  | .array => "sequence"
  | .object => "map"

/-- What is wanted. -/
inductive Wanted where
  | bool | string | path | unit | settings
deriving DecidableEq, Repr

/-- What is wanted, in words. -/
def Wanted.toText : Wanted → String
  | .bool => "a boolean"
  | .string => "a string"
  | .path => "a UTF-8 path string"
  | .unit => "unit"
  | .settings => "struct EnrichmentConfig"

/-- What is wrong with a document. -/
inductive DocumentFault where
  /-- The document is no JSON text. -/
  | malformed
  /-- A value is of another kind than wanted. -/
  | kind (found : Found) (wanted : Wanted)
  /-- The vendor is none of the known ones. -/
  | unknownVendor (name : String)
  /-- A setting comes twice. -/
  | duplicate (key : Key)
deriving DecidableEq

/-- The fault in words. -/
def DocumentFault.message : DocumentFault → String
  | .malformed => "malformed JSON"
  | .kind found wanted => "invalid type: " ++ found.toText ++ ", expected " ++ wanted.toText
  | .unknownVendor name => "unknown variant `" ++ name ++ "`, expected `MAXMIND` or `IPINFO`"
  | .duplicate key => "duplicate field `" ++ key.name ++ "`"

/-! ### Reading -/

/-- A value at the start of a text and the rest of the text, or a fault. -/
abbrev Step (α : Type) := Except DocumentFault (α × List Char)

/-- What comes of a reader of well-formed text, with its value as a case of another type. -/
def orMalformed {α β : Type} (f : α → β) : Option (α × List Char) → Step β
  | some (a, rest) => .ok (f a, rest)
  | none => .error .malformed

/-- The fault of a value that is not of the wanted kind. -/
def wrongKind (wanted : Wanted) (cs : List Char) : DocumentFault :=
  let fault (found : Option Found) : DocumentFault :=
    match found with
    | some found => .kind found wanted
    | none => .malformed
  match Json.skipSpace cs with
  | [] => .malformed
  | c :: rest =>
    if c = '"' then fault ((Json.readString? rest).map fun (s, _) => .string s)
    else if c = '[' then .kind .array wanted
    else if c = '\x7b' then .kind .object wanted
    else if c = 'n' then fault ((Json.readWord? ['u', 'l', 'l'] rest).map fun _ => .null)
    else if c = 't' then fault ((Json.readWord? ['r', 'u', 'e'] rest).map fun _ => .bool true)
    else if c = 'f' then
      fault ((Json.readWord? ['a', 'l', 's', 'e'] rest).map fun _ => .bool false)
    else fault ((Json.Number.read? (c :: rest)).map fun (n, _) => .number n)

/-- A truth value. -/
def readBool (cs : List Char) : Step Bool :=
  match Json.skipSpace cs with
  | 't' :: rest =>
    orMalformed id ((Json.readWord? ['r', 'u', 'e'] rest).map fun rest => (true, rest))
  | 'f' :: rest =>
    orMalformed id ((Json.readWord? ['a', 'l', 's', 'e'] rest).map fun rest => (false, rest))
  | _ => .error (wrongKind .bool cs)

/-- A string. -/
def readText (wanted : Wanted) (cs : List Char) : Step String :=
  match Json.skipSpace cs with
  | '"' :: rest => orMalformed id (Json.readString? rest)
  | _ => .error (wrongKind wanted cs)

/-- A path or `null`. -/
def readPath? (cs : List Char) : Step (Option String) :=
  match Json.skipSpace cs with
  | 'n' :: rest =>
    orMalformed id ((Json.readWord? ['u', 'l', 'l'] rest).map fun rest => (none, rest))
  | _ => (readText .path cs).map fun (s, rest) => (some s, rest)

/-- The name of a vendor, after its opening quote. -/
def readVendorName (cs : List Char) : Step Vendor :=
  match Json.readString? cs with
  | none => .error .malformed
  | some (name, rest) =>
    match Vendor.ofTag? name with
    | some vendor => .ok (vendor, rest)
    | none => .error (.unknownVendor name)

/-- A colon and then `null`. -/
def readColonNull (cs : List Char) : Step Unit :=
  match Json.skipSpace cs with
  | ':' :: rest =>
    match Json.skipSpace rest with
    | 'n' :: rest =>
      orMalformed id ((Json.readWord? ['u', 'l', 'l'] rest).map fun rest => ((), rest))
    | _ => .error (wrongKind .unit rest)
  | _ => .error .malformed

/-- A vendor: its name, or an object in which `null` stands under its name and nothing else.  Of any
other kind of value, and of an object that does not open with a quote, the document is malformed. -/
def readVendor (cs : List Char) : Step Vendor :=
  match Json.skipSpace cs with
  | '"' :: rest => readVendorName rest
  | '\x7b' :: rest =>
    match Json.skipSpace rest with
    | '"' :: rest =>
      match readVendorName rest with
      | .error fault => .error fault
      | .ok (vendor, rest) =>
        match readColonNull rest with
        | .error fault => .error fault
        | .ok (_, rest) =>
          match Json.skipSpace rest with
          | '\x7d' :: rest => .ok (vendor, rest)
          | _ => .error .malformed
    | _ => .error .malformed
  | _ => .error .malformed

/-- The value of a setting. -/
def readSetting (settings : Settings) (cs : List Char) : Key → Step Settings
  | .enabled => (readBool cs).map fun (b, rest) => ({ settings with enabled := b }, rest)
  | .enforceSchema =>
    (readBool cs).map fun (b, rest) => ({ settings with enforceSchema := b }, rest)
  | .vendor => (readVendor cs).map fun (v, rest) => ({ settings with vendor := v }, rest)
  | .cityPath => (readText .path cs).map fun (s, rest) => ({ settings with cityPath := s }, rest)
  | .asPath => (readText .path cs).map fun (s, rest) => ({ settings with asPath := s }, rest)
  | .fallbackPath => (readPath? cs).map fun (s, rest) => ({ settings with fallbackPath := s }, rest)
  | .cityEnabled => (readBool cs).map fun (b, rest) => ({ settings with cityEnabled := b }, rest)
  | .asEnabled => (readBool cs).map fun (b, rest) => ({ settings with asEnabled := b }, rest)
  | .locale => (readText .string cs).map fun (s, rest) => ({ settings with locale := s }, rest)
  | .legacyTimeZone =>
    (readBool cs).map fun (b, rest) => ({ settings with legacyTimeZone := b }, rest)

/-- The value of a member under a name, after the name. -/
def readMember (settings : Settings) (key : Option Key) (cs : List Char) : Step Settings :=
  match Json.skipSpace cs with
  | ':' :: rest =>
    match key with
    | some key => readSetting settings rest key
    | none => orMalformed (fun _ => settings) ((Json.skipValue? rest).map fun rest => ((), rest))
  | _ => .error .malformed

/-- The members of an object up to its closing brace; `first` before the first of them. -/
def readMembers : Nat → Bool → List Key → Settings → List Char → Step Settings
  | 0, _, _, _, _ => .error .malformed
  | fuel + 1, first, seen, settings, cs =>
    let member (rest : List Char) : Step Settings :=
      match Json.readString? rest with
      | none => .error .malformed
      | some (name, rest) =>
        let key := Key.ofName? name
        match key.filter fun k => k ∈ seen with
        | some k => .error (.duplicate k)
        | none =>
          match readMember settings key rest with
          | .error fault => .error fault
          | .ok (settings, rest) => readMembers fuel false (key.toList ++ seen) settings rest
    match first, Json.skipSpace cs with
    | _, '\x7d' :: rest => .ok (settings, rest)
    | true, '"' :: rest => member rest
    | false, ',' :: rest =>
      match Json.skipSpace rest with
      | '"' :: rest => member rest
      | _ => .error .malformed
    | _, _ => .error .malformed

/-- The items of an array, one for each of the settings still to come, up to its closing bracket. -/
def readItems : List Key → Bool → Settings → List Char → Step Settings
  | [], _, settings, cs =>
    match Json.skipSpace cs with
    | ']' :: rest => .ok (settings, rest)
    | _ => .error .malformed
  | key :: keys, first, settings, cs =>
    let item (rest : List Char) : Step Settings :=
      match readSetting settings rest key with
      | .error fault => .error fault
      | .ok (settings, rest) => readItems keys false settings rest
    match first, Json.skipSpace cs with
    | _, ']' :: rest => .ok (settings, rest)
    | true, rest => item rest
    | false, ',' :: rest =>
      match Json.skipSpace rest with
      | ']' :: _ => .error .malformed
      | rest => item rest
    | false, _ => .error .malformed

/-- The settings at the start of a text. -/
def readDocument (cs : List Char) : Step Settings :=
  match Json.skipSpace cs with
  | '[' :: rest => readItems Key.all true default rest
  | '\x7b' :: rest => readMembers (rest.length + 1) true [] default rest
  | _ => .error (wrongKind .settings cs)

/-- The settings of a whole document. -/
def decode (s : String) : Except DocumentFault Settings :=
  match readDocument s.toList with
  | .error fault => .error fault
  | .ok (settings, rest) =>
    if (Json.skipSpace rest).isEmpty then .ok settings else .error .malformed

/-- Why settings could not be loaded. -/
inductive LoadFault where
  /-- The file could not be read. -/
  | io (fault : IoFault)
  /-- The document is faulty. -/
  | document (fault : DocumentFault)
  /-- The settings are not valid. -/
  | invalid (settings : Settings)
deriving DecidableEq

/-- The fault in words. -/
def LoadFault.message : LoadFault → String
  | .io fault => fault.message
  | .document fault => "invalid configuration document: " ++ fault.message
  | .invalid settings => settings.invalidMessage

/-- The settings, if they are valid. -/
def checked (settings : Settings) : Except LoadFault Settings :=
  if settings.Valid then .ok settings else .error (.invalid settings)

/-- The valid settings of a whole document. -/
def parse (s : String) : Except LoadFault Settings :=
  match decode s with
  | .error fault => .error (.document fault)
  | .ok settings => settings.checked

/-- The valid settings of the document in a file. -/
def load (fs : FileSystem) (path : String) : Except LoadFault Settings :=
  match fs.readText path with
  | .error fault => .error (.io fault)
  | .ok text => parse text

/-! ### Writing -/

/-- The value of a setting. -/
def valueOf (settings : Settings) : Key → Json
  | .enabled => .bool settings.enabled
  | .enforceSchema => .bool settings.enforceSchema
  | .vendor => .string settings.vendor.toText
  | .cityPath => .string settings.cityPath
  | .asPath => .string settings.asPath
  | .fallbackPath => (settings.fallbackPath.map Json.string).getD .null
  | .cityEnabled => .bool settings.cityEnabled
  | .asEnabled => .bool settings.asEnabled
  | .locale => .string settings.locale
  | .legacyTimeZone => .bool settings.legacyTimeZone

/-- The settings as an object. -/
def toJson (settings : Settings) : Json :=
  .object (Key.all.map fun key => (key.name, settings.valueOf key))

/-- The settings as an array. -/
def toArray (settings : Settings) : Json := .array (Key.all.map settings.valueOf)

end Settings

end GeoTag
