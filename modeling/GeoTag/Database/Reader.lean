import GeoTag.Database.IpInfo
import GeoTag.Database.MaxMind
import GeoTag.FileSystem

/-!
# Readers of databases

A `Database.Reader` makes of the bytes of a file a database that can be asked about addresses, a
`Database.View`.  What is built on databases works with any reader; `Database.reader` is the one that
the program uses.  The records in a view, as those of either vendor, become sources of locations and of
autonomous systems.
-/

namespace GeoTag

namespace Database

/-- What an open database says of an address, in records of one kind or another. -/
structure View where
  /-- What it says in a city record. -/
  city : Address → Except DatabaseFault (Option MaxMind.City)
  /-- What it says in an ASN record. -/
  system : Address → Except DatabaseFault (Option MaxMind.System)
  /-- What it says in a JSON value. -/
  json : Address → Except DatabaseFault (Option Json)

/-- What opens databases. -/
structure Reader where
  /-- The database of the bytes of a file. -/
  parse : ByteArray → Except DatabaseFault View

/-- The database of a file. -/
def Reader.load (reader : Reader) (fs : FileSystem) (path : String) : Except DatabaseFault View :=
  match fs.read path with
  | .ok bytes => reader.parse bytes
  | .error _ => .error .unreadable

/-- The values of a database, read as records of each kind. -/
def view (db : Database) : View where
  city := db.lookup MaxMind.city
  system := db.lookup MaxMind.system
  json := db.lookup json

/-- The reader of files that are laid out as `Database.parse` says. -/
def reader : Reader where
  parse bytes :=
    match parse bytes with
    | .ok db => .ok db.view
    | .error fault => .error fault

end Database

/-- A named source of what a function makes of the records that are known of addresses. -/
def Backend.ofRecords {α β : Type} (name : String)
    (record : Address → Except DatabaseFault (Option α)) (make : α → Option β) : Backend β where
  name := name
  lookup address :=
    match record address with
    | .ok found => .ok (found.bind make)
    | .error cause => .error ⟨address, cause⟩

namespace MaxMind

/-- A city database as a source of locations, with names for a locale. -/
def cityBackend (db : Database.View) (label locale : String) : Backend Location :=
  .ofRecords ("maxmind-city:" ++ label) db.city fun city => some (city.location locale)

/-- An ASN database as a source of autonomous systems. -/
def asBackend (db : Database.View) (label : String) : Backend AsInfo :=
  .ofRecords ("maxmind-asn:" ++ label) db.system System.info

end MaxMind

namespace IpInfo

/-- A location database as a source of locations. -/
def cityBackend (db : Database.View) (label : String) : Backend Location :=
  .ofRecords ("ipinfo-location:" ++ label) db.json fun record => some (location record)

/-- An ASN database as a source of autonomous systems. -/
def asBackend (db : Database.View) (label : String) : Backend AsInfo :=
  .ofRecords ("ipinfo-asn:" ++ label) db.json info

end IpInfo

end GeoTag
