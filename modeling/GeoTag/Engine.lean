import GeoTag.Lookup
import GeoTag.Policy

/-!
# Enriching records

An `Engine` walks the candidate fields of a record, which are fixed before the first of them is
visited; the value of each is read when it is visited.  A value that is no address is passed over,
a reserved address is marked, and any other address is looked up: its location first and then, in a
schema with names for it, its autonomous system.  `Engine.filter` answers the record it leaves and
the look-ups it made, in order.
-/

namespace GeoTag

/-- What is looked up about an address. -/
inductive Topic where
  /-- Where the address is. -/
  | location
  /-- Which autonomous system announces the address. -/
  | autonomousSystem
deriving DecidableEq, Repr

/-- One look-up. -/
structure Lookup where
  /-- What is looked up. -/
  topic : Topic
  /-- The address that is looked up. -/
  address : Address
deriving DecidableEq, Repr

/-- A policy with the resolvers that feed it. -/
structure Engine where
  /-- Where locations come from. -/
  city : Resolver Location
  /-- Where autonomous systems come from. -/
  asn : Resolver AsInfo
  /-- What is written. -/
  policy : Policy
  /-- The engine does anything at all. -/
  enabled : Bool

/-- A record on its way through an engine. -/
structure Progress where
  /-- The record so far. -/
  record : Record
  /-- The look-ups so far. -/
  lookups : List Lookup

/-- What an engine makes of a record. -/
structure Filtered where
  /-- The engine is enabled. -/
  applied : Bool
  /-- The record it leaves. -/
  record : Record
  /-- The look-ups it made. -/
  lookups : List Lookup

namespace Progress

/-- Writes a resolved answer and notes that it was asked for. -/
def settle {α : Type} (progress : Progress) (lookup : Lookup) (answer : Answer α)
    (write : Record → α → Record) : Progress where
  record :=
    match answer.found with
    | some found => write progress.record found
    | none => progress.record
  lookups := if answer.asked then progress.lookups ++ [lookup] else progress.lookups

end Progress

namespace Engine

/-- The schema in force. -/
def schema (engine : Engine) : Schema := engine.policy.schema

/-- Looks up where a public address is. -/
def locate (engine : Engine) (stem : String) (address : Address) (progress : Progress) : Progress :=
  progress.settle ⟨.location, address⟩ (engine.city.resolve address) fun record location =>
    engine.policy.putLocation record stem location

/-- Looks up the autonomous system of a public address, in a schema with names for it. -/
def findSystem (engine : Engine) (stem : String) (address : Address) (progress : Progress) :
    Progress :=
  if engine.schema.wantsAs then
    progress.settle ⟨.autonomousSystem, address⟩ (engine.asn.resolve address) fun record info =>
      engine.policy.putAs record stem info
  else progress

/-- Marks or looks up the address that a candidate field holds. -/
def enrich (engine : Engine) (stem : String) (address : Address) (progress : Progress) : Progress :=
  if address.isReserved then
    { progress with record := Policy.markReserved progress.record stem }
  else engine.findSystem stem address (engine.locate stem address progress)

/-- Visits a candidate field. -/
def visit (engine : Engine) (progress : Progress) (name : String) : Progress :=
  match (progress.record.get? name).bind FieldValue.address? with
  | none => progress
  | some address => engine.enrich (engine.schema.stem name) address progress

/-- Visits the candidate fields of a record. -/
def run (engine : Engine) (record : Record) : Progress :=
  (engine.schema.candidates record).foldl engine.visit ⟨record, []⟩

/-- Enriches a record; a disabled engine leaves it alone. -/
def filter (engine : Engine) (record : Record) : Filtered :=
  if engine.enabled then
    let progress := engine.run record
    ⟨true, progress.record, progress.lookups⟩
  else ⟨false, record, []⟩

end Engine

end GeoTag
