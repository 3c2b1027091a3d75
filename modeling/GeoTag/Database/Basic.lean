import GeoTag.Database.Record
import GeoTag.Database.Tree

/-!
# Databases

A database file is a search tree, a data section and, behind the last marker in the file, metadata.
`Database.parse` reads the metadata and finds where addresses of IPv4 start in a tree of IPv6;
`Database.lookup` walks the tree and reads what stands at the data it leads to.
-/

namespace GeoTag

/-- A database of values by address. -/
structure Database where
  /-- The search tree. -/
  tree : Database.Tree
  /-- The data section. -/
  data : Database.Section
  /-- The place in the tree from which IPv4 addresses are looked up. -/
  start4 : Nat

namespace Database

/-- What a file says about itself. -/
structure Metadata where
  /-- The number of nodes of the tree. -/
  nodeCount : Nat
  /-- The number of bits of a place in the tree. -/
  placeBits : Nat
  /-- The version of IP that the tree is made for. -/
  ipVersion : Nat
deriving DecidableEq, Repr

/-- The members of the metadata, all of which must come. -/
def Metadata.members : List (Member Metadata) :=
  List.map Member.needed
    [.checked "binary_format_major_version" (natural 16),
      .checked "binary_format_minor_version" (natural 16),
      .checked "build_epoch" (natural 64),
      .checked "database_type" text,
      .checked "description" dictionary,
      .kept "ip_version" (natural 16) fun m n => { m with ipVersion := n },
      .checked "languages" (list text),
      .kept "node_count" (natural 32) fun m n => { m with nodeCount := n },
      .kept "record_size" (natural 16) fun m n => { m with placeBits := n }]

/-- What stands before the metadata. -/
def marker : List UInt8 := [0xAB, 0xCD, 0xEF] ++ "MaxMind.com".toUTF8.toList

/-- The marker stands at an offset. -/
def markerAt (bytes : ByteArray) (offset : Nat) : Bool :=
  (bytes.extract offset (offset + marker.length)).toList = marker

/-- The last offset below a bound at which the marker stands. -/
def lastMarkerBelow (bytes : ByteArray) : Nat → Option Nat
  | 0 => none
  | offset + 1 => if markerAt bytes offset then some offset else lastMarkerBelow bytes offset

/-- Where the metadata starts: behind the last marker. -/
def metadataStart? (bytes : ByteArray) : Option Nat :=
  (lastMarkerBelow bytes bytes.size).map (· + marker.length)

/-- The metadata of a file. -/
def metadata (bytes : ByteArray) : Except DatabaseFault Metadata :=
  match metadataStart? bytes with
  | none => .error .invalid
  | some start => (record Metadata.members ⟨0, 0, 0⟩).valueAt ⟨bytes, start⟩ 0

/-- The number of zero bits before an IPv4 address in a tree of IPv6. -/
def zeroBits : Nat := 96

/-- The number of bytes between the tree and the data section. -/
def separatorSize : Nat := 16

/-- The place from which IPv4 addresses are looked up. -/
def findStart4 (tree : Tree) (ipVersion : Nat) : Except DatabaseFault Nat :=
  if ipVersion = 6 then tree.walk (List.replicate zeroBits false) 0 else .ok 0

/-- The database of the bytes of a file. -/
def parse (bytes : ByteArray) : Except DatabaseFault Database :=
  match metadata bytes with
  | .error fault => .error fault
  | .ok about =>
    let tree : Tree := ⟨bytes, about.nodeCount, about.placeBits⟩
    match findStart4 tree about.ipVersion with
    | .error fault => .error fault
    | .ok start4 => .ok ⟨tree, ⟨bytes, tree.size + separatorSize⟩, start4⟩

/-- The place from which an address is looked up. -/
def startOf (db : Database) : Address → Nat
  | .v4 _ => db.start4
  | .v6 _ => 0

/-- The offset in the data section of what is known about an address. -/
def find? (db : Database) (address : Address) : Except DatabaseFault (Option Nat) :=
  match db.tree.walk address.toBits (db.startOf address) with
  | .error fault => .error fault
  | .ok place =>
    let count := db.tree.nodeCount
    if place = count then .ok none
    else if count + separatorSize ≤ place then .ok (some (place - count - separatorSize))
    else .error .invalid

/-- What is known about an address. -/
def lookup {α : Type} (db : Database) (value : Scan α) (address : Address) :
    Except DatabaseFault (Option α) :=
  match db.find? address with
  | .error fault => .error fault
  | .ok none => .ok none
  | .ok (some offset) => (value.valueAt db.data offset).map some

end Database

end GeoTag
