import GeoTag.Address.Printer

/-!
# Special-purpose blocks

A `Block` is a network together with the number of leading bits that its addresses share.
`V4.blocks` and `V6.blocks` are the special-purpose blocks in the order in which they are searched;
`Address.reserved?` is the first one that holds an address, where an IPv4-mapped address is judged
by the IPv4 address inside it.
-/

namespace GeoTag

/-- A named block of addresses of `w` bits. -/
structure Block (w : Nat) where
  /-- What the block is set aside for. -/
  purpose : String
  /-- The first address of the block. -/
  network : BitVec w
  /-- How many leading bits the addresses of the block share. -/
  length : Nat
deriving DecidableEq, Repr

namespace Block

/-- The word whose leading `length` bits are set. -/
def mask (w length : Nat) : BitVec w := BitVec.allOnes w <<< (w - length)

/-- Membership: the leading bits of the address are those of the network. -/
def contains {w : Nat} (block : Block w) (bits : BitVec w) : Bool :=
  bits &&& mask w block.length == block.network

/-- The first block of a table that holds an address. -/
def find? {w : Nat} (table : List (Block w)) (bits : BitVec w) : Option (Block w) :=
  table.find? fun block => block.contains bits

end Block

namespace V4

/-- A block of IPv4 addresses. -/
def block (purpose : String) (octets : List Nat) (length : Nat) : Block 32 :=
  ⟨purpose, ofOctets octets, length⟩

/-- The special-purpose blocks of IPv4, with multicast. -/
def blocks : List (Block 32) :=
  [block "this-network" [0, 0, 0, 0] 8,
    block "private-use" [10, 0, 0, 0] 8,
    block "shared-address-space" [100, 64, 0, 0] 10,
    block "loopback" [127, 0, 0, 0] 8,
    block "link-local" [169, 254, 0, 0] 16,
    block "private-use" [172, 16, 0, 0] 12,
    block "ietf-protocol-assignments" [192, 0, 0, 0] 24,
    block "documentation" [192, 0, 2, 0] 24,
    block "6to4-relay-anycast" [192, 88, 99, 0] 24,
    block "private-use" [192, 168, 0, 0] 16,
    block "benchmarking" [198, 18, 0, 0] 15,
    block "documentation" [198, 51, 100, 0] 24,
    block "documentation" [203, 0, 113, 0] 24,
    block "multicast" [224, 0, 0, 0] 4,
    block "reserved" [240, 0, 0, 0] 4,
    block "limited-broadcast" [255, 255, 255, 255] 32]

end V4

namespace V6

/-- A block of IPv6 addresses. -/
def block (purpose : String) (groups : List Nat) (length : Nat) : Block 128 :=
  ⟨purpose, ofGroups groups, length⟩

/-- The special-purpose blocks of IPv6, with multicast. -/
def blocks : List (Block 128) :=
  [block "unspecified" [0, 0, 0, 0, 0, 0, 0, 0] 128,
    block "loopback" [0, 0, 0, 0, 0, 0, 0, 1] 128,
    block "ipv4-ipv6-translation" [0x64, 0xff9b, 0, 0, 0, 0, 0, 0] 96,
    block "ipv4-ipv6-translation" [0x64, 0xff9b, 1, 0, 0, 0, 0, 0] 48,
    block "discard-only" [0x100, 0, 0, 0, 0, 0, 0, 0] 64,
    block "ietf-protocol-assignments" [0x2001, 0, 0, 0, 0, 0, 0, 0] 23,
    block "documentation" [0x2001, 0xdb8, 0, 0, 0, 0, 0, 0] 32,
    block "6to4" [0x2002, 0, 0, 0, 0, 0, 0, 0] 16,
    block "documentation" [0x3fff, 0, 0, 0, 0, 0, 0, 0] 20,
    block "segment-routing" [0x5f00, 0, 0, 0, 0, 0, 0, 0] 16,
    block "unique-local" [0xfc00, 0, 0, 0, 0, 0, 0, 0] 7,
    block "link-local" [0xfe80, 0, 0, 0, 0, 0, 0, 0] 10,
    block "multicast" [0xff00, 0, 0, 0, 0, 0, 0, 0] 8]

end V6

/-- A special-purpose block of either family. -/
inductive Reserved where
  /-- A block of IPv4 addresses. -/
  | v4 (block : Block 32)
  /-- A block of IPv6 addresses. -/
  | v6 (block : Block 128)
deriving DecidableEq, Repr

namespace Reserved

/-- What the block is set aside for. -/
def purpose : Reserved → String
  | .v4 block => block.purpose
  | .v6 block => block.purpose

/-- How many leading bits the addresses of the block share. -/
def length : Reserved → Nat
  | .v4 block => block.length
  | .v6 block => block.length

/-- The first address of the block. -/
def network : Reserved → Address
  | .v4 block => .v4 block.network
  | .v6 block => .v6 block.network

/-- The purpose, the first address and the length of the block. -/
def toText (block : Reserved) : String :=
  block.purpose ++ " " ++ block.network.toText ++ "/" ++ toString block.length

end Reserved

namespace Address

/-- The special-purpose block of an address, if it is in one. -/
def reserved? : Address → Option Reserved
  | .v4 bits => (Block.find? V4.blocks bits).map .v4
  | .v6 bits =>
    match V6.mapped? bits with
    | some inner => (Block.find? V4.blocks inner).map .v4
    | none => (Block.find? V6.blocks bits).map .v6

/-- The address is in a special-purpose block. -/
def isReserved (address : Address) : Bool := address.reserved?.isSome

/-- The verdict on an address. -/
inductive Class where
  /-- The address is in a special-purpose block. -/
  | reserved (block : Reserved)
  /-- The address is worth looking up. -/
  | routable
deriving DecidableEq, Repr

/-- The verdict on an address. -/
def classify (address : Address) : Class :=
  match address.reserved? with
  | some block => .reserved block
  | none => .routable

/-- Whether the verdict names a block. -/
def Class.isReserved : Class → Bool
  | .reserved _ => true
  | .routable => false

/-- The verdict in words. -/
def Class.toText : Class → String
  | .reserved block => "reserved (" ++ block.toText ++ ")"
  | .routable => "public"

end Address

end GeoTag
