import GeoTag.Database.Scan

/-!
# Search trees

A file starts with the nodes of a binary tree: two numbers a node, the next place for a bit 0 and
for a bit 1.  A place below the number of nodes is a node, that number itself says that nothing is
known, and a place above it points at data.  `Tree.walk` follows bits until it leaves the nodes.
-/

namespace GeoTag

namespace Address

/-- The bits of a word, the most significant first. -/
def bitsOf {w : Nat} (bits : BitVec w) : List Bool := (List.range w).map bits.getMsbD

/-- The bits of an address, the most significant first. -/
def toBits : Address → List Bool
  | .v4 bits => bitsOf bits
  | .v6 bits => bitsOf bits

end Address

namespace Database

/-- The nodes at the start of a file. -/
structure Tree where
  /-- The bytes of the file. -/
  bytes : ByteArray
  /-- The number of nodes. -/
  nodeCount : Nat
  /-- The number of bits of a place. -/
  placeBits : Nat

namespace Tree

/-- The number of some bytes of the file, the most significant first. -/
def number (tree : Tree) (first count : Nat) : Except DatabaseFault Nat :=
  (Scan.number count).valueAt ⟨tree.bytes, 0⟩ first

/-- The place that a bit leads to from a node.  Places of 28 bits share the middle byte of a node:
its high half is the top of the first place, its low half the top of the second. -/
def next (tree : Tree) (node : Nat) (bit : Bool) : Except DatabaseFault Nat :=
  match tree.placeBits with
  | 24 => tree.number (node * 6 + if bit then 3 else 0) 3
  | 28 => do
    let middle ← tree.number (node * 7 + 3) 1
    let low ← tree.number (node * 7 + if bit then 4 else 0) 3
    return (if bit then middle % 16 else middle / 16) * 0x1000000 + low
  | 32 => tree.number (node * 8 + if bit then 4 else 0) 4
  | _ => .error .invalid

/-- The place that bits lead to; bits after the last node are left over. -/
def walk (tree : Tree) : List Bool → Nat → Except DatabaseFault Nat
  | [], place => .ok place
  | bit :: bits, place =>
    if place < tree.nodeCount then
      match tree.next place bit with
      | .ok place => tree.walk bits place
      | .error fault => .error fault
    else .ok place

/-- The number of bytes that all nodes take. -/
def size (tree : Tree) : Nat := tree.nodeCount * tree.placeBits / 4

end Tree

end Database

end GeoTag
