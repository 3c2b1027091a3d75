/-!
# Addresses

An `Address` is a word of 32 or 128 bits.  `V4.octets` and `V6.groups` are its parts, the most
significant first, and `V4.ofOctets` and `V6.ofGroups` put parts together; `V6.mapped?` finds the
IPv4 address inside a word of the block `::ffff:0:0/96`.
-/

namespace GeoTag

/-- An IPv4 or IPv6 address. -/
inductive Address where
  /-- An IPv4 address. -/
  | v4 (bits : BitVec 32)
  /-- An IPv6 address. -/
  | v6 (bits : BitVec 128)
deriving DecidableEq, Repr

namespace Address

/-- The number that digits in a base spell, the most significant first. -/
def ofParts (base : Nat) (parts : List Nat) : Nat := parts.foldl (fun n p => base * n + p) 0

/-- The `count` lowest digits of a number in a base, the most significant first. -/
def toParts (base : Nat) : Nat → Nat → List Nat
  | 0, _ => []
  | count + 1, n => toParts base count (n / base) ++ [n % base]

theorem length_toParts (base count n : Nat) : (toParts base count n).length = count := by
  induction count generalizing n with
  | zero => rfl
  | succ count ih => simp [toParts, ih]

theorem ofParts_append_singleton (base : Nat) (parts : List Nat) (p : Nat) :
    ofParts base (parts ++ [p]) = base * ofParts base parts + p := by
  simp [ofParts]

/-- The digits of a number spell it, up to what its width holds. -/
theorem ofParts_toParts (base count n : Nat) :
    ofParts base (toParts base count n) = n % Nat.pow base count := by
  induction count generalizing n with
  | zero => simp [toParts, ofParts, Nat.mod_one]
  | succ count ih =>
    rw [toParts, ofParts_append_singleton, ih, Nat.pow_eq, Nat.pow_eq, Nat.pow_succ', Nat.mod_mul]
    omega

theorem lt_of_mem_toParts {base count n p : Nat} (hb : 0 < base) (h : p ∈ toParts base count n) :
    p < base := by
  induction count generalizing n with
  | zero => simp [toParts] at h
  | succ count ih =>
    rw [toParts, List.mem_append, List.mem_singleton] at h
    rcases h with h | rfl
    · exact ih h
    · exact Nat.mod_lt _ hb

end Address

namespace V4

/-- The four octets of an IPv4 address. -/
def octets (bits : BitVec 32) : List Nat := Address.toParts 256 4 bits.toNat

/-- The IPv4 address with the given octets. -/
def ofOctets (parts : List Nat) : BitVec 32 := BitVec.ofNat 32 (Address.ofParts 256 parts)

theorem ofOctets_octets (bits : BitVec 32) : ofOctets (octets bits) = bits := by
  apply BitVec.eq_of_toNat_eq
  rw [ofOctets, octets, Address.ofParts_toParts, BitVec.toNat_ofNat, Nat.pow_eq]
  have := bits.isLt
  omega

end V4

namespace V6

/-- The eight groups of sixteen bits of an IPv6 address. -/
def groups (bits : BitVec 128) : List Nat := Address.toParts 65536 8 bits.toNat

/-- The IPv6 address with the given groups. -/
def ofGroups (parts : List Nat) : BitVec 128 := BitVec.ofNat 128 (Address.ofParts 65536 parts)

theorem ofGroups_groups (bits : BitVec 128) : ofGroups (groups bits) = bits := by
  apply BitVec.eq_of_toNat_eq
  rw [ofGroups, groups, Address.ofParts_toParts, BitVec.toNat_ofNat, Nat.pow_eq]
  have := bits.isLt
  omega

/-- The IPv4 address inside an address of the block `::ffff:0:0/96`. -/
def mapped? (bits : BitVec 128) : Option (BitVec 32) :=
  if (bits >>> 32).toNat = 0xFFFF then some (bits.setWidth 32) else none

end V6

end GeoTag
