import GeoTag.Address.Block

/-!
# Blocks as intervals

The tables test an address by masking it.  For a block whose network has nothing set behind its
leading bits, that test is membership in the interval of `Block.size` numbers that starts at the
network (`Block.contains_iff_covers`), and all blocks of the two tables are of that kind.  So the
block of an address is the first one whose interval holds it, where the addresses of `::ffff:0:0/96`
are looked up among the IPv4 blocks (`Address.reserved?_eq_find?`).
-/

namespace GeoTag

namespace Block

variable {w : Nat}

/-- How many addresses share the leading bits of the block. -/
def size (block : Block w) : Nat := Nat.pow 2 (w - block.length)

/-- The number lies between the first and the last address of the block, or is one of them. -/
def Covers (block : Block w) (n : Nat) : Prop :=
  block.network.toNat ≤ n ∧ n ≤ block.network.toNat + block.size - 1

instance (block : Block w) (n : Nat) : Decidable (block.Covers n) :=
  inferInstanceAs (Decidable (block.network.toNat ≤ n ∧ n ≤ block.network.toNat + block.size - 1))

/-- Nothing is set in the network behind the leading bits. -/
def Aligned (block : Block w) : Prop := block.network.toNat % block.size = 0

instance (block : Block w) : Decidable block.Aligned :=
  inferInstanceAs (Decidable (block.network.toNat % block.size = 0))

theorem size_pos (block : Block w) : 0 < block.size := Nat.two_pow_pos _

theorem and_mask_eq (bits : BitVec w) (length : Nat) :
    bits &&& mask w length = bits >>> (w - length) <<< (w - length) := by
  unfold mask
  ext i hi
  by_cases h : i < w - length
  · simp [h]
  · have hplace : w - length + (i - (w - length)) = i := by omega
    simp [h, hplace, hi]

theorem toNat_and_mask (bits : BitVec w) (length : Nat) :
    (bits &&& mask w length).toNat = bits.toNat - bits.toNat % Nat.pow 2 (w - length) := by
  have hround := Nat.div_add_mod' bits.toNat (2 ^ (w - length))
  have hlt := bits.isLt
  rw [and_mask_eq, BitVec.toNat_shiftLeft, BitVec.toNat_ushiftRight, Nat.shiftRight_eq_div_pow,
    Nat.shiftLeft_eq, Nat.pow_eq, Nat.mod_eq_of_lt] <;> omega

theorem contains_iff_covers {block : Block w} (aligned : block.Aligned) (bits : BitVec w) :
    block.contains bits = true ↔ block.Covers bits.toNat := by
  have hmask : (bits &&& mask w block.length).toNat = bits.toNat - bits.toNat % block.size :=
    toNat_and_mask bits block.length
  have hmod := Nat.mod_lt bits.toNat block.size_pos
  have hle := Nat.mod_le bits.toNat block.size
  obtain ⟨q, hq⟩ := Nat.dvd_of_mod_eq_zero aligned
  unfold contains Covers
  rw [beq_iff_eq, ← BitVec.toNat_inj, hmask]
  constructor
  · intro h
    omega
  · rintro ⟨hfirst, hlast⟩
    obtain ⟨r, hr⟩ := Nat.exists_eq_add_of_le hfirst
    have hrest : bits.toNat % block.size = r := by
      rw [hr, hq, Nat.mul_add_mod, Nat.mod_eq_of_lt (by omega)]
    omega

theorem find?_eq {table : List (Block w)} (aligned : ∀ block ∈ table, block.Aligned)
    (bits : BitVec w) :
    find? table bits = table.find? fun block => decide (block.Covers bits.toNat) := by
  unfold find?
  induction table with
  | nil => rfl
  | cons block table ih =>
    obtain ⟨hblock, htable⟩ := List.forall_mem_cons.1 aligned
    have hcontains : block.contains bits = decide (block.Covers bits.toNat) := by
      rw [Bool.eq_iff_iff, decide_eq_true_iff]
      exact contains_iff_covers hblock bits
    rw [List.find?_cons, List.find?_cons, hcontains, ih htable]

end Block

theorem V4.aligned_of_mem_blocks : ∀ block ∈ V4.blocks, block.Aligned := by decide

namespace V6

theorem aligned_of_mem_blocks : ∀ block ∈ V6.blocks, block.Aligned := by decide

/-! ## IPv4-mapped addresses -/

/-- The block `::ffff:0:0/96`. -/
def mappedBlock : Block 128 := block "ipv4-mapped" [0, 0, 0, 0, 0, 0xFFFF, 0, 0] 96

theorem covers_mappedBlock_iff (n : Nat) :
    mappedBlock.Covers n ↔ 0xFFFF00000000 ≤ n ∧ n ≤ 0xFFFFFFFFFFFF := Iff.rfl

theorem mapped?_eq (bits : BitVec 128) :
    mapped? bits = if mappedBlock.Covers bits.toNat then some (bits.setWidth 32) else none := by
  have hhigh : (bits >>> 32).toNat = bits.toNat / 4294967296 := by
    rw [BitVec.toNat_ushiftRight, Nat.shiftRight_eq_div_pow]
  have hiff : (bits >>> 32).toNat = 0xFFFF ↔ mappedBlock.Covers bits.toNat := by
    rw [hhigh, covers_mappedBlock_iff]
    omega
  simp only [mapped?, hiff]

theorem toNat_setWidth_of_covers {bits : BitVec 128} (h : mappedBlock.Covers bits.toNat) :
    (bits.setWidth 32).toNat = bits.toNat - mappedBlock.network.toNat := by
  have hnetwork : mappedBlock.network.toNat = 0xFFFF00000000 := rfl
  have hinner : (bits.setWidth 32).toNat = bits.toNat % 4294967296 := BitVec.toNat_setWidth 32 bits
  rw [covers_mappedBlock_iff] at h
  omega

/-- The IPv4 address inside an address is put together from the halves of its last two groups. -/
theorem mapped?_ofGroups {high low : Nat} (hhigh : high < 65536) (hlow : low < 65536) :
    mapped? (ofGroups [0, 0, 0, 0, 0, 0xFFFF, high, low]) =
      some (V4.ofOctets [high / 256, high % 256, low / 256, low % 256]) := by
  have hbits : (ofGroups [0, 0, 0, 0, 0, 0xFFFF, high, low]).toNat =
      0xFFFF00000000 + 65536 * high + low := by
    simp only [ofGroups, Address.ofParts, List.foldl_cons, List.foldl_nil, BitVec.toNat_ofNat]
    omega
  rw [mapped?_eq, if_pos]
  · congr 1
    apply BitVec.eq_of_toNat_eq
    rw [BitVec.toNat_setWidth, hbits]
    simp only [V4.ofOctets, Address.ofParts, List.foldl_cons, List.foldl_nil, BitVec.toNat_ofNat]
    omega
  · rw [covers_mappedBlock_iff, hbits]
    omega

end V6

/-! ## Both tables -/

namespace Reserved

/-- The blocks of both tables, in the order in which they are searched. -/
def blocks : List Reserved := V4.blocks.map .v4 ++ V6.blocks.map .v6

/-- The address lies in the interval of the block.  An address of `::ffff:0:0/96` is judged by its
place in that block, which is the IPv4 address inside it, and lies in no IPv6 block. -/
def Covers : Reserved → Address → Prop
  | .v4 block, .v4 bits => block.Covers bits.toNat
  | .v4 block, .v6 bits =>
    V6.mappedBlock.Covers bits.toNat ∧ block.Covers (bits.toNat - V6.mappedBlock.network.toNat)
  | .v6 block, .v6 bits => ¬ V6.mappedBlock.Covers bits.toNat ∧ block.Covers bits.toNat
  | .v6 _, .v4 _ => False

instance : (block : Reserved) → (address : Address) → Decidable (block.Covers address)
  | .v4 block, .v4 bits => inferInstanceAs (Decidable (block.Covers bits.toNat))
  | .v4 block, .v6 bits =>
    inferInstanceAs (Decidable (V6.mappedBlock.Covers bits.toNat ∧
      block.Covers (bits.toNat - V6.mappedBlock.network.toNat)))
  | .v6 block, .v6 bits =>
    inferInstanceAs (Decidable (¬ V6.mappedBlock.Covers bits.toNat ∧ block.Covers bits.toNat))
  | .v6 _, .v4 _ => inferInstanceAs (Decidable False)

theorem find?_blocks_eq (address : Address) :
    blocks.find? (fun block => decide (block.Covers address)) =
      ((V4.blocks.find? fun block => decide (Covers (.v4 block) address)).map Reserved.v4).or
        ((V6.blocks.find? fun block => decide (Covers (.v6 block) address)).map Reserved.v6) := by
  rw [blocks, List.find?_append, List.find?_map, List.find?_map]
  rfl

theorem find?_eq_none_of_not_covers {w : Nat} {table : List (Block w)} {family : Block w → Reserved}
    {address : Address} (h : ∀ block, ¬ (family block).Covers address) :
    (table.find? fun block => decide ((family block).Covers address)) = none := by
  rw [List.find?_eq_none]
  intro block _
  simpa using h block

end Reserved

namespace Address

theorem reserved?_v4 (bits : BitVec 32) :
    reserved? (.v4 bits) = (Block.find? V4.blocks bits).map .v4 := rfl

theorem reserved?_of_mapped {bits : BitVec 128} {inner : BitVec 32}
    (h : V6.mapped? bits = some inner) : reserved? (.v6 bits) = reserved? (.v4 inner) := by
  simp only [reserved?, h]

theorem reserved?_of_not_mapped {bits : BitVec 128} (h : V6.mapped? bits = none) :
    reserved? (.v6 bits) = (Block.find? V6.blocks bits).map .v6 := by
  simp only [reserved?, h]

theorem reserved?_eq_find? (address : Address) :
    address.reserved? = Reserved.blocks.find? fun block => decide (block.Covers address) := by
  rw [Reserved.find?_blocks_eq]
  cases address with
  | v4 bits =>
    have hv6 : ∀ block, ¬ Reserved.Covers (.v6 block) (.v4 bits) := fun _ h => h
    rw [Reserved.find?_eq_none_of_not_covers hv6, Option.map_none, Option.or_none, reserved?_v4,
      Block.find?_eq V4.aligned_of_mem_blocks]
    rfl
  | v6 bits =>
    have hmapped := V6.mapped?_eq bits
    by_cases h : V6.mappedBlock.Covers bits.toNat
    · rw [if_pos h] at hmapped
      have hv6 : ∀ block, ¬ Reserved.Covers (.v6 block) (.v6 bits) := fun _ hin => hin.1 h
      rw [Reserved.find?_eq_none_of_not_covers hv6, Option.map_none, Option.or_none,
        reserved?_of_mapped hmapped, reserved?_v4, Block.find?_eq V4.aligned_of_mem_blocks,
        V6.toNat_setWidth_of_covers h]
      simp [Reserved.Covers, h]
    · rw [if_neg h] at hmapped
      have hv4 : ∀ block, ¬ Reserved.Covers (.v4 block) (.v6 bits) := fun _ hin => h hin.1
      rw [Reserved.find?_eq_none_of_not_covers hv4, Option.map_none, Option.none_or,
        reserved?_of_not_mapped hmapped, Block.find?_eq V6.aligned_of_mem_blocks]
      simp [Reserved.Covers, h]

/-- An address is reserved exactly when it lies in the interval of some block, and the block that is
found is one whose interval holds it.  The blocks of `::ffff:a.b.c.d` and of `a.b.c.d` are the same. -/
theorem isReserved_iff_covers :
    (∀ address : Address,
      address.isReserved = true ↔ ∃ block ∈ Reserved.blocks, block.Covers address) ∧
    (∀ (address : Address) (block : Reserved), address.reserved? = some block →
      block ∈ Reserved.blocks ∧ block.Covers address) ∧
    ∀ a b c d : Fin 256,
      reserved? (.v6 (V6.ofGroups [0, 0, 0, 0, 0, 0xFFFF, 256 * a + b, 256 * c + d])) =
        reserved? (.v4 (V4.ofOctets [a, b, c, d])) := by
  refine ⟨?_, ?_, ?_⟩
  · intro address
    rw [isReserved, reserved?_eq_find?, List.find?_isSome]
    simp only [decide_eq_true_eq]
  · intro address block hblock
    rw [reserved?_eq_find?] at hblock
    have hcovers := List.find?_some hblock
    exact ⟨List.mem_of_find?_eq_some hblock, of_decide_eq_true hcovers⟩
  · intro a b c d
    apply reserved?_of_mapped
    have hparts (p q : Fin 256) :
        (256 * p.val + q.val) / 256 = p ∧ (256 * p.val + q.val) % 256 = q := by omega
    rw [V6.mapped?_ofGroups (by omega) (by omega), (hparts a b).1, (hparts a b).2,
      (hparts c d).1, (hparts c d).2]

/-- The last address of `172.16.0.0/12`, as an IPv4-mapped one, and the address behind it. -/
theorem isReserved_iff_covers_edge :
    (Reserved.v4 (V4.block "private-use" [172, 16, 0, 0] 12)).Covers
        (.v6 (V6.ofGroups [0, 0, 0, 0, 0, 0xFFFF, 0xAC1F, 0xFFFF])) ∧
      reserved? (.v6 (V6.ofGroups [0, 0, 0, 0, 0, 0xFFFF, 0xAC1F, 0xFFFF])) =
        reserved? (.v4 (V4.ofOctets [172, 31, 255, 255])) ∧
      isReserved (.v4 (V4.ofOctets [172, 32, 0, 0])) = false := by
  obtain ⟨hreserved, hfound, hmapped⟩ := isReserved_iff_covers
  refine ⟨(hfound _ _ (by decide)).2, hmapped 172 31 255 255, ?_⟩
  rw [Bool.eq_false_iff, Ne, hreserved]
  decide

end Address

end GeoTag
