import GeoTag.Proofs.BlockIntervals

/-!
# The most specific block of an address

Two blocks of one family that share an address are nested (`Block.encloses_of_covers`).  The first block
that holds an address is therefore its most specific one, unless a block that lies inside it stands
behind it in the table.  Of the blocks of both tables only `Reserved.limitedBroadcast` stands like that:
it is the block of no address, and its address is one of `240.0.0.0/4`.  Every other address has its
most specific block, and every other block is the block of some address
(`Address.reserved?_mostSpecific_iff`).
-/

namespace GeoTag

namespace Block

variable {w : Nat} {outer inner : Block w}

/-- The block shares no more leading bits than the other one and holds its first address. -/
def Encloses (outer inner : Block w) : Prop :=
  outer.length ≤ inner.length ∧ outer.Covers inner.network.toNat

instance : Decidable (outer.Encloses inner) :=
  inferInstanceAs (Decidable (outer.length ≤ inner.length ∧ outer.Covers inner.network.toNat))

theorem size_dvd_size (h : outer.length ≤ inner.length) : inner.size ∣ outer.size :=
  Nat.pow_dvd_pow 2 (Nat.sub_le_sub_left h w)

theorem encloses_of_covers (houter : outer.Aligned) (hinner : inner.Aligned)
    (hlength : outer.length ≤ inner.length) {n : Nat} (hn : outer.Covers n) (hn' : inner.Covers n) :
    outer.Encloses inner := by
  have houter : inner.size ∣ outer.network.toNat :=
    Nat.dvd_trans (size_dvd_size hlength) (Nat.dvd_of_mod_eq_zero houter)
  have hlt : outer.network.toNat < inner.network.toNat + inner.size := by
    have := inner.size_pos
    have := hn.1
    have := hn'.2
    omega
  have hfirst : outer.network.toNat ≤ inner.network.toNat :=
    Nat.le_of_lt_add_of_dvd hlt houter (Nat.dvd_of_mod_eq_zero hinner)
  exact ⟨hlength, hfirst, Nat.le_trans hn'.1 hn.2⟩

end Block

namespace Reserved

/-- Nothing is set in the network behind the leading bits. -/
def Aligned : Reserved → Prop
  | .v4 block => block.Aligned
  | .v6 block => block.Aligned

/-- The blocks are of one family and the first one encloses the second. -/
def Encloses : Reserved → Reserved → Prop
  | .v4 outer, .v4 inner => outer.Encloses inner
  | .v6 outer, .v6 inner => outer.Encloses inner
  | _, _ => False

instance : (outer inner : Reserved) → Decidable (outer.Encloses inner)
  | .v4 outer, .v4 inner => inferInstanceAs (Decidable (outer.Encloses inner))
  | .v6 outer, .v6 inner => inferInstanceAs (Decidable (outer.Encloses inner))
  | .v4 _, .v6 _ => inferInstanceAs (Decidable False)
  | .v6 _, .v4 _ => inferInstanceAs (Decidable False)

theorem aligned_of_mem_blocks {block : Reserved} (h : block ∈ blocks) : block.Aligned := by
  rcases List.mem_append.1 h with h | h
  · obtain ⟨inner, hinner, rfl⟩ := List.mem_map.1 h
    exact V4.aligned_of_mem_blocks inner hinner
  · obtain ⟨inner, hinner, rfl⟩ := List.mem_map.1 h
    exact V6.aligned_of_mem_blocks inner hinner

theorem encloses_of_covers {outer inner : Reserved} (houter : outer.Aligned) (hinner : inner.Aligned)
    (hlength : outer.length ≤ inner.length) {address : Address} (hn : outer.Covers address)
    (hn' : inner.Covers address) : outer.Encloses inner := by
  cases outer with
  | v4 outer =>
    cases inner with
    | v4 inner =>
      cases address with
      | v4 bits => exact Block.encloses_of_covers houter hinner hlength hn hn'
      | v6 bits => exact Block.encloses_of_covers houter hinner hlength hn.2 hn'.2
    | v6 inner =>
      cases address with
      | v4 bits => exact hn'.elim
      | v6 bits => exact absurd hn.1 hn'.1
  | v6 outer =>
    cases inner with
    | v4 inner =>
      cases address with
      | v4 bits => exact hn.elim
      | v6 bits => exact absurd hn'.1 hn.1
    | v6 inner =>
      cases address with
      | v4 bits => exact hn.elim
      | v6 bits => exact Block.encloses_of_covers houter hinner hlength hn.2 hn'.2

/-- The block holds the address, and any other block that holds it shares fewer leading bits. -/
def MostSpecific (block : Reserved) (address : Address) : Prop :=
  block.Covers address ∧
    ∀ other ∈ blocks, other.Covers address → other ≠ block → other.length < block.length

/-- The block `255.255.255.255/32`. -/
def limitedBroadcast : Reserved := .v4 (V4.block "limited-broadcast" [255, 255, 255, 255] 32)

/-- The block `240.0.0.0/4`. -/
def futureUse : Reserved := .v4 (V4.block "reserved" [240, 0, 0, 0] 4)

/-- No block but that of limited broadcast stands behind a block that encloses it. -/
theorem pairwise_blocks :
    blocks.Pairwise fun outer inner => outer.Encloses inner → inner = limitedBroadcast := by
  decide

theorem mem_limitedBroadcast : limitedBroadcast ∈ blocks := by decide

/-- The only address of the block of limited broadcast, written in both families. -/
theorem covers_limitedBroadcast_iff (address : Address) :
    limitedBroadcast.Covers address ↔
      address = .v4 (V4.ofOctets [255, 255, 255, 255]) ∨
        address = .v6 (V6.ofGroups [0, 0, 0, 0, 0, 0xFFFF, 0xFFFF, 0xFFFF]) := by
  cases address with
  | v4 bits =>
    have hcovers : limitedBroadcast.Covers (.v4 bits) ↔
        0xFFFFFFFF ≤ bits.toNat ∧ bits.toNat ≤ 0xFFFFFFFF := Iff.rfl
    have hbits : (V4.ofOctets [255, 255, 255, 255]).toNat = 0xFFFFFFFF := rfl
    rw [hcovers, Address.v4.injEq, ← BitVec.toNat_inj, hbits]
    simp only [reduceCtorEq, or_false]
    omega
  | v6 bits =>
    have hcovers : limitedBroadcast.Covers (.v6 bits) ↔
        V6.mappedBlock.Covers bits.toNat ∧
          0xFFFFFFFF ≤ bits.toNat - 0xFFFF00000000 ∧ bits.toNat - 0xFFFF00000000 ≤ 0xFFFFFFFF :=
      Iff.rfl
    have hbits : (V6.ofGroups [0, 0, 0, 0, 0, 0xFFFF, 0xFFFF, 0xFFFF]).toNat = 0xFFFFFFFFFFFF := rfl
    rw [hcovers, V6.covers_mappedBlock_iff, Address.v6.injEq, ← BitVec.toNat_inj, hbits]
    simp only [reduceCtorEq, false_or]
    omega

end Reserved

namespace Address

open Reserved

theorem covers_of_reserved? {address : Address} {block : Reserved}
    (h : address.reserved? = some block) : block ∈ blocks ∧ block.Covers address := by
  rw [reserved?_eq_find?] at h
  have hcovers := List.find?_some h
  exact ⟨List.mem_of_find?_eq_some h, of_decide_eq_true hcovers⟩

theorem reserved?_of_limitedBroadcast {address : Address} (h : limitedBroadcast.Covers address) :
    address.reserved? = some futureUse := by
  rcases (covers_limitedBroadcast_iff address).1 h with rfl | rfl <;> decide

/-- Where the block of limited broadcast does not hold the address, the first block that does is the most
specific one: a later one would be enclosed by it. -/
theorem mostSpecific_of_reserved? {address : Address} {block : Reserved}
    (hblock : address.reserved? = some block) (hbroadcast : ¬ limitedBroadcast.Covers address) :
    block.MostSpecific address := by
  obtain ⟨hmem, hcovers⟩ := covers_of_reserved? hblock
  rw [reserved?_eq_find?] at hblock
  obtain ⟨-, before, behind, hsplit, hbefore⟩ := List.find?_eq_some_iff_append.1 hblock
  refine ⟨hcovers, fun other hmem' hheld hne => ?_⟩
  have hordered := pairwise_blocks
  have hother := hmem'
  rw [hsplit] at hordered hother
  rcases List.mem_append.1 hother with hother | hother
  · simpa [hheld] using hbefore other hother
  · have hbehind : other ∈ behind := (List.mem_cons.1 hother).resolve_left hne
    have hlast : block.Encloses other → other = limitedBroadcast :=
      (List.pairwise_cons.1 (List.pairwise_append.1 hordered).2.1).1 other hbehind
    refine Nat.lt_of_not_le fun hlength => ?_
    have hencloses : block.Encloses other :=
      encloses_of_covers (aligned_of_mem_blocks hmem) (aligned_of_mem_blocks hmem') hlength hcovers
        hheld
    exact hbroadcast (hlast hencloses ▸ hheld)

theorem not_mostSpecific_of_limitedBroadcast {address : Address}
    (h : limitedBroadcast.Covers address) : ¬ futureUse.MostSpecific address := by
  intro specific
  have hlength : limitedBroadcast.length < futureUse.length :=
    specific.2 limitedBroadcast mem_limitedBroadcast h (by decide)
  exact absurd hlength (by decide)

theorem reserved?_network : ∀ block ∈ blocks, block ≠ limitedBroadcast →
    block.network.reserved? = some block := by
  decide

/-- The block of a reserved address is the most specific one that holds it, except at the address of
limited broadcast, where it is `240.0.0.0/4`.  So every block is that of some address except the block of
limited broadcast. -/
theorem reserved?_mostSpecific_iff (address : Address) :
    (address.isReserved = true →
      ∃ block ∈ blocks, address.reserved? = some block ∧
        (block.MostSpecific address ↔ ¬ limitedBroadcast.Covers address)) ∧
    (limitedBroadcast.Covers address → address.reserved? = some futureUse) ∧
    ∀ block ∈ blocks,
      (∃ other : Address, other.reserved? = some block) ↔ block ≠ limitedBroadcast := by
  refine ⟨?_, reserved?_of_limitedBroadcast, ?_⟩
  · intro hreserved
    obtain ⟨block, hblock⟩ := Option.isSome_iff_exists.1 hreserved
    refine ⟨block, (covers_of_reserved? hblock).1, hblock, ?_, mostSpecific_of_reserved? hblock⟩
    intro specific hbroadcast
    rw [reserved?_of_limitedBroadcast hbroadcast, Option.some.injEq] at hblock
    exact not_mostSpecific_of_limitedBroadcast hbroadcast (hblock ▸ specific)
  · intro block hmem
    constructor
    · rintro ⟨other, hblock⟩ rfl
      have hcovers : limitedBroadcast.Covers other := (covers_of_reserved? hblock).2
      rw [reserved?_of_limitedBroadcast hcovers] at hblock
      exact absurd hblock (by decide)
    · exact fun hne => ⟨block.network, reserved?_network block hmem hne⟩

/-- `::1`, whose block holds no other address, and `::ffff:255.255.255.255`. -/
theorem reserved?_mostSpecific_iff_loopback :
    isReserved (.v6 1) = true ∧
      (∃ block ∈ blocks, reserved? (.v6 1) = some block ∧ block.MostSpecific (.v6 1)) ∧
      reserved? (.v6 (V6.ofGroups [0, 0, 0, 0, 0, 0xFFFF, 0xFFFF, 0xFFFF])) = some futureUse := by
  have hreserved : isReserved (.v6 1) = true := by decide
  obtain ⟨block, hmem, hblock, hiff⟩ := (reserved?_mostSpecific_iff (.v6 1)).1 hreserved
  refine ⟨hreserved, ⟨block, hmem, hblock, hiff.2 (by decide)⟩, ?_⟩
  exact (reserved?_mostSpecific_iff _).2.1 (by decide)

/-- The block of `255.255.255.255` is not the most specific one that holds it. -/
theorem not_mostSpecific_broadcast :
    isReserved (.v4 (V4.ofOctets [255, 255, 255, 255])) = true ∧
      ∀ block, reserved? (.v4 (V4.ofOctets [255, 255, 255, 255])) = some block →
        ¬ block.MostSpecific (.v4 (V4.ofOctets [255, 255, 255, 255])) := by
  refine ⟨by decide, fun block hblock specific => ?_⟩
  have hcovers : limitedBroadcast.Covers (.v4 (V4.ofOctets [255, 255, 255, 255])) := by decide
  rw [reserved?_of_limitedBroadcast hcovers, Option.some.injEq] at hblock
  exact not_mostSpecific_of_limitedBroadcast hcovers (hblock ▸ specific)

end Address

end GeoTag
