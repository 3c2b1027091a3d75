import GeoTag.Proofs.BlockIntervals

/-!
# Blocks as leading bits

A block of `length` leading bits holds an address when the address and the network agree in these bits
(`Block.contains_iff_agree`).  That is the interval of `GeoTag.Proofs.BlockIntervals` seen bit by bit.  The
mask behind the test is right for every length, the least and the greatest included: its places are counted
without a difference below zero, and where all bits are shifted out it is zero (`Block.mask_eq_shifted?`).
`Block.contains_bounds` puts this together.
-/

namespace GeoTag

namespace Block

variable {w : Nat}

/-- How many places are left behind the leading bits, if the word has so many. -/
def placesBehind? (w length : Nat) : Option Nat := if length ≤ w then some (w - length) else none

/-- The word shifted to the left, by fewer places than it has. -/
def shifted? (bits : BitVec w) (places : Nat) : Option (BitVec w) :=
  if places < w then some (bits <<< places) else none

theorem mask_eq_shifted? {length : Nat} (fits : length ≤ w) :
    ∃ places, placesBehind? w length = some places ∧
      mask w length = (shifted? (BitVec.allOnes w) places).getD 0 := by
  refine ⟨w - length, if_pos fits, ?_⟩
  unfold mask shifted?
  split
  · rfl
  next hall =>
    have hlength : w ≤ w - length := Nat.not_lt.1 hall
    exact BitVec.shiftLeft_eq_zero hlength

/-- The mask is the greatest word less what the places behind the leading bits can hold. -/
theorem toNat_mask (w length : Nat) :
    (mask w length).toNat + Nat.pow 2 (w - length) = Nat.pow 2 w := by
  have hmask : (mask w length).toNat =
      Nat.pow 2 w - 1 - (Nat.pow 2 w - 1) % Nat.pow 2 (w - length) := by
    have hand := toNat_and_mask (BitVec.allOnes w) length
    rwa [BitVec.allOnes_and, BitVec.toNat_allOnes] at hand
  have hpos : 0 < Nat.pow 2 (w - length) := Nat.two_pow_pos _
  obtain ⟨q, hq⟩ : Nat.pow 2 (w - length) ∣ Nat.pow 2 w := Nat.pow_dvd_pow 2 (Nat.sub_le w length)
  cases q with
  | zero => exact absurd hq (Nat.ne_of_gt (Nat.two_pow_pos w))
  | succ q =>
    rw [Nat.mul_succ] at hq
    have hrest : (Nat.pow 2 w - 1) % Nat.pow 2 (w - length) = Nat.pow 2 (w - length) - 1 := by
      rw [hq, Nat.add_sub_assoc hpos, Nat.mul_add_mod, Nat.mod_eq_of_lt (Nat.sub_one_lt_of_lt hpos)]
    omega

theorem getMsbD_mask {length : Nat} (fits : length ≤ w) (i : Nat) :
    (mask w length).getMsbD i = decide (i < length) := by
  have hplace : i + (w - length) < w ↔ i < length := by omega
  rw [mask, BitVec.getMsbD_shiftLeft, BitVec.getMsbD_allOnes, decide_eq_decide]
  exact hplace

variable {block : Block w}

theorem and_mask_network (aligned : block.Aligned) :
    block.network &&& mask w block.length = block.network := by
  have hrest : block.network.toNat % Nat.pow 2 (w - block.length) = 0 := aligned
  apply BitVec.eq_of_toNat_eq
  rw [toNat_and_mask, hrest, Nat.sub_zero]

theorem contains_iff_agree (fits : block.length ≤ w) (aligned : block.Aligned) (bits : BitVec w) :
    block.contains bits = true ↔
      ∀ i < block.length, bits.getMsbD i = block.network.getMsbD i := by
  have hmask : block.contains bits = true ↔
      bits &&& mask w block.length = block.network &&& mask w block.length := by
    rw [and_mask_network aligned]
    exact beq_iff_eq
  rw [hmask]
  constructor
  · intro h i hi
    have hbit := congrArg (fun word => word.getMsbD i) h
    simpa [getMsbD_mask fits, hi] using hbit
  · intro h
    apply BitVec.eq_of_getMsbD_eq
    intro i _
    rw [BitVec.getMsbD_and, BitVec.getMsbD_and, getMsbD_mask fits]
    by_cases hi : i < block.length
    · rw [h i hi]
    · rw [decide_eq_false hi, Bool.and_false, Bool.and_false]

theorem network_add_size_le (aligned : block.Aligned) :
    block.network.toNat + block.size ≤ Nat.pow 2 w := by
  obtain ⟨k, hk⟩ := Nat.dvd_of_mod_eq_zero aligned
  obtain ⟨q, hq⟩ : block.size ∣ Nat.pow 2 w := Nat.pow_dvd_pow 2 (Nat.sub_le w block.length)
  have hlt : block.size * k < block.size * q := by
    rw [← hk, ← hq]
    exact block.network.isLt
  have hkq : k + 1 ≤ q := Nat.lt_of_mul_lt_mul_left hlt
  calc block.network.toNat + block.size = block.size * (k + 1) := by rw [hk, Nat.mul_succ]
    _ ≤ block.size * q := Nat.mul_le_mul_left _ hkq
    _ = Nat.pow 2 w := hq.symm

/-- A block whose network has nothing behind its leading bits holds the addresses of the interval that the
network starts and no others, which are those that agree with it in the leading bits.  Without leading bits
that is every address, and with as many as there are the network alone; the mask and the last address
are what they are as numbers, with nothing carried out of the word. -/
theorem contains_bounds (fits : block.length ≤ w) (aligned : block.Aligned) :
    (∀ bits : BitVec w,
      (block.contains bits = true ↔
        block.network.toNat ≤ bits.toNat ∧
          bits.toNat ≤ block.network.toNat + Nat.pow 2 (w - block.length) - 1) ∧
      (block.contains bits = true ↔
        ∀ i < block.length, bits.getMsbD i = block.network.getMsbD i)) ∧
    (block.length = 0 → ∀ bits, block.contains bits = true) ∧
    (block.length = w → ∀ bits, block.contains bits = true ↔ bits = block.network) ∧
    (∃ places, placesBehind? w block.length = some places ∧
      mask w block.length = (shifted? (BitVec.allOnes w) places).getD 0) ∧
    (mask w block.length).toNat + Nat.pow 2 (w - block.length) = Nat.pow 2 w ∧
    block.network.toNat + Nat.pow 2 (w - block.length) ≤ Nat.pow 2 w := by
  refine ⟨fun bits => ⟨contains_iff_covers aligned bits, contains_iff_agree fits aligned bits⟩,
    ?_, ?_, mask_eq_shifted? fits, toNat_mask w _, network_add_size_le aligned⟩
  · intro hnone bits
    rw [contains_iff_agree fits aligned, hnone]
    exact fun i hi => absurd hi (Nat.not_lt_zero i)
  · intro hall bits
    rw [contains_iff_agree fits aligned, hall]
    constructor
    · exact fun h => BitVec.eq_of_getMsbD_eq h
    · rintro rfl i _
      rfl

theorem contains_bounds_edges :
    (V4.block "private-use" [172, 16, 0, 0] 12).Aligned ∧
      (V4.block "private-use" [172, 16, 0, 0] 12).contains (V4.ofOctets [172, 31, 255, 255]) = true ∧
      (V4.block "private-use" [172, 16, 0, 0] 12).contains (V4.ofOctets [172, 32, 0, 0]) = false ∧
      (∀ bits, (V4.block "any" [0, 0, 0, 0] 0).contains bits = true) ∧
      ∀ bits, (V6.block "loopback" [0, 0, 0, 0, 0, 0, 0, 1] 128).contains bits = true ↔ bits = 1 := by
  have aligned : (V4.block "private-use" [172, 16, 0, 0] 12).Aligned := by decide
  have fits : (V4.block "private-use" [172, 16, 0, 0] 12).length ≤ 32 := by decide
  have hbounds := contains_bounds fits aligned
  refine ⟨aligned, (hbounds.1 _).1.2 (by decide), ?_, ?_, ?_⟩
  · rw [Bool.eq_false_iff, Ne, (hbounds.1 _).1]
    decide
  · exact (contains_bounds (by decide) (by decide)).2.1 rfl
  · exact (contains_bounds (by decide) (by decide)).2.2.1 rfl

end Block

end GeoTag
