import GeoTag.Proofs.FieldText
import GeoTag.Proofs.LiteralGrammar

/-!
# Which texts spell an address

The literals of the grammar take between two and forty-five bytes, so the limits on the length of a text
only concern zones (`Address.within_limits_of_spells`).  A text spells an address exactly when, trimmed,
it is a literal or an IPv6 literal with a zone that keeps within the limit
(`Address.ofText?_eq_some_iff_spells`), and an IPv4 address has its canonical text for its only spelling
(`Address.ofText?_eq_v4_iff_render`).
-/

namespace GeoTag

namespace Address

open Text

theorem visible_of_spells {cs : List Char} {address : Address} (h : Spells cs address) :
    ∀ c ∈ cs, Visible c := by
  intro c hc
  exact visible_of_isLiteralChar
    (isLiteralChar_of_ofLiteral? ((ofLiteral?_eq_some_iff cs address).2 h) c hc)

theorem percent_notMem_of_spells {cs : List Char} {address : Address} (h : Spells cs address) :
    '%' ∉ cs := by
  intro hmem
  have hnone := ofLiteral?_eq_none_of_percent hmem
  rw [(ofLiteral?_eq_some_iff cs address).2 h] at hnone
  cases hnone

theorem within_limits_of_spells {cs : List Char} {address : Address} (h : Spells cs address) :
    minLength ≤ byteLength cs ∧ byteLength cs ≤ maxLength := by
  have hlength := h.length
  rw [byteLength_of_visible (visible_of_spells h)]
  unfold minLength maxLength
  omega

theorem length_le_byteLength (cs : List Char) : cs.length ≤ byteLength cs := by
  induction cs with
  | nil => exact Nat.le_refl 0
  | cons c cs ih =>
    have hpos := c.utf8Size_pos
    change cs.length + 1 ≤ c.utf8Size + byteLength cs
    omega

/-! ## Zones -/

/-- An IPv6 literal, a percent sign and a zone of ASCII letters, digits, `_`, `-` and `.`. -/
inductive Zoned : List Char → Address → Prop
  | percent {literal zone : List Char} {groups : List Nat} (spelled : V6.Spells literal groups)
      (nonempty : zone ≠ []) (chars : ∀ c ∈ zone, c.isAlphanum = true ∨ c ∈ ['_', '-', '.']) :
      Zoned (literal ++ '%' :: zone) (.v6 (V6.ofGroups groups))

theorem ofZoned?_eq_some_iff (cs : List Char) (address : Address) :
    ofZoned? cs = some address ↔ Zoned cs address := by
  constructor
  · intro h
    unfold ofZoned? at h
    split at h
    next => cases h
    next literal zone hsplit =>
      split at h
      next => cases h
      next hzone =>
        obtain ⟨hne, hall⟩ := not_or.1 hzone
        obtain ⟨bits, hbits, rfl⟩ := Option.map_eq_some_iff.1 h
        obtain ⟨groups, hgroups, rfl⟩ := (V6.ofLiteral?_eq_some_iff literal bits).1 hbits
        rw [eq_append_of_splitOnce hsplit]
        refine .percent hgroups (by simpa using hne) ?_
        intro c hc
        exact (isZoneChar_iff c).1 (List.all_eq_true.1 (Decidable.not_not.1 hall) c hc)
  · rintro ⟨spelled, nonempty, chars⟩
    have hread := (V6.ofLiteral?_eq_some_iff _ _).2 ⟨_, spelled, rfl⟩
    exact ofZoned?_of_zone hread nonempty fun c hc => (isZoneChar_iff c).2 (chars c hc)

theorem Zoned.percent_mem {cs : List Char} {address : Address} (h : Zoned cs address) :
    '%' ∈ cs := by
  cases h
  simp

theorem Zoned.colon_mem {cs : List Char} {address : Address} (h : Zoned cs address) : ':' ∈ cs := by
  cases h with
  | percent spelled => exact List.mem_append_left _ spelled.colon_mem

theorem Zoned.two_le_byteLength {cs : List Char} {address : Address} (h : Zoned cs address) :
    2 ≤ byteLength cs := by
  cases h with
  | @percent literal zone groups spelled =>
    have hliteral := spelled.length
    have hle := length_le_byteLength (literal ++ '%' :: zone)
    rw [List.length_append] at hle
    omega

/-! ## Texts -/

theorem ofText?_eq_some_iff (s : String) (address : Address) :
    ofText? s = some address ↔ Spells (trim s.toList) address ∨
      byteLength (trim s.toList) ≤ maxLength ∧ Zoned (trim s.toList) address := by
  simp only [ofText?]
  generalize trim s.toList = cs
  constructor
  · intro h
    split at h
    next => cases h
    next hlimits =>
      split at h
      next found hread =>
        cases h
        exact Or.inl ((ofLiteral?_eq_some_iff cs address).1 hread)
      next => exact Or.inr ⟨by omega, (ofZoned?_eq_some_iff cs address).1 h⟩
  · rintro (h | ⟨hmax, h⟩)
    · have hlimits := within_limits_of_spells h
      rw [if_neg (by omega), (ofLiteral?_eq_some_iff cs address).2 h]
    · have hmin := h.two_le_byteLength
      rw [if_neg (by unfold minLength; omega), ofLiteral?_eq_none_of_percent h.percent_mem]
      exact (ofZoned?_eq_some_iff cs address).2 h

/-- A text spells an address exactly when, trimmed, it is a literal of that address, or an IPv6 literal
with a zone behind it, in no more than sixty-four bytes.  Every literal keeps within the limits. -/
theorem ofText?_eq_some_iff_spells :
    (∀ (s : String) (address : Address), ofText? s = some address ↔
      '%' ∉ trim s.toList ∧ Spells (trim s.toList) address ∨
      (String.ofList (trim s.toList)).utf8ByteSize ≤ 64 ∧ Zoned (trim s.toList) address) ∧
    ∀ (cs : List Char) (address : Address), Spells cs address →
      minLength ≤ byteLength cs ∧ byteLength cs ≤ maxLength := by
  refine ⟨fun s address => ?_, fun cs address => within_limits_of_spells⟩
  rw [ofText?_eq_some_iff, utf8ByteSize_ofList]
  apply or_congr_left
  exact ⟨fun h => ⟨percent_notMem_of_spells h, h⟩, fun h => h.2⟩

/-- An IPv6 literal may have a zone, and an IPv4 literal may not. -/
theorem ofText?_eq_some_iff_spells_zone :
    ofText? " fe80::1%eth0" = some (.v6 linkLocal) ∧
      ∀ address, ofText? "10.0.0.1%eth0" ≠ some address := by
  obtain ⟨hiff, -⟩ := ofText?_eq_some_iff_spells
  constructor
  · have hzone : "eth0".toList.all isZoneChar = true := by decide
    have hliteral : V6.Spells "fe80::1".toList [0xfe80, 0, 0, 0, 0, 0, 0, 1] :=
      (V6.spells_iff_literalGroups? _ _).2 (by decide)
    have htrim : trim " fe80::1%eth0".toList = "fe80::1".toList ++ '%' :: "eth0".toList := by decide
    rw [hiff, htrim]
    refine Or.inr ⟨by decide, .percent hliteral (by decide) ?_⟩
    exact fun c hc => (isZoneChar_iff c).1 (List.all_eq_true.1 hzone c hc)
  · intro address
    rw [Ne, hiff]
    rintro (⟨hpercent, -⟩ | ⟨-, hzoned⟩)
    · exact hpercent (by decide)
    · exact absurd hzoned.colon_mem (by decide)

/-! ## IPv4 -/

theorem spells_v4_iff (cs : List Char) (bits : BitVec 32) :
    Spells cs (.v4 bits) ↔ cs = V4.render bits := by
  rw [← V4.ofLiteral?_eq_some_iff, V4.ofLiteral?]
  constructor
  · rintro ⟨quad⟩
    rw [(V4.quad_iff_octets? _ _).1 quad, Option.map_some]
  · intro h
    obtain ⟨octets, hoctets, rfl⟩ := Option.map_eq_some_iff.1 h
    exact .v4 ((V4.quad_iff_octets? cs octets).2 hoctets)

theorem numeral_of_mem_splitOn_render {bits : BitVec 32} {piece : List Char}
    (h : piece ∈ splitOn '.' (V4.render bits)) : V4.Numeral piece := by
  rw [V4.splitOn_render] at h
  obtain ⟨n, hn, rfl⟩ := List.mem_map.1 h
  exact V4.numeral_of_octet? (V4.octet?_toDigits (V4.octet_lt hn))

/-- The canonical text of an IPv4 address is its only spelling, blanks at the ends apart: four numerals
between dots, without leading zeros, signs or a zone. -/
theorem ofText?_eq_v4_iff_render :
    (∀ (s : String) (bits : BitVec 32),
      ofText? s = some (.v4 bits) ↔ trim s.toList = V4.render bits) ∧
    ∀ bits : BitVec 32, (splitOn '.' (V4.render bits)).length = 4 ∧
      ∀ piece ∈ splitOn '.' (V4.render bits), V4.Numeral piece := by
  constructor
  · intro s bits
    rw [ofText?_eq_some_iff, spells_v4_iff]
    generalize trim s.toList = cs
    refine or_iff_left ?_
    rintro ⟨-, hzoned⟩
    cases hzoned
  · intro bits
    refine ⟨?_, fun piece => numeral_of_mem_splitOn_render⟩
    rw [V4.splitOn_render, List.length_map]
    exact length_toParts 256 4 _

/-- Blanks around a quad are dropped, and a leading zero in it is one zero too many. -/
theorem ofText?_eq_v4_iff_render_sample :
    ofText? " \t8.8.4.4\n" = some (.v4 (V4.ofOctets [8, 8, 4, 4])) ∧
      ∀ bits, ofText? "8.8.04.4" ≠ some (.v4 bits) := by
  obtain ⟨hiff, hform⟩ := ofText?_eq_v4_iff_render
  constructor
  · rw [hiff]
    decide
  · intro bits
    rw [Ne, hiff]
    intro hrender
    have hmem : ['0', '4'] ∈ splitOn '.' (V4.render bits) := by
      rw [← hrender]
      decide
    have hzero := ((hform bits).2 _ hmem).2.2 rfl
    cases hzero

end Address

end GeoTag
