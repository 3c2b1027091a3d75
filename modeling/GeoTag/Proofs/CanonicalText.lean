import GeoTag.Proofs.Numerals
import GeoTag.Proofs.Separators

/-!
# Canonical text reads back

The canonical text of an address is a literal of that address (`Address.ofLiteral?_render`): the groups
beside the longest row of zeros are read back one by one, the colons stand for as many zeros as were
left out, and an IPv4-mapped address ends in the quad of its last two groups.  The text has between
two and sixty-four characters (`Address.two_le_length_render`, `Address.length_render_le`).
-/

namespace GeoTag

/-! ## Dotted quads -/

namespace V4

theorem octet_lt {bits : BitVec 32} {n : Nat} (h : n ∈ octets bits) : n < 256 :=
  Address.lt_of_mem_toParts (by decide) h

theorem octets?_eq_none_of_notMem {cs : List Char} (h : '.' ∉ cs) : octets? cs = none := by
  rw [octets?, Text.splitOn_of_not_mem h]
  rfl

theorem splitOn_render (bits : BitVec 32) :
    Text.splitOn '.' (render bits) = (octets bits).map (Nat.toDigits 10) := by
  have hlength : (octets bits).length = 4 := Address.length_toParts 256 4 _
  apply Text.splitOn_separated
  · intro hnil
    rw [List.map_eq_nil_iff.1 hnil] at hlength
    cases hlength
  · intro piece hpiece
    obtain ⟨n, -, rfl⟩ := List.mem_map.1 hpiece
    exact notMem_toDigits (by decide)

theorem octets?_render (bits : BitVec 32) : octets? (render bits) = some (octets bits) := by
  have hlength : (octets bits).length = 4 := Address.length_toParts 256 4 _
  rw [octets?, splitOn_render, List.length_map, if_pos hlength]
  exact mapM_map_eq_some fun n hn => octet?_toDigits (octet_lt hn)

theorem ofLiteral?_render (bits : BitVec 32) : ofLiteral? (render bits) = some bits := by
  rw [ofLiteral?, octets?_render, Option.map_some, ofOctets_octets]

theorem notMem_render {c : Char} (hc : c.isDigit = false) (hdot : c ≠ '.') (bits : BitVec 32) :
    c ∉ render bits := by
  intro h
  rcases eq_or_mem_of_mem_separated h with heq | ⟨piece, hpiece, hmem⟩
  · exact hdot heq
  · obtain ⟨n, -, rfl⟩ := List.mem_map.1 hpiece
    exact notMem_toDigits hc hmem

theorem length_render_le (bits : BitVec 32) : (render bits).length ≤ 16 := by
  have hlength : (octets bits).length = 4 := Address.length_toParts 256 4 _
  have hpieces : ∀ piece ∈ (octets bits).map (Nat.toDigits 10), piece.length ≤ 3 := by
    intro piece hpiece
    obtain ⟨n, hn, rfl⟩ := List.mem_map.1 hpiece
    have hlt : n < 256 := octet_lt hn
    exact (Nat.length_toDigits_le_iff (by decide) (by decide)).2 (by omega)
  have hle : (render bits).length ≤ _ := length_separated_le hpieces
  rwa [List.length_map, hlength] at hle

theorem three_le_length_render (bits : BitVec 32) : 3 ≤ (render bits).length := by
  have hlength : (octets bits).length = 4 := Address.length_toParts 256 4 _
  have hle := length_le_length_separated '.' ((octets bits).map (Nat.toDigits 10))
  rw [List.length_map, hlength] at hle
  exact Nat.le_of_succ_le_succ hle

/-- A dotted quad holds digits and dots only. -/
theorem ofLiteral?_eq_none_of_mem {cs : List Char} {c : Char} (h : c ∈ cs)
    (hc : c.isDigit = false) (hdot : c ≠ '.') : ofLiteral? cs = none := by
  cases hread : octets? cs with
  | none => rw [ofLiteral?, hread, Option.map_none]
  | some octets =>
    simp only [octets?] at hread
    split at hread
    · rcases Text.eq_or_mem_of_mem_splitOn '.' h with heq | ⟨piece, hpiece, hmem⟩
      · exact absurd heq hdot
      · obtain ⟨n, hn⟩ := Option.isSome_iff_exists.1 (isSome_of_mem_of_mapM hread hpiece)
        rw [isDigit_of_octet? hn c hmem] at hc
        cases hc
    · cases hread

end V4

/-! ## Groups between colons -/

namespace V6

/-- Numbers of sixteen bits. -/
def Groups (gs : List Nat) : Prop := ∀ g ∈ gs, g < 65536

theorem Groups.take {gs : List Nat} (h : Groups gs) (n : Nat) : Groups (gs.take n) :=
  fun g hg => h g (List.mem_of_mem_take hg)

theorem Groups.drop {gs : List Nat} (h : Groups gs) (n : Nat) : Groups (gs.drop n) :=
  fun g hg => h g (List.mem_of_mem_drop hg)

theorem groups_groups (bits : BitVec 128) : Groups (groups bits) :=
  fun _ h => Address.lt_of_mem_toParts (by decide) h

/-- Pieces that can be told apart at the colons between them. -/
def Separable (ps : List (List Char)) : Prop := ∀ piece ∈ ps, piece ≠ [] ∧ ':' ∉ piece

theorem pieces_separated {ps : List (List Char)} (h : Separable ps) :
    pieces (separated ':' ps) = ps := by
  cases ps with
  | nil => rfl
  | cons p ps =>
    have hne : separated ':' (p :: ps) ≠ [] := by
      have hp := (h p List.mem_cons_self).1
      cases ps <;> simp [separated, hp]
    rw [pieces, if_neg (by simpa using hne)]
    exact Text.splitOn_separated (List.cons_ne_nil p ps) fun piece hpiece => (h piece hpiece).2

theorem separable_toDigits (gs : List Nat) : Separable (gs.map (Nat.toDigits 16)) := by
  intro piece hpiece
  obtain ⟨g, -, rfl⟩ := List.mem_map.1 hpiece
  exact ⟨Nat.toDigits_ne_nil, notMem_toDigits (by decide)⟩

theorem pieces_renderGroups (gs : List Nat) :
    pieces (renderGroups gs) = gs.map (Nat.toDigits 16) :=
  pieces_separated (separable_toDigits gs)

theorem mapM_group?_pieces {gs : List Nat} (h : Groups gs) :
    (pieces (renderGroups gs)).mapM group? = some gs := by
  rw [pieces_renderGroups]
  exact mapM_map_eq_some fun g hg => group?_toDigits (h g hg)

theorem groups?_pieces {gs : List Nat} (h : Groups gs) :
    groups? (pieces (renderGroups gs)) = some gs := by
  rw [pieces_renderGroups]
  induction gs with
  | nil => rfl
  | cons g gs ih =>
    have hg := group?_toDigits (h g List.mem_cons_self)
    have hdot : V4.octets? (Nat.toDigits 16 g) = none :=
      V4.octets?_eq_none_of_notMem (notMem_toDigits (by decide))
    cases gs with
    | nil => simp [groups?, hdot, hg]
    | cons next gs =>
      have hrest := ih fun x hx => h x (List.mem_cons_of_mem g hx)
      rw [List.map_cons] at hrest
      simp only [List.map_cons]
      rw [groups?, hg, hrest]
      · rfl
      · exact List.cons_ne_nil _ _

theorem splitRun_renderGroups_append (gs : List Nat) (rest : List Char) :
    Text.splitRun ':' (renderGroups gs ++ rest) =
      (Text.splitRun ':' rest).map fun parts => (renderGroups gs ++ parts.1, parts.2) :=
  Text.splitRun_separated_append (separable_toDigits gs) rest

/-! ### The longest row of zeros -/

theorem replicate_append_drop_leadingZeros (gs : List Nat) :
    List.replicate (leadingZeros gs) 0 ++ gs.drop (leadingZeros gs) = gs := by
  have hzeros : gs.takeWhile (· = 0) = List.replicate (leadingZeros gs) 0 := by
    rw [List.eq_replicate_iff]
    refine ⟨rfl, fun g hg => ?_⟩
    simpa using List.all_eq_true.1 List.all_takeWhile g hg
  rw [← hzeros]
  exact List.prefix_iff_eq_append.1 (List.takeWhile_prefix _)

/-- Beside the row of zeros stand the other groups, in order. -/
theorem take_append_longestZeros (gs : List Nat) :
    gs.take (longestZeros gs).1 ++ List.replicate (longestZeros gs).2 0 ++
      gs.drop ((longestZeros gs).1 + (longestZeros gs).2) = gs := by
  induction gs with
  | nil => rfl
  | cons g gs ih =>
    rw [longestZeros]
    dsimp only
    split
    · rw [Nat.zero_add, List.take_zero, List.nil_append]
      exact replicate_append_drop_leadingZeros (g :: gs)
    · rw [Nat.add_right_comm, List.take_succ_cons, List.drop_succ_cons, List.cons_append,
        List.cons_append, ih]

/-! ### All eight groups -/

theorem literalGroups?_renderAll {gs : List Nat} (hlength : gs.length = 8) (h : Groups gs) :
    literalGroups? (renderAll gs) = some gs := by
  have hwhole := take_append_longestZeros gs
  rw [renderAll]
  dsimp only
  split
  · rename_i htwo
    generalize hfront : gs.take (longestZeros gs).1 = front at hwhole ⊢
    generalize hback : gs.drop ((longestZeros gs).1 + (longestZeros gs).2) = back at hwhole ⊢
    have hlengths : front.length + (longestZeros gs).2 + back.length = 8 := by
      rw [← hlength, ← congrArg List.length hwhole]
      simp only [List.length_append, List.length_replicate]
    have gfront : Groups front := hfront ▸ h.take _
    have gback : Groups back := hback ▸ h.drop _
    have hsplit : Text.splitRun ':' (renderGroups front ++ [':', ':'] ++ renderGroups back) =
        some (renderGroups front, renderGroups back) := by
      rw [List.append_assoc, splitRun_renderGroups_append]
      simp [Text.splitRun]
    have hzeros : 8 - front.length - back.length = (longestZeros gs).2 := by omega
    simp only [literalGroups?, hsplit, mapM_group?_pieces gfront, groups?_pieces gback,
      Option.bind_some, hzeros]
    rw [if_pos (by omega), hwhole]
  · have hsplit : Text.splitRun ':' (renderGroups gs) = none := by
      have hnone := splitRun_renderGroups_append gs []
      rwa [List.append_nil] at hnone
    simp only [literalGroups?, hsplit, groups?_pieces h]
    simp [hlength]

/-! ### IPv4-mapped addresses -/

/-- The last two groups of an address hold the IPv4 address inside it. -/
theorem ofGroups_mapped {bits : BitVec 128} {inner : BitVec 32} (h : mapped? bits = some inner) :
    ofGroups ([0, 0, 0, 0, 0, 0xFFFF] ++ Address.toParts 65536 2 inner.toNat) = bits := by
  unfold mapped? at h
  split at h
  · rename_i hhigh
    obtain rfl := Option.some.inj h
    apply BitVec.eq_of_toNat_eq
    have hinner : (bits.setWidth 32).toNat = bits.toNat % 4294967296 := BitVec.toNat_setWidth 32 bits
    rw [BitVec.toNat_ushiftRight, Nat.shiftRight_eq_div_pow] at hhigh
    rw [hinner, ofGroups, BitVec.toNat_ofNat]
    simp only [Address.toParts, Address.ofParts, List.nil_append, List.cons_append, List.foldl_cons,
      List.foldl_nil]
    omega
  · cases h

theorem literalGroups?_mapped (inner : BitVec 32) :
    literalGroups? ([':', ':', 'f', 'f', 'f', 'f', ':'] ++ V4.render inner) =
      some ([0, 0, 0, 0, 0, 0xFFFF] ++ Address.toParts 65536 2 inner.toNat) := by
  have hcolon : ':' ∉ V4.render inner := V4.notMem_render (by decide) (by decide) inner
  have hsplit : Text.splitRun ':' ([':', ':', 'f', 'f', 'f', 'f', ':'] ++ V4.render inner) =
      some ([], ['f', 'f', 'f', 'f', ':'] ++ V4.render inner) := rfl
  have hpieces : pieces (['f', 'f', 'f', 'f', ':'] ++ V4.render inner) =
      [['f', 'f', 'f', 'f'], V4.render inner] := by
    have hfree : ':' ∉ ['f', 'f', 'f', 'f'] := by decide
    show Text.splitOn ':' (['f', 'f', 'f', 'f'] ++ ':' :: V4.render inner) = _
    rw [Text.splitOn_append_cons hfree, Text.splitOn_of_not_mem hcolon]
  have hvalue : Address.ofParts 256 (V4.octets inner) = inner.toNat := by
    rw [V4.octets, Address.ofParts_toParts]
    exact Nat.mod_eq_of_lt inner.isLt
  have hgroups : groups? [['f', 'f', 'f', 'f'], V4.render inner] =
      some (0xFFFF :: Address.toParts 65536 2 inner.toNat) := by
    have hfirst : group? ['f', 'f', 'f', 'f'] = some 0xFFFF := by decide
    simp [groups?, hfirst, V4.octets?_render, hvalue]
  have hempty : (pieces []).mapM group? = some [] := rfl
  simp only [literalGroups?, hsplit, hpieces, hgroups, hempty, Option.bind_some]
  simp [Address.toParts]

theorem ofLiteral?_render (bits : BitVec 128) : ofLiteral? (render bits) = some bits := by
  unfold render ofLiteral?
  cases h : mapped? bits with
  | some inner => rw [literalGroups?_mapped, Option.map_some, ofGroups_mapped h]
  | none =>
    have hlength : (groups bits).length = 8 := Address.length_toParts 65536 8 _
    dsimp only
    rw [literalGroups?_renderAll hlength (groups_groups bits), Option.map_some, ofGroups_groups]

/-! ### Length and colons -/

theorem length_renderGroups_le {gs : List Nat} (h : Groups gs) :
    (renderGroups gs).length ≤ gs.length * 5 := by
  have hpieces : ∀ piece ∈ gs.map (Nat.toDigits 16), piece.length ≤ 4 := by
    intro piece hpiece
    obtain ⟨g, hg, rfl⟩ := List.mem_map.1 hpiece
    exact length_toDigits_le (h g hg)
  have hle : (renderGroups gs).length ≤ _ := length_separated_le hpieces
  rwa [List.length_map] at hle

theorem length_renderAll_le {gs : List Nat} (hlength : gs.length = 8) (h : Groups gs) :
    (renderAll gs).length ≤ 42 := by
  rw [renderAll]
  dsimp only
  split
  · have hfront := length_renderGroups_le (h.take (longestZeros gs).1)
    have hback := length_renderGroups_le (h.drop ((longestZeros gs).1 + (longestZeros gs).2))
    have hwhole := congrArg List.length (take_append_longestZeros gs)
    simp only [List.length_append, List.length_replicate, List.length_cons, List.length_nil]
      at hwhole ⊢
    omega
  · have hle := length_renderGroups_le h
    omega

theorem two_le_length_renderAll {gs : List Nat} (hlength : gs.length = 8) :
    2 ≤ (renderAll gs).length := by
  rw [renderAll]
  dsimp only
  split
  · simp only [List.length_append, List.length_cons, List.length_nil]
    omega
  · have hle := length_le_length_separated ':' (gs.map (Nat.toDigits 16))
    rw [List.length_map, hlength] at hle
    show 2 ≤ (separated ':' (gs.map (Nat.toDigits 16))).length
    omega

theorem colon_mem_renderAll {gs : List Nat} (hlength : gs.length = 8) : ':' ∈ renderAll gs := by
  rw [renderAll]
  dsimp only
  split
  · exact List.mem_append_left _ (List.mem_append_right _ List.mem_cons_self)
  · match gs, hlength with
    | g :: next :: gs, _ => exact List.mem_append_right _ List.mem_cons_self

end V6

namespace Address

/-- Canonical text is a literal of the address it was written for. -/
theorem ofLiteral?_render (address : Address) : ofLiteral? address.render = some address := by
  cases address with
  | v4 bits =>
    show ofLiteral? (V4.render bits) = _
    rw [ofLiteral?, V4.ofLiteral?_render]
  | v6 bits =>
    have hcolon : ':' ∈ V6.render bits := by
      unfold V6.render
      split
      · exact List.mem_append_left _ List.mem_cons_self
      · exact V6.colon_mem_renderAll (length_toParts 65536 8 _)
    show ofLiteral? (V6.render bits) = _
    rw [ofLiteral?, V4.ofLiteral?_eq_none_of_mem hcolon (by decide) (by decide)]
    dsimp only
    rw [V6.ofLiteral?_render, Option.map_some]

theorem length_render_le (address : Address) : address.render.length ≤ 64 := by
  cases address with
  | v4 bits => exact Nat.le_trans (V4.length_render_le bits) (by decide)
  | v6 bits =>
    show (V6.render bits).length ≤ 64
    unfold V6.render
    split
    · rename_i inner _
      have hinner := V4.length_render_le inner
      simp only [List.length_append, List.length_cons, List.length_nil]
      omega
    · exact Nat.le_trans
        (V6.length_renderAll_le (length_toParts 65536 8 _) (V6.groups_groups bits)) (by decide)

theorem two_le_length_render (address : Address) : 2 ≤ address.render.length := by
  cases address with
  | v4 bits => exact Nat.le_trans (by decide) (V4.three_le_length_render bits)
  | v6 bits =>
    show 2 ≤ (V6.render bits).length
    unfold V6.render
    split
    · simp only [List.length_append, List.length_cons, List.length_nil]
      omega
    · exact V6.two_le_length_renderAll (length_toParts 65536 8 _)

end Address

end GeoTag
