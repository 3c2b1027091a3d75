import GeoTag.Proofs.DottedQuad

/-!
# The grammar of address literals

`Address.Spells` is the grammar of literals, without a reader: a dotted quad, or groups of up to four
hexadecimal digits between colons, of which the last two may be a dotted quad and a row of which may
be left out between two colons.  The readers accept what the grammar derives, with the address that it
derives (`Address.ofLiteral?_eq_some_iff`).  A literal has between two and forty-five characters.
-/

namespace GeoTag

namespace V4

/-- The decimal numeral, without leading zeros, of a number below 256. -/
def Octet (cs : List Char) (n : Nat) : Prop := n < 256 ∧ cs = Nat.toDigits 10 n

/-- Four octets between dots. -/
inductive Quad : List Char → List Nat → Prop
  | dots {p q r s : List Char} {a b c d : Nat} (first : Octet p a) (second : Octet q b)
      (third : Octet r c) (fourth : Octet s d) :
      Quad (p ++ '.' :: (q ++ '.' :: (r ++ '.' :: s))) [a, b, c, d]

end V4

namespace V6

/-- Hexadecimal digits and the number that they spell. -/
inductive Hex : List Char → Nat → Prop
  | digit {c : Char} {d : Nat} (value : Text.hexValue? c = some d) : Hex [c] d
  | append {cs : List Char} {n : Nat} {c : Char} {d : Nat} (front : Hex cs n)
      (value : Text.hexValue? c = some d) : Hex (cs ++ [c]) (16 * n + d)

/-- One to four hexadecimal digits. -/
def Group (cs : List Char) (g : Nat) : Prop := Hex cs g ∧ cs.length ≤ 4

/-- One or more groups between colons; where `quad` allows it, a dotted quad stands for the last
two. -/
inductive Row (quad : Bool) : List Char → List Nat → Prop
  | group {cs : List Char} {g : Nat} (group : Group cs g) : Row quad cs [g]
  | quad {cs : List Char} {a b c d : Nat} (allowed : quad = true)
      (octets : V4.Quad cs [a, b, c, d]) : Row quad cs [256 * a + b, 256 * c + d]
  | cons {cs ds : List Char} {g : Nat} {gs : List Nat} (group : Group cs g)
      (rest : Row quad ds gs) : Row quad (cs ++ ':' :: ds) (g :: gs)

/-- Nothing, or a row. -/
inductive Side (quad : Bool) : List Char → List Nat → Prop
  | empty : Side quad [] []
  | row {cs : List Char} {gs : List Nat} (row : Row quad cs gs) : Side quad cs gs

/-- Eight groups, or up to seven with two colons where the others, all zero, are left out. -/
inductive Spells : List Char → List Nat → Prop
  | full {cs : List Char} {gs : List Nat} (row : Row true cs gs) (eight : gs.length = 8) :
      Spells cs gs
  | short {front back : List Char} {fs bs : List Nat} (before : Side false front fs)
      (after : Side true back bs) (seven : fs.length + bs.length ≤ 7) :
      Spells (front ++ ':' :: ':' :: back)
        (fs ++ List.replicate (8 - fs.length - bs.length) 0 ++ bs)

end V6

/-- A literal of either family and its address. -/
inductive Address.Spells : List Char → Address → Prop
  | v4 {cs : List Char} {octets : List Nat} (quad : V4.Quad cs octets) :
      Spells cs (.v4 (V4.ofOctets octets))
  | v6 {cs : List Char} {groups : List Nat} (literal : V6.Spells cs groups) :
      Spells cs (.v6 (V6.ofGroups groups))

/-! ## Quads -/

namespace V4

theorem quad_iff_octets? (cs : List Char) (octets : List Nat) :
    Quad cs octets ↔ octets? cs = some octets := by
  rw [octets?_eq_some_iff]
  constructor
  · rintro ⟨⟨ha, rfl⟩, ⟨hb, rfl⟩, ⟨hc, rfl⟩, hd, rfl⟩
    refine ⟨rfl, ?_, rfl⟩
    simp [ha, hb, hc, hd]
  · rintro ⟨hlength, hlt, rfl⟩
    match octets, hlength with
    | [a, b, c, d], _ =>
      simp only [List.mem_cons, List.not_mem_nil, or_false, forall_eq_or_imp, forall_eq] at hlt
      obtain ⟨ha, hb, hc, hd⟩ := hlt
      exact .dots ⟨ha, rfl⟩ ⟨hb, rfl⟩ ⟨hc, rfl⟩ ⟨hd, rfl⟩

theorem Quad.length {cs : List Char} {octets : List Nat} (h : Quad cs octets) :
    7 ≤ cs.length ∧ cs.length ≤ 15 := by
  have hoctet {piece : List Char} {n : Nat} (h : Octet piece n) :
      1 ≤ piece.length ∧ piece.length ≤ 3 := by
    obtain ⟨hlt, rfl⟩ := h
    exact ⟨Nat.length_toDigits_pos, (Nat.length_toDigits_le_iff (by decide) (by decide)).2 (by omega)⟩
  obtain ⟨first, second, third, fourth⟩ := h
  have hfirst := hoctet first
  have hsecond := hoctet second
  have hthird := hoctet third
  have hfourth := hoctet fourth
  simp only [List.length_append, List.length_cons]
  omega

end V4

/-! ## Groups -/

namespace V6

theorem Hex.ne_nil {cs : List Char} {n : Nat} (h : Hex cs n) : cs ≠ [] := by
  cases h <;> simp

theorem Hex.mapM {cs : List Char} {n : Nat} (h : Hex cs n) :
    ∃ digits, cs.mapM Text.hexValue? = some digits ∧ Address.ofParts 16 digits = n := by
  induction h with
  | @digit c d value => exact ⟨[d], by simp [value], by simp [Address.ofParts]⟩
  | @append cs n c d front value ih =>
    obtain ⟨digits, hread, hvalue⟩ := ih
    refine ⟨digits ++ [d], by simp [List.mapM_append, hread, value], ?_⟩
    rw [Address.ofParts_append_singleton, hvalue]

theorem Hex.notMem {cs : List Char} {n : Nat} (h : Hex cs n) {c : Char}
    (hc : Text.hexValue? c = none) : c ∉ cs := by
  intro hmem
  obtain ⟨digits, hread, -⟩ := h.mapM
  have hsome := isSome_of_mem_of_mapM hread hmem
  rw [hc] at hsome
  cases hsome

/-- Digits read behind a numeral are put behind it one by one. -/
theorem Hex.append_mapM {front cs : List Char} {n : Nat} {digits : List Nat} (h : Hex front n)
    (hread : cs.mapM Text.hexValue? = some digits) :
    Hex (front ++ cs) (digits.foldl (fun n p => 16 * n + p) n) := by
  induction cs generalizing front n digits with
  | nil =>
    cases hread
    simpa using h
  | cons c cs ih =>
    obtain ⟨d, ds, hd, hds, rfl⟩ := mapM_cons_eq_some_iff.1 hread
    have hrest := ih (.append h hd) hds
    rwa [List.append_assoc, List.singleton_append] at hrest

theorem hex_of_mapM {cs : List Char} {digits : List Nat} (hne : cs ≠ [])
    (hread : cs.mapM Text.hexValue? = some digits) : Hex cs (Address.ofParts 16 digits) := by
  obtain ⟨c, rest, rfl⟩ := List.exists_cons_of_ne_nil hne
  obtain ⟨d, ds, hd, hds, rfl⟩ := mapM_cons_eq_some_iff.1 hread
  have hall := (Hex.digit hd).append_mapM hds
  simpa [Address.ofParts] using hall

theorem group_iff_group? (cs : List Char) (g : Nat) : Group cs g ↔ group? cs = some g := by
  unfold group?
  constructor
  · rintro ⟨hhex, hle⟩
    obtain ⟨digits, hread, hvalue⟩ := hhex.mapM
    have hpos := List.length_pos_iff.2 hhex.ne_nil
    have hlength : cs.length ∈ [1, 2, 3, 4] := by
      simp only [List.mem_cons, List.not_mem_nil, or_false]
      omega
    rw [if_pos hlength, hread, Option.map_some, hvalue]
  · intro h
    split at h
    next hlength =>
      simp only [List.mem_cons, List.not_mem_nil, or_false] at hlength
      obtain ⟨digits, hread, rfl⟩ := Option.map_eq_some_iff.1 h
      refine ⟨hex_of_mapM ?_ hread, by omega⟩
      rintro rfl
      simp at hlength
    next => cases h

/-! ## Rows -/

theorem separated_pieces (cs : List Char) : separated ':' (pieces cs) = cs := by
  unfold pieces
  split
  next hempty =>
    rw [List.isEmpty_iff.1 hempty]
    rfl
  next => exact Text.separated_splitOn ':' cs

theorem Group.separable {cs : List Char} {g : Nat} (h : Group cs g) : cs ≠ [] ∧ ':' ∉ cs :=
  ⟨h.1.ne_nil, h.1.notMem (by decide)⟩

theorem Group.octets?_eq_none {cs : List Char} {g : Nat} (h : Group cs g) :
    V4.octets? cs = none :=
  V4.octets?_eq_none_of_notMem (h.1.notMem (by decide))

theorem quad_separable {cs : List Char} {octets : List Nat} (h : V4.Quad cs octets) :
    cs ≠ [] ∧ ':' ∉ cs := by
  refine ⟨by cases h; simp, fun hmem => ?_⟩
  have hnone := V4.ofLiteral?_eq_none_of_mem hmem (by decide) (by decide)
  rw [V4.ofLiteral?, (V4.quad_iff_octets? cs octets).1 h] at hnone
  cases hnone

theorem toParts_quad {cs : List Char} {a b c d : Nat} (h : V4.Quad cs [a, b, c, d]) :
    Address.toParts 65536 2 (Address.ofParts 256 [a, b, c, d]) = [256 * a + b, 256 * c + d] := by
  obtain ⟨⟨ha, -⟩, ⟨hb, -⟩, ⟨hc, -⟩, ⟨hd, -⟩⟩ := h
  simp only [Address.toParts, Address.ofParts, List.foldl_cons, List.foldl_nil, List.nil_append,
    List.cons_append, List.cons.injEq, and_true]
  omega

/-- The groups of the pieces on one side. -/
def sideGroups? (quad : Bool) (ps : List (List Char)) : Option (List Nat) :=
  if quad then groups? ps else ps.mapM group?

/-- The pieces of a row are read as its groups. -/
theorem Row.exists_pieces {quad : Bool} {cs : List Char} {gs : List Nat} (h : Row quad cs gs) :
    ∃ ps, ps ≠ [] ∧ Separable ps ∧ separated ':' ps = cs ∧ sideGroups? quad ps = some gs := by
  induction h with
  | @group cs g group =>
    have hread := (group_iff_group? cs g).1 group
    refine ⟨[cs], List.cons_ne_nil _ _, by simpa [Separable] using group.separable, rfl, ?_⟩
    -- A group has no dot, so the last piece is not mistaken for a quad.
    cases quad <;> simp [sideGroups?, groups?, group.octets?_eq_none, hread]
  | @quad cs a b c d allowed octets =>
    have hread := (V4.quad_iff_octets? cs _).1 octets
    refine ⟨[cs], List.cons_ne_nil _ _, by simpa [Separable] using quad_separable octets, rfl, ?_⟩
    simp [sideGroups?, allowed, groups?, hread, toParts_quad octets]
  | @cons cs ds g gs group rest ih =>
    obtain ⟨ps, hne, hps, rfl, hrest⟩ := ih
    have hread := (group_iff_group? cs g).1 group
    obtain ⟨p, ps, rfl⟩ := List.exists_cons_of_ne_nil hne
    refine ⟨cs :: p :: ps, List.cons_ne_nil _ _, ?_, rfl, ?_⟩
    · exact List.forall_mem_cons.2 ⟨group.separable, hps⟩
    · cases quad with
      | false => exact mapM_cons_eq_some_iff.2 ⟨g, gs, hread, hrest, rfl⟩
      | true =>
        change groups? (p :: ps) = some gs at hrest
        change groups? (cs :: p :: ps) = some (g :: gs)
        rw [groups?, hread, hrest]
        · rfl
        · exact hne

theorem row_of_groups? {ps : List (List Char)} {gs : List Nat} (hne : ps ≠ [])
    (h : groups? ps = some gs) : Row true (separated ':' ps) gs := by
  induction ps using groups?.induct generalizing gs with
  | case1 => exact absurd rfl hne
  | case2 piece octets hoctets =>
    simp only [groups?, hoctets, Option.some.injEq] at h
    have hquad := (V4.quad_iff_octets? piece octets).2 hoctets
    cases hquad with
    | dots first second third fourth =>
      rw [toParts_quad (.dots first second third fourth)] at h
      rw [← h]
      exact .quad rfl (.dots first second third fourth)
  | case3 piece hnone =>
    simp only [groups?, hnone, Option.map_eq_some_iff] at h
    obtain ⟨g, hg, rfl⟩ := h
    exact .group ((group_iff_group? piece g).2 hg)
  | case4 piece ps hps ih =>
    rw [groups?] at h
    · simp only [Option.bind_eq_some_iff, Option.map_eq_some_iff] at h
      obtain ⟨g, hg, rest, hrest, rfl⟩ := h
      obtain ⟨p, ps, rfl⟩ := List.exists_cons_of_ne_nil hps
      exact .cons ((group_iff_group? piece g).2 hg) (ih hps hrest)
    · exact hps

theorem row_of_mapM {ps : List (List Char)} {gs : List Nat} (hne : ps ≠ [])
    (h : ps.mapM group? = some gs) : Row false (separated ':' ps) gs := by
  induction ps generalizing gs with
  | nil => exact absurd rfl hne
  | cons piece ps ih =>
    obtain ⟨g, rest, hg, hrest, rfl⟩ := mapM_cons_eq_some_iff.1 h
    have hgroup := (group_iff_group? piece g).2 hg
    cases ps with
    | nil =>
      cases hrest
      exact .group hgroup
    | cons p ps => exact .cons hgroup (ih (List.cons_ne_nil p ps) hrest)

/-! ## Sides -/

theorem side_iff (quad : Bool) (cs : List Char) (gs : List Nat) :
    Side quad cs gs ↔ sideGroups? quad (pieces cs) = some gs := by
  constructor
  · intro h
    cases h with
    | empty => cases quad <;> rfl
    | row row =>
      obtain ⟨ps, -, hps, rfl, hread⟩ := row.exists_pieces
      rwa [pieces_separated hps]
  · intro h
    rw [← separated_pieces cs]
    by_cases hne : pieces cs = []
    · rw [hne] at h ⊢
      cases quad <;> cases h <;> exact .empty
    · cases quad with
      | false => exact .row (row_of_mapM hne h)
      | true => exact .row (row_of_groups? hne h)

/-- A search for two colons in a row passes over a side. -/
theorem Side.splitRun {quad : Bool} {cs : List Char} {gs : List Nat} (h : Side quad cs gs)
    (rest : List Char) :
    Text.splitRun ':' (cs ++ rest) =
      (Text.splitRun ':' rest).map fun parts => (cs ++ parts.1, parts.2) := by
  cases h with
  | empty => simp
  | row row =>
    obtain ⟨ps, -, hps, rfl, -⟩ := row.exists_pieces
    exact Text.splitRun_separated_append hps rest

/-! ## Literals -/

theorem spells_iff_literalGroups? (cs : List Char) (gs : List Nat) :
    Spells cs gs ↔ literalGroups? cs = some gs := by
  constructor
  · intro h
    cases h with
    | full row eight =>
      -- No piece of a row is empty, so two colons in a row stand nowhere in it.
      have hsplit : Text.splitRun ':' cs = none := by
        simpa [Text.splitRun] using (Side.row row).splitRun []
      have hread : groups? (pieces cs) = some gs := (side_iff true cs gs).1 (.row row)
      simp only [literalGroups?, hsplit, hread]
      simp [eight]
    | @short front back fs bs before after seven =>
      have hsplit : Text.splitRun ':' (front ++ ':' :: ':' :: back) = some (front, back) := by
        rw [before.splitRun]
        simp [Text.splitRun]
      have hfront : (pieces front).mapM group? = some fs := (side_iff false front fs).1 before
      have hback : groups? (pieces back) = some bs := (side_iff true back bs).1 after
      simp only [literalGroups?, hsplit, hfront, hback, Option.bind_some, if_pos seven]
  · intro h
    unfold literalGroups? at h
    split at h
    next =>
      obtain ⟨hread, height⟩ := Option.filter_eq_some_iff.1 h
      cases (side_iff true cs gs).2 hread with
      | empty => simp at height
      | row row => exact .full row (by simpa using height)
    next front back hsplit =>
      simp only [Option.bind_eq_some_iff] at h
      obtain ⟨fs, hfs, bs, hbs, h⟩ := h
      split at h
      next hseven =>
        cases h
        rw [Text.eq_append_of_splitRun hsplit]
        exact .short ((side_iff false front fs).2 hfs) ((side_iff true back bs).2 hbs) hseven
      next => cases h

theorem ofLiteral?_eq_some_iff (cs : List Char) (bits : BitVec 128) :
    ofLiteral? cs = some bits ↔ ∃ groups, Spells cs groups ∧ ofGroups groups = bits := by
  simp only [ofLiteral?, Option.map_eq_some_iff, spells_iff_literalGroups?]

theorem Spells.colon_mem {cs : List Char} {gs : List Nat} (h : Spells cs gs) : ':' ∈ cs := by
  cases h with
  | short => simp
  | full row eight =>
    cases row with
    | group => simp at eight
    | quad => simp at eight
    | cons => simp

/-! ### Lengths -/

theorem Row.length {quad : Bool} {cs : List Char} {gs : List Nat} (h : Row quad cs gs) :
    gs.length ≤ cs.length ∧ cs.length + 1 ≤ 5 * gs.length + 6 * quad.toNat := by
  induction h with
  | group group =>
    have hpos := List.length_pos_iff.2 group.1.ne_nil
    have hle := group.2
    simp only [List.length_cons, List.length_nil]
    omega
  | quad allowed octets =>
    have hlength := octets.length
    simp only [allowed, Bool.toNat_true, List.length_cons, List.length_nil]
    omega
  | cons group rest ih =>
    have hle := group.2
    simp only [List.length_append, List.length_cons]
    omega

theorem Side.length_le {quad : Bool} {cs : List Char} {gs : List Nat} (h : Side quad cs gs) :
    cs.length ≤ 5 * gs.length + 5 * quad.toNat := by
  cases h with
  | empty => simp
  | row row =>
    have hrow := row.length
    have hquad := quad.toNat_le
    omega

theorem Spells.length {cs : List Char} {gs : List Nat} (h : Spells cs gs) :
    2 ≤ cs.length ∧ cs.length ≤ 45 := by
  cases h with
  | full row eight =>
    have hrow := row.length
    simp only [Bool.toNat_true] at hrow
    omega
  | short before after seven =>
    have hbefore := before.length_le
    have hafter := after.length_le
    simp only [Bool.toNat_false, Bool.toNat_true] at hbefore hafter
    simp only [List.length_append, List.length_cons]
    omega

end V6

namespace Address

/-- The readers accept what the grammar derives. -/
theorem ofLiteral?_eq_some_iff (cs : List Char) (address : Address) :
    ofLiteral? cs = some address ↔ Spells cs address := by
  unfold ofLiteral?
  constructor
  · intro h
    split at h
    next bits hbits =>
      obtain ⟨octets, hoctets, rfl⟩ := Option.map_eq_some_iff.1 hbits
      cases h
      exact .v4 ((V4.quad_iff_octets? cs octets).2 hoctets)
    next =>
      obtain ⟨bits, hbits, rfl⟩ := Option.map_eq_some_iff.1 h
      obtain ⟨groups, hgroups, rfl⟩ := (V6.ofLiteral?_eq_some_iff cs bits).1 hbits
      exact .v6 hgroups
  · intro h
    cases h with
    | @v4 octets quad =>
      simp only [V4.ofLiteral?, (V4.quad_iff_octets? cs octets).1 quad, Option.map_some]
    | @v6 groups literal =>
      have hnone := V4.ofLiteral?_eq_none_of_mem literal.colon_mem (by decide) (by decide)
      have hread := (V6.ofLiteral?_eq_some_iff cs _).2 ⟨groups, literal, rfl⟩
      simp only [hnone, hread, Option.map_some]

theorem Spells.length {cs : List Char} {address : Address} (h : Spells cs address) :
    2 ≤ cs.length ∧ cs.length ≤ 45 := by
  cases h with
  | v4 quad =>
    have hquad := quad.length
    omega
  | v6 literal => exact literal.length

end Address

end GeoTag
