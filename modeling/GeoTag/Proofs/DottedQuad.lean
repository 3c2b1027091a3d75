import GeoTag.Proofs.CanonicalText

/-!
# Dotted quads have one spelling

An octet is read from nothing but the decimal numeral of a number below 256 (`V4.octet?_eq_some_iff`),
so a dotted quad is read from nothing but the canonical text of its address
(`V4.ofLiteral?_eq_some_iff`).  `V4.Quad` says what such a text is without the reader.
-/

namespace GeoTag

/-- Where an item is read from its one spelling only, so is a row of items. -/
theorem mapM_eq_some_iff {α β : Type} {read : β → Option α} {write : α → β} {P : α → Prop}
    (hread : ∀ y x, read y = some x ↔ P x ∧ y = write x) {l : List β} {r : List α} :
    l.mapM read = some r ↔ (∀ x ∈ r, P x) ∧ l = r.map write := by
  induction l generalizing r with
  | nil => cases r <;> simp
  | cons y l ih =>
    simp only [mapM_cons_eq_some_iff, hread, ih]
    constructor
    · rintro ⟨x, xs, ⟨hx, rfl⟩, ⟨hxs, rfl⟩, rfl⟩
      exact ⟨List.forall_mem_cons.2 ⟨hx, hxs⟩, rfl⟩
    · rintro ⟨hall, hmap⟩
      obtain ⟨x, xs, rfl, hy, hl⟩ := List.map_eq_cons_iff.1 hmap.symm
      obtain ⟨hx, hxs⟩ := List.forall_mem_cons.1 hall
      exact ⟨x, xs, ⟨hx, hy.symm⟩, ⟨hxs, hl.symm⟩, rfl⟩

namespace V4

/-! ## Octets -/

/-- The value of a decimal digit. -/
def digit (c : Char) : Nat := c.toNat - '0'.toNat

theorem digit_lt {c : Char} (h : c.isDigit = true) : digit c < 10 := by
  rw [Char.isDigit_iff_toNat] at h
  have hzero : '0'.toNat = 48 := rfl
  have hnine : '9'.toNat = 57 := rfl
  unfold digit
  omega

theorem digitChar_digit {c : Char} (h : c.isDigit = true) : Nat.digitChar (digit c) = c := by
  have hlow : '0'.toNat ≤ c.toNat := (Char.isDigit_iff_toNat.1 h).1
  apply Char.toNat_inj.1
  rw [Nat.toNat_digitChar_of_lt_ten (digit_lt h)]
  exact Nat.add_sub_of_le hlow

/-- Digits behind the numeral of a positive number make a longer numeral. -/
theorem toDigits_foldl {cs : List Char} (hdigits : ∀ c ∈ cs, c.isDigit = true) {n : Nat}
    (hn : 0 < n) :
    Nat.toDigits 10 ((cs.map digit).foldl (fun n p => 10 * n + p) n) = Nat.toDigits 10 n ++ cs := by
  induction cs generalizing n with
  | nil => simp
  | cons c cs ih =>
    obtain ⟨hc, hcs⟩ := List.forall_mem_cons.1 hdigits
    have hlt := digit_lt hc
    have hlast : Nat.toDigits 10 (10 * n + digit c) = Nat.toDigits 10 n ++ [c] := by
      rw [← Nat.toDigits_append_toDigits (by decide) hn hlt, Nat.toDigits_of_lt_base hlt,
        digitChar_digit hc]
    rw [List.map_cons, List.foldl_cons, ih hcs (by omega), hlast, List.append_assoc]
    rfl

/-- Decimal digits, of which the first is zero only if it is the only one. -/
def Numeral (cs : List Char) : Prop :=
  cs ≠ [] ∧ (∀ c ∈ cs, c.isDigit = true) ∧ (cs.head? = some '0' → cs = ['0'])

theorem numeral_of_octet? {cs : List Char} {n : Nat} (h : octet? cs = some n) : Numeral cs := by
  simp only [octet?] at h
  split at h
  next hcs =>
    obtain ⟨hlength, hdigits, hlead, -⟩ := hcs
    refine ⟨?_, List.all_eq_true.1 hdigits, fun hhead => ?_⟩
    · rintro rfl
      simp at hlength
    · obtain ⟨c, rfl⟩ := List.length_eq_one_iff.1 (hlead hhead)
      rw [Option.some.inj hhead]
  next => cases h

theorem toDigits_ofParts {cs : List Char} (h : Numeral cs) :
    Nat.toDigits 10 (Address.ofParts 10 (cs.map digit)) = cs := by
  obtain ⟨hne, hdigits, hlead⟩ := h
  obtain ⟨c, rest, rfl⟩ := List.exists_cons_of_ne_nil hne
  obtain ⟨hc, hrest⟩ := List.forall_mem_cons.1 hdigits
  have hvalue : Address.ofParts 10 ((c :: rest).map digit) =
      (rest.map digit).foldl (fun n p => 10 * n + p) (digit c) := by
    simp [Address.ofParts]
  rw [hvalue]
  by_cases hzero : digit c = 0
  · -- A leading zero is the whole numeral.
    have hchar : c = '0' := by
      rw [← digitChar_digit hc, hzero]
      rfl
    rw [hchar, List.head?_cons] at hlead
    obtain rfl : rest = [] := (List.cons.inj (hlead rfl)).2
    rw [hchar]
    rfl
  · rw [toDigits_foldl hrest (by omega), Nat.toDigits_of_lt_base (digit_lt hc), digitChar_digit hc]
    rfl

theorem octet?_eq_some_iff (cs : List Char) (n : Nat) :
    octet? cs = some n ↔ n < 256 ∧ cs = Nat.toDigits 10 n := by
  constructor
  · intro h
    have hnumeral := numeral_of_octet? h
    simp only [octet?] at h
    split at h
    next hcs =>
      obtain rfl := Option.some.inj h
      exact ⟨Nat.lt_succ_of_le hcs.2.2.2, (toDigits_ofParts hnumeral).symm⟩
    next => cases h
  · rintro ⟨hlt, rfl⟩
    exact octet?_toDigits hlt

/-! ## Quads -/

theorem octets_ofOctets {octets : List Nat} (hlength : octets.length = 4)
    (hlt : ∀ n ∈ octets, n < 256) : V4.octets (ofOctets octets) = octets := by
  match octets, hlength with
  | [a, b, c, d], _ =>
    simp only [List.mem_cons, List.not_mem_nil, or_false, forall_eq_or_imp, forall_eq] at hlt
    simp only [V4.octets, ofOctets, Address.toParts, Address.ofParts, List.foldl_cons,
      List.foldl_nil, BitVec.toNat_ofNat, List.nil_append, List.cons_append]
    simp only [List.cons.injEq, and_true]
    omega

theorem octets?_eq_some_iff (cs : List Char) (octets : List Nat) :
    octets? cs = some octets ↔ octets.length = 4 ∧ (∀ n ∈ octets, n < 256) ∧
      cs = separated '.' (octets.map (Nat.toDigits 10)) := by
  constructor
  · intro h
    simp only [octets?] at h
    split at h
    next hlength =>
      obtain ⟨hlt, hpieces⟩ := (mapM_eq_some_iff octet?_eq_some_iff).1 h
      rw [hpieces, List.length_map] at hlength
      refine ⟨hlength, hlt, ?_⟩
      rw [← hpieces, Text.separated_splitOn]
    next => cases h
  · rintro ⟨hlength, hlt, rfl⟩
    have hread := octets?_render (ofOctets octets)
    rwa [render, octets_ofOctets hlength hlt] at hread

theorem ofLiteral?_eq_some_iff (cs : List Char) (bits : BitVec 32) :
    ofLiteral? cs = some bits ↔ cs = render bits := by
  constructor
  · intro h
    obtain ⟨octets, hoctets, rfl⟩ := Option.map_eq_some_iff.1 h
    obtain ⟨hlength, hlt, rfl⟩ := (octets?_eq_some_iff cs octets).1 hoctets
    rw [render, octets_ofOctets hlength hlt]
  · rintro rfl
    exact ofLiteral?_render bits

end V4

end GeoTag
