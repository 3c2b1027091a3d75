import GeoTag.Address.Literal

/-!
# The alphabet of address literals

An address literal is made of hexadecimal digits, dots and colons
(`isLiteralChar_of_ofLiteral?`), and a zone adds ASCII letters, digits and three marks.  Blanks
apart, a text with any other character in it spells no address (`ofText?_eq_none_of_mem`); so a text
with a comma never does.
-/

namespace GeoTag

namespace Text

variable {α : Type} [DecidableEq α]

/-- Every item of a split text is a separator or stands in one of the pieces. -/
theorem eq_or_mem_of_mem_splitOn (sep : α) {cs : List α} {c : α} (h : c ∈ cs) :
    c = sep ∨ ∃ piece ∈ splitOn sep cs, c ∈ piece := by
  induction cs with
  | nil => simp at h
  | cons d cs ih =>
    obtain ⟨piece, pieces, hs⟩ := List.exists_cons_of_ne_nil (splitOn_ne_nil sep cs)
    by_cases hd : d = sep
    · subst hd
      rw [splitOn_cons_self]
      rcases List.mem_cons.1 h with rfl | h
      · exact Or.inl rfl
      · exact (ih h).imp id fun ⟨p, hp, hc⟩ => ⟨p, List.mem_cons_of_mem _ hp, hc⟩
    · rw [splitOn_cons_of_ne hd hs]
      rcases List.mem_cons.1 h with rfl | h
      · exact Or.inr ⟨c :: piece, List.mem_cons_self, List.mem_cons_self⟩
      · rcases ih h with rfl | ⟨p, hp, hc⟩
        · exact Or.inl rfl
        · rw [hs] at hp
          rcases List.mem_cons.1 hp with rfl | hp
          · exact Or.inr ⟨d :: p, List.mem_cons_self, List.mem_cons_of_mem _ hc⟩
          · exact Or.inr ⟨p, List.mem_cons_of_mem _ hp, hc⟩

theorem eq_append_of_splitOnce {sep : α} {cs before after : List α}
    (h : splitOnce sep cs = some (before, after)) : cs = before ++ sep :: after := by
  induction cs generalizing before with
  | nil => simp [splitOnce] at h
  | cons c cs ih =>
    by_cases hc : c = sep
    · simp only [splitOnce, if_pos hc, Option.some.injEq, Prod.mk.injEq] at h
      rw [← h.1, ← h.2, hc, List.nil_append]
    · simp only [splitOnce, if_neg hc, Option.map_eq_some_iff, Prod.mk.injEq] at h
      obtain ⟨⟨front, back⟩, hs, rfl, rfl⟩ := h
      rw [ih hs, List.cons_append]

theorem eq_append_of_splitRun {sep : α} {cs before after : List α}
    (h : splitRun sep cs = some (before, after)) : cs = before ++ sep :: sep :: after := by
  induction cs generalizing before with
  | nil => simp [splitRun] at h
  | cons c cs ih =>
    cases cs with
    | nil => simp [splitRun] at h
    | cons d cs =>
      by_cases hc : c = sep ∧ d = sep
      · simp only [splitRun, if_pos hc, Option.some.injEq, Prod.mk.injEq] at h
        rw [← h.1, ← h.2, hc.1, hc.2, List.nil_append]
      · simp only [splitRun, if_neg hc, Option.map_eq_some_iff, Prod.mk.injEq] at h
        obtain ⟨⟨front, back⟩, hs, rfl, rfl⟩ := h
        rw [ih hs, List.cons_append]

/-- Trimming drops nothing but blanks. -/
theorem mem_trim {cs : List Char} {c : Char} (h : c ∈ cs) (hc : isBlank c = false) :
    c ∈ trim cs := by
  have keep : ∀ l : List Char, c ∈ l → c ∈ l.dropWhile isBlank := by
    intro l hl
    rw [← List.takeWhile_append_dropWhile (p := isBlank) (l := l)] at hl
    rcases List.mem_append.1 hl with hl | hl
    · rw [List.all_eq_true.1 List.all_takeWhile c hl] at hc
      cases hc
    · exact hl
  unfold trim trimRight trimLeft
  rw [List.mem_reverse]
  exact keep _ (List.mem_reverse.2 (keep cs h))

end Text

theorem mapM_cons_eq_some_iff {α β : Type} {f : α → Option β} {x : α} {l : List α} {r : List β} :
    (x :: l).mapM f = some r ↔ ∃ y ys, f x = some y ∧ l.mapM f = some ys ∧ r = y :: ys := by
  simp only [List.mapM_cons, Option.bind_eq_bind, Option.bind_eq_some_iff, Option.pure_def,
    Option.some.injEq]
  constructor
  · rintro ⟨y, hy, ys, hys, rfl⟩
    exact ⟨y, ys, hy, hys, rfl⟩
  · rintro ⟨y, ys, hy, hys, rfl⟩
    exact ⟨y, hy, ys, hys, rfl⟩

/-- Where each item is read, none of them fails. -/
theorem isSome_of_mem_of_mapM {α β : Type} {f : α → Option β} {l : List α} {r : List β}
    (h : l.mapM f = some r) {x : α} (hx : x ∈ l) : (f x).isSome = true := by
  induction l generalizing r with
  | nil => simp at hx
  | cons y l ih =>
    obtain ⟨b, bs, hb, hbs, -⟩ := mapM_cons_eq_some_iff.1 h
    rcases List.mem_cons.1 hx with rfl | hx
    · rw [hb]
      rfl
    · exact ih hbs hx

/-- A hexadecimal digit, a dot or a colon. -/
def isLiteralChar (c : Char) : Bool := c = '.' || c = ':' || (Text.hexValue? c).isSome

theorem isLiteralChar_of_isDigit {c : Char} (h : c.isDigit = true) : isLiteralChar c = true := by
  simp [isLiteralChar, Text.hexValue?, h]

namespace V4

theorem isDigit_of_octet? {cs : List Char} {n : Nat} (h : octet? cs = some n) :
    ∀ c ∈ cs, c.isDigit = true := by
  simp only [octet?] at h
  split at h
  · rename_i hcs
    exact List.all_eq_true.1 hcs.2.1
  · cases h

theorem isLiteralChar_of_octets? {cs : List Char} {octets : List Nat}
    (h : octets? cs = some octets) : ∀ c ∈ cs, isLiteralChar c = true := by
  intro c hc
  simp only [octets?] at h
  split at h
  · rcases Text.eq_or_mem_of_mem_splitOn '.' hc with rfl | ⟨piece, hpiece, hmem⟩
    · rfl
    · obtain ⟨n, hn⟩ := Option.isSome_iff_exists.1 (isSome_of_mem_of_mapM h hpiece)
      exact isLiteralChar_of_isDigit (isDigit_of_octet? hn c hmem)
  · cases h

theorem isLiteralChar_of_ofLiteral? {cs : List Char} {bits : BitVec 32}
    (h : ofLiteral? cs = some bits) : ∀ c ∈ cs, isLiteralChar c = true := by
  obtain ⟨octets, hoctets, -⟩ := Option.map_eq_some_iff.1 h
  exact isLiteralChar_of_octets? hoctets

end V4

namespace V6

theorem isLiteralChar_of_group? {cs : List Char} (h : (group? cs).isSome = true) :
    ∀ c ∈ cs, isLiteralChar c = true := by
  intro c hc
  unfold group? at h
  split at h
  · rw [Option.isSome_map] at h
    obtain ⟨digits, hdigits⟩ := Option.isSome_iff_exists.1 h
    simp [isLiteralChar, isSome_of_mem_of_mapM hdigits hc]
  · cases h

theorem isLiteralChar_of_groups? {pieces : List (List Char)} {groups : List Nat}
    (h : groups? pieces = some groups) :
    ∀ piece ∈ pieces, ∀ c ∈ piece, isLiteralChar c = true := by
  induction pieces using groups?.induct generalizing groups with
  | case1 => simp
  | case2 piece octets hoctets =>
    intro p hp
    rw [List.mem_singleton.1 hp]
    exact V4.isLiteralChar_of_octets? hoctets
  | case3 piece hnone =>
    intro p hp
    rw [List.mem_singleton.1 hp]
    simp only [groups?, hnone, Option.map_eq_some_iff] at h
    obtain ⟨g, hg, -⟩ := h
    exact isLiteralChar_of_group? (by rw [hg]; rfl)
  | case4 piece pieces hpieces ih =>
    rw [groups?] at h
    · simp only [Option.bind_eq_some_iff, Option.map_eq_some_iff] at h
      obtain ⟨g, hg, gs, hgs, -⟩ := h
      intro p hp
      rcases List.mem_cons.1 hp with rfl | hp
      · exact isLiteralChar_of_group? (by rw [hg]; rfl)
      · exact ih hgs p hp
    · exact hpieces

theorem eq_or_mem_of_mem_pieces {cs : List Char} {c : Char} (h : c ∈ cs) :
    c = ':' ∨ ∃ piece ∈ pieces cs, c ∈ piece := by
  unfold pieces
  split
  · rename_i hempty
    rw [List.isEmpty_iff.1 hempty] at h
    cases h
  · exact Text.eq_or_mem_of_mem_splitOn ':' h

theorem isLiteralChar_of_literalGroups? {cs : List Char} {groups : List Nat}
    (h : literalGroups? cs = some groups) : ∀ c ∈ cs, isLiteralChar c = true := by
  have part : ∀ {l : List Char}, (∀ piece ∈ pieces l, ∀ c ∈ piece, isLiteralChar c = true) →
      ∀ c ∈ l, isLiteralChar c = true := by
    intro l hl c hc
    rcases eq_or_mem_of_mem_pieces hc with rfl | ⟨piece, hpiece, hmem⟩
    · rfl
    · exact hl piece hpiece c hmem
  unfold literalGroups? at h
  split at h
  · obtain ⟨hgroups, -⟩ := Option.filter_eq_some_iff.1 h
    exact part (isLiteralChar_of_groups? hgroups)
  · rename_i before after hsplit
    simp only [Option.bind_eq_some_iff] at h
    obtain ⟨front, hfront, back, hback, -⟩ := h
    have hbefore : ∀ c ∈ before, isLiteralChar c = true :=
      part fun piece hpiece => isLiteralChar_of_group? (isSome_of_mem_of_mapM hfront hpiece)
    have hafter : ∀ c ∈ after, isLiteralChar c = true := part (isLiteralChar_of_groups? hback)
    intro c hc
    rw [Text.eq_append_of_splitRun hsplit] at hc
    simp only [List.mem_append, List.mem_cons] at hc
    rcases hc with hc | rfl | rfl | hc
    · exact hbefore c hc
    · rfl
    · rfl
    · exact hafter c hc

theorem isLiteralChar_of_ofLiteral? {cs : List Char} {bits : BitVec 128}
    (h : ofLiteral? cs = some bits) : ∀ c ∈ cs, isLiteralChar c = true := by
  obtain ⟨groups, hgroups, -⟩ := Option.map_eq_some_iff.1 h
  exact isLiteralChar_of_literalGroups? hgroups

end V6

namespace Address

theorem isLiteralChar_of_ofLiteral? {cs : List Char} {address : Address}
    (h : ofLiteral? cs = some address) : ∀ c ∈ cs, isLiteralChar c = true := by
  unfold ofLiteral? at h
  split at h
  · rename_i bits hbits
    exact V4.isLiteralChar_of_ofLiteral? hbits
  · obtain ⟨bits, hbits, -⟩ := Option.map_eq_some_iff.1 h
    exact V6.isLiteralChar_of_ofLiteral? hbits

theorem isLiteralChar_or_isZoneChar_of_ofZoned? {cs : List Char} {address : Address}
    (h : ofZoned? cs = some address) :
    ∀ c ∈ cs, isLiteralChar c = true ∨ c = '%' ∨ isZoneChar c = true := by
  unfold ofZoned? at h
  split at h
  · cases h
  · rename_i literal zone hsplit
    split at h
    · cases h
    · rename_i hzone
      have hall : zone.all isZoneChar = true := by
        by_cases hz : zone.all isZoneChar = true
        · exact hz
        · exact absurd (Or.inr hz) hzone
      obtain ⟨bits, hbits, -⟩ := Option.map_eq_some_iff.1 h
      intro c hc
      rw [Text.eq_append_of_splitOnce hsplit] at hc
      simp only [List.mem_append, List.mem_cons] at hc
      rcases hc with hc | rfl | hc
      · exact Or.inl (V6.isLiteralChar_of_ofLiteral? hbits c hc)
      · exact Or.inr (Or.inl rfl)
      · exact Or.inr (Or.inr (List.all_eq_true.1 hall c hc))

/-- A text spells no address if a character of it is neither blank nor of the alphabet. -/
theorem ofText?_eq_none_of_mem {s : String} {c : Char} (hmem : c ∈ s.toList)
    (hblank : Text.isBlank c = false) (hliteral : isLiteralChar c = false) (hpercent : c ≠ '%')
    (hzone : isZoneChar c = false) : ofText? s = none := by
  have htrim : c ∈ Text.trim s.toList := Text.mem_trim hmem hblank
  simp only [ofText?]
  split
  · rfl
  · split
    · rename_i address hsome
      rw [isLiteralChar_of_ofLiteral? hsome c htrim] at hliteral
      cases hliteral
    · cases hzoned : ofZoned? (Text.trim s.toList) with
      | none => rfl
      | some address =>
        rcases isLiteralChar_or_isZoneChar_of_ofZoned? hzoned c htrim with h | h | h
        · rw [h] at hliteral
          cases hliteral
        · exact absurd h hpercent
        · rw [h] at hzone
          cases hzone

end Address

end GeoTag
