import GeoTag.Address.Printer
import GeoTag.Text.Blank
import GeoTag.Text.Split

/-!
# Taking apart what was put together

Pieces without the separator are what a split of the separated text finds (`splitOn_separated`).  A
text that is put together from pieces with something in them has the separator nowhere twice in a row,
so a search for that passes over it (`splitRun_separated_append`).  Blanks around a text that neither
starts nor ends with one are all that a trim drops (`trim_append`).
-/

namespace GeoTag

theorem separated_cons_cons (sep : Char) (piece next : List Char) (pieces : List (List Char)) :
    separated sep (piece :: next :: pieces) = piece ++ sep :: separated sep (next :: pieces) := rfl

/-- Text between separators holds the characters of its pieces and the separator. -/
theorem eq_or_mem_of_mem_separated {sep c : Char} {pieces : List (List Char)}
    (h : c ∈ separated sep pieces) : c = sep ∨ ∃ piece ∈ pieces, c ∈ piece := by
  induction pieces with
  | nil => cases h
  | cons piece pieces ih =>
    cases pieces with
    | nil => exact Or.inr ⟨piece, List.mem_cons_self, h⟩
    | cons next pieces =>
      rw [separated_cons_cons, List.mem_append, List.mem_cons] at h
      rcases h with h | rfl | h
      · exact Or.inr ⟨piece, List.mem_cons_self, h⟩
      · exact Or.inl rfl
      · exact (ih h).imp id fun ⟨p, hp, hc⟩ => ⟨p, List.mem_cons_of_mem _ hp, hc⟩

theorem length_separated_le {sep : Char} {pieces : List (List Char)} {width : Nat}
    (h : ∀ piece ∈ pieces, piece.length ≤ width) :
    (separated sep pieces).length ≤ pieces.length * (width + 1) := by
  induction pieces with
  | nil => exact Nat.zero_le _
  | cons piece pieces ih =>
    have hpiece := h piece List.mem_cons_self
    cases pieces with
    | nil =>
      show piece.length ≤ 1 * (width + 1)
      omega
    | cons next pieces =>
      have hrest := ih fun p hp => h p (List.mem_cons_of_mem piece hp)
      rw [separated_cons_cons, List.length_append, List.length_cons, List.length_cons,
        Nat.add_mul]
      omega

theorem length_le_length_separated (sep : Char) (pieces : List (List Char)) :
    pieces.length ≤ (separated sep pieces).length + 1 := by
  induction pieces with
  | nil => exact Nat.zero_le _
  | cons piece pieces ih =>
    cases pieces with
    | nil => exact Nat.le_add_left 1 _
    | cons next pieces =>
      rw [separated_cons_cons]
      simp only [List.length_append, List.length_cons] at ih ⊢
      omega

namespace Text

section Split

variable {α : Type} [DecidableEq α] {sep : α}

theorem splitOn_append_cons {piece : List α} (h : sep ∉ piece) (rest : List α) :
    splitOn sep (piece ++ sep :: rest) = piece :: splitOn sep rest := by
  induction piece with
  | nil => exact splitOn_cons_self sep rest
  | cons c piece ih =>
    simp only [List.mem_cons, not_or] at h
    exact splitOn_cons_of_ne (Ne.symm h.1) (ih h.2)

theorem splitOnce_append_cons {before : List α} (h : sep ∉ before) (after : List α) :
    splitOnce sep (before ++ sep :: after) = some (before, after) := by
  induction before with
  | nil => simp [splitOnce]
  | cons c before ih =>
    simp only [List.mem_cons, not_or] at h
    simp [splitOnce, Ne.symm h.1, ih h.2]

theorem splitRun_cons_of_ne {c : α} (h : c ≠ sep) (cs : List α) :
    splitRun sep (c :: cs) = (splitRun sep cs).map fun parts => (c :: parts.1, parts.2) := by
  cases cs with
  | nil => rfl
  | cons d cs => simp [splitRun, h]

theorem splitRun_sep_cons_of_ne {d : α} (h : d ≠ sep) (cs : List α) :
    splitRun sep (sep :: d :: cs) =
      (splitRun sep (d :: cs)).map fun parts => (sep :: parts.1, parts.2) := by
  simp [splitRun, h]

theorem splitRun_append {piece : List α} (h : sep ∉ piece) (rest : List α) :
    splitRun sep (piece ++ rest) =
      (splitRun sep rest).map fun parts => (piece ++ parts.1, parts.2) := by
  induction piece with
  | nil => simp
  | cons c piece ih =>
    simp only [List.mem_cons, not_or] at h
    rw [List.cons_append, splitRun_cons_of_ne (Ne.symm h.1), ih h.2, Option.map_map]
    rfl

end Split

theorem splitOn_separated {sep : Char} {pieces : List (List Char)} (hne : pieces ≠ [])
    (h : ∀ piece ∈ pieces, sep ∉ piece) : splitOn sep (separated sep pieces) = pieces := by
  induction pieces with
  | nil => exact absurd rfl hne
  | cons piece pieces ih =>
    have hpiece := h piece List.mem_cons_self
    cases pieces with
    | nil => exact splitOn_of_not_mem hpiece
    | cons next pieces =>
      rw [separated_cons_cons, splitOn_append_cons hpiece,
        ih (List.cons_ne_nil _ _) fun p hp => h p (List.mem_cons_of_mem piece hp)]

theorem separated_splitOn (sep : Char) (cs : List Char) : separated sep (splitOn sep cs) = cs := by
  induction cs with
  | nil => rfl
  | cons c cs ih =>
    obtain ⟨piece, pieces, hs⟩ := List.exists_cons_of_ne_nil (splitOn_ne_nil sep cs)
    by_cases hc : c = sep
    · rw [hc, splitOn_cons_self, hs, separated_cons_cons, ← hs, ih, List.nil_append]
    · rw [splitOn_cons_of_ne hc hs]
      rw [hs] at ih
      rw [← ih]
      cases pieces <;> rfl

/-- A search for two separators in a row passes over pieces with something in them. -/
theorem splitRun_separated_append {sep : Char} {pieces : List (List Char)}
    (h : ∀ piece ∈ pieces, piece ≠ [] ∧ sep ∉ piece) (rest : List Char) :
    splitRun sep (separated sep pieces ++ rest) =
      (splitRun sep rest).map fun parts => (separated sep pieces ++ parts.1, parts.2) := by
  induction pieces with
  | nil => simp [separated]
  | cons piece pieces ih =>
    have hpiece := (h piece List.mem_cons_self).2
    cases pieces with
    | nil => exact splitRun_append hpiece rest
    | cons next pieces =>
      have hlater := ih fun p hp => h p (List.mem_cons_of_mem piece hp)
      -- The next piece starts with something else, so the separator before it stands alone.
      obtain ⟨hnext, hfree⟩ := h next (List.mem_cons_of_mem piece List.mem_cons_self)
      obtain ⟨d, more, rfl⟩ := List.exists_cons_of_ne_nil hnext
      have hd : d ≠ sep := fun heq => hfree (heq ▸ List.mem_cons_self)
      obtain ⟨tail, htail⟩ : ∃ tail, separated sep ((d :: more) :: pieces) = d :: tail := by
        cases pieces with
        | nil => exact ⟨more, rfl⟩
        | cons p pieces => exact ⟨more ++ sep :: separated sep (p :: pieces), rfl⟩
      rw [separated_cons_cons, List.append_assoc, splitRun_append hpiece, List.cons_append, htail,
        List.cons_append, splitRun_sep_cons_of_ne hd, ← List.cons_append, ← htail, hlater]
      simp [Option.map_map, Function.comp_def]

/-! ## Blanks around a text -/

theorem dropWhile_isBlank_append {before : List Char} (hbefore : Blank before) {c : Char}
    (hc : isBlank c = false) (cs : List Char) :
    (before ++ c :: cs).dropWhile isBlank = c :: cs := by
  rw [List.dropWhile_append_of_pos hbefore, List.dropWhile_cons_of_neg (by simp [hc])]

theorem trim_append {before cs after : List Char} (hbefore : Blank before) (hafter : Blank after)
    (hne : cs ≠ []) (hcs : ∀ c ∈ cs, isBlank c = false) : trim (before ++ cs ++ after) = cs := by
  obtain ⟨c, front, rfl⟩ := List.exists_cons_of_ne_nil hne
  have hleft : trimLeft (before ++ (c :: front) ++ after) = (c :: front) ++ after := by
    rw [List.append_assoc]
    exact dropWhile_isBlank_append hbefore (hcs c List.mem_cons_self) _
  obtain ⟨d, back, hback⟩ := List.exists_cons_of_ne_nil
    (fun hnil => List.cons_ne_nil c front (List.reverse_eq_nil_iff.1 hnil))
  have hd : isBlank d = false := by
    apply hcs
    rw [← List.mem_reverse, hback]
    exact List.mem_cons_self
  have hreversed : Blank after.reverse := fun x hx => hafter x (List.mem_reverse.1 hx)
  rw [trim, hleft, trimRight, List.reverse_append, hback, dropWhile_isBlank_append hreversed hd,
    ← hback, List.reverse_reverse]

end Text

end GeoTag
