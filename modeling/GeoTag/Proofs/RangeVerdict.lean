import GeoTag.Proofs.LiteralGrammar
import GeoTag.Proofs.RangeText

/-!
# Which texts are range tables, and what is wrong with the others

A line of a table `Ranges` from one address to another, without a row being built for it, and it is
`Malformed` when it holds data and does not.  A text is a table exactly when no line is malformed and
no address lies in the ranges of two lines; otherwise the fault has the number of the first malformed
line, or the number zero when there is none (`parse_verdict`).
-/

namespace GeoTag

/-- Two addresses of one family, the first not behind the second. -/
def Address.Upto : Address → Address → Prop
  | .v4 first, .v4 last => first.toNat ≤ last.toNat
  | .v6 first, .v6 last => first.toNat ≤ last.toNat
  | _, _ => False

namespace RangeTable

/-- Blanks at its ends apart, the line is neither empty nor a comment. -/
def HoldsData (line : List Char) : Prop :=
  Text.trim line ≠ [] ∧ (Text.trim line).head? ≠ some '#'

/-- The line has six columns, and the first two are the ends of a range. -/
def Ranges (line : List Char) (first last : Address) : Prop :=
  ∃ c₀ c₁ c₂ c₃ c₄ c₅,
    (Text.splitOn ',' (Text.trim line)).map Text.trim = [c₀, c₁, c₂, c₃, c₄, c₅] ∧
      Address.Spells c₀ first ∧ Address.Spells c₁ last ∧ first.Upto last

/-- The line holds data, but no range. -/
def Malformed (line : List Char) : Prop :=
  HoldsData line ∧ ¬ ∃ first last, Ranges line first last

/-- The line at a place of the text holds a range, and the address lies in it. -/
def CoveredAt (text : String) (place : Nat) (address : Address) : Prop :=
  ∃ line first last, (lines text)[place]? = some line ∧ HoldsData line ∧
    Ranges line first last ∧ first.Upto address ∧ address.Upto last

/-- Some address lies in the ranges of two lines. -/
def Overlapping (text : String) : Prop :=
  ∃ i j address, i < j ∧ CoveredAt text i address ∧ CoveredAt text j address

/-! ## Ranges and rows -/

theorem isData_trim_iff (line : List Char) :
    isData (Text.trim line) = true ↔ HoldsData line := by
  simp [isData, HoldsData]

namespace Range

theorem exists_ofEnds?_iff (first last : Address) :
    (∃ range, ofEnds? first last = some range) ↔ first.Upto last := by
  cases first <;> cases last <;> simp [ofEnds?, Address.Upto]

theorem contains_iff_of_ofEnds? {first last : Address} {range : Range}
    (h : ofEnds? first last = some range) (address : Address) :
    range.contains address = true ↔ first.Upto address ∧ address.Upto last := by
  unfold ofEnds? at h
  split at h
  · split at h
    · cases h
      cases address <;> simp [contains, Address.Upto]
    · cases h
  · split at h
    · cases h
      cases address <;> simp [contains, Address.Upto]
    · cases h
  · cases h

end Range

theorem Ranges.exists_row {line : List Char} {first last : Address} (h : Ranges line first last) :
    ∃ row, Row.parse (Text.trim line) = .ok row ∧ Range.ofEnds? first last = some row.range := by
  obtain ⟨c₀, c₁, c₂, c₃, c₄, c₅, hcolumns, hfirst, hlast, hupto⟩ := h
  rw [← Address.ofLiteral?_eq_some_iff] at hfirst hlast
  obtain ⟨range, hrange⟩ := (Range.exists_ofEnds?_iff first last).2 hupto
  refine ⟨⟨range, ⟨column c₂, column c₃, column c₄, column c₅⟩⟩, ?_, hrange⟩
  exact Row.parse_eq_ok_iff.2
    ⟨c₀, c₁, c₂, c₃, c₄, c₅, first, last, hcolumns, hfirst, hlast, hrange, rfl⟩

theorem exists_ranges_of_parse {line : List Char} {row : Row}
    (h : Row.parse (Text.trim line) = .ok row) :
    ∃ first last, Ranges line first last ∧ Range.ofEnds? first last = some row.range := by
  obtain ⟨c₀, c₁, c₂, c₃, c₄, c₅, first, last, hcolumns, hfirst, hlast, hrange, -⟩ :=
    Row.parse_eq_ok_iff.1 h
  rw [Address.ofLiteral?_eq_some_iff] at hfirst hlast
  have hupto := (Range.exists_ofEnds?_iff first last).1 ⟨_, hrange⟩
  exact ⟨first, last, ⟨c₀, c₁, c₂, c₃, c₄, c₅, hcolumns, hfirst, hlast, hupto⟩, hrange⟩

theorem malformed_iff (line : List Char) :
    Malformed line ↔
      isData (Text.trim line) = true ∧ ∃ flaw, Row.parse (Text.trim line) = .error flaw := by
  unfold Malformed
  rw [isData_trim_iff]
  apply and_congr_right
  intro _
  cases hparse : Row.parse (Text.trim line) with
  | error flaw =>
    refine iff_of_true ?_ ⟨flaw, rfl⟩
    rintro ⟨first, last, hranges⟩
    obtain ⟨row, hrow, -⟩ := hranges.exists_row
    rw [hparse] at hrow
    cases hrow
  | ok row =>
    obtain ⟨first, last, hranges, -⟩ := exists_ranges_of_parse hparse
    simpa using ⟨first, last, hranges⟩

instance (line : List Char) : Decidable (Malformed line) :=
  match h : Row.parse (Text.trim line) with
  | .error flaw => decidable_of_iff (isData (Text.trim line) = true) (by simp [malformed_iff, h])
  | .ok row => isFalse (by simp [malformed_iff, h])

theorem wellFormed_iff_not_malformed (line : List Char) : WellFormed line ↔ ¬ Malformed line := by
  unfold WellFormed
  rw [malformed_iff, not_and]
  cases Row.parse (Text.trim line) <;> simp

theorem coveredAt_iff (text : String) (place : Nat) (address : Address) :
    CoveredAt text place address ↔ ∃ line row, (lines text)[place]? = some line ∧
      lineRow? line = some row ∧ row.range.contains address = true := by
  simp only [lineRow?_eq_some_iff, isData_trim_iff]
  constructor
  · rintro ⟨line, first, last, hline, hdata, hranges, hin⟩
    obtain ⟨row, hrow, hrange⟩ := hranges.exists_row
    exact ⟨line, row, hline, ⟨hdata, hrow⟩, (Range.contains_iff_of_ofEnds? hrange address).2 hin⟩
  · rintro ⟨line, row, hline, ⟨hdata, hrow⟩, hin⟩
    obtain ⟨first, last, hranges, hrange⟩ := exists_ranges_of_parse hrow
    exact ⟨line, first, last, hline, hdata, hranges,
      (Range.contains_iff_of_ofEnds? hrange address).1 hin⟩

theorem rowsApart_rowsOf_iff (text : String) : RowsApart (rowsOf text) ↔ ¬ Overlapping text := by
  unfold RowsApart rowsOf Overlapping
  rw [List.pairwise_filterMap, List.pairwise_iff_getElem]
  simp only [coveredAt_iff]
  constructor
  · rintro h ⟨i, j, address, hij, ⟨line, row, hline, hrow, hin⟩, line', row', hline', hrow', hin'⟩
    obtain ⟨hi, rfl⟩ := List.getElem?_eq_some_iff.1 hline
    obtain ⟨hj, rfl⟩ := List.getElem?_eq_some_iff.1 hline'
    exact h i j hi hj hij row hrow row' hrow' address ⟨hin, hin'⟩
  · intro h i j hi hj hij row hrow row' hrow' address hboth
    exact h ⟨i, j, address, hij, ⟨_, row, List.getElem?_eq_getElem hi, hrow, hboth.1⟩,
      _, row', List.getElem?_eq_getElem hj, hrow', hboth.2⟩

/-! ## The first malformed line -/

/-- The lines with data among lines that are numbered from `start` on. -/
def numbered (start : Nat) (raws : List (List Char)) : List (Nat × List Char) :=
  ((List.range' start raws.length).zip (raws.map Text.trim)).filter fun l => isData l.2

theorem dataLines_eq_numbered (text : String) : dataLines text = numbered 1 (lines text) := by
  simp only [dataLines, numbered, lines, List.length_map]

theorem numbered_cons (start : Nat) (raw : List Char) (raws : List (List Char)) :
    numbered start (raw :: raws) =
      if isData (Text.trim raw) then (start, Text.trim raw) :: numbered (start + 1) raws
      else numbered (start + 1) raws := by
  unfold numbered
  rw [List.length_cons, List.range'_succ, List.map_cons, List.zip_cons_cons, List.filter_cons]

theorem rows_numbered_eq_error {raws : List (List Char)} {start place : Nat} {line : List Char}
    {flaw : Flaw} (hline : raws[place]? = some line) (hdata : isData (Text.trim line) = true)
    (hflaw : Row.parse (Text.trim line) = .error flaw)
    (hearlier : ∀ earlier ∈ raws.take place, WellFormed earlier) :
    rows (numbered start raws) = .error ⟨start + place, flaw⟩ := by
  induction raws generalizing start place with
  | nil => simp at hline
  | cons raw raws ih =>
    rw [numbered_cons]
    cases place with
    | zero =>
      rw [List.getElem?_cons_zero, Option.some.injEq] at hline
      subst hline
      rw [if_pos hdata, rows, hflaw]
      rfl
    | succ place =>
      rw [List.getElem?_cons_succ] at hline
      rw [List.take_succ_cons, List.forall_mem_cons] at hearlier
      have hrest : rows (numbered (start + 1) raws) = .error ⟨start + 1 + place, flaw⟩ :=
        ih hline hearlier.2
      rw [Nat.add_right_comm] at hrest
      split
      next hraw =>
        obtain ⟨row, hrow⟩ := hearlier.1 hraw
        rw [rows, hrow, hrest]
        rfl
      next => exact hrest

/-! ## The verdict -/

theorem exists_parse_eq_ok_iff (path text : String) :
    (∃ table, parse path text = .ok table) ↔
      (∀ line ∈ lines text, ¬ Malformed line) ∧ ¬ Overlapping text := by
  simp only [parse_eq_ok_iff, wellFormed_iff_not_malformed, rowsApart_rowsOf_iff]
  constructor
  · rintro ⟨table, hwell, hapart, -⟩
    exact ⟨hwell, hapart⟩
  · rintro ⟨hwell, hapart⟩
    exact ⟨_, hwell, hapart, rfl⟩

theorem parse_eq_error_of_malformed (path : String) {text : String} {place : Nat} {line : List Char}
    (hline : (lines text)[place]? = some line) (hmalformed : Malformed line)
    (hearlier : ∀ earlier ∈ (lines text).take place, ¬ Malformed earlier) :
    ∃ flaw, Row.parse (Text.trim line) = .error flaw ∧
      parse path text = .error ⟨place + 1, flaw⟩ := by
  obtain ⟨hdata, flaw, hflaw⟩ := (malformed_iff line).1 hmalformed
  have hrows : rows (dataLines text) = .error ⟨1 + place, flaw⟩ := by
    rw [dataLines_eq_numbered]
    apply rows_numbered_eq_error hline hdata hflaw
    intro earlier hmem
    exact (wellFormed_iff_not_malformed earlier).2 (hearlier earlier hmem)
  rw [Nat.add_comm] at hrows
  exact ⟨flaw, hflaw, by rw [parse, hrows]⟩

theorem ofRows_eq_error {name : String} {rows : List Row} {flaw : Flaw}
    (h : ofRows name rows = .error flaw) : flaw = .overlap4 ∨ flaw = .overlap6 := by
  simp only [ofRows] at h
  split at h
  · cases h
    exact Or.inl rfl
  · split at h <;> cases h
    exact Or.inr rfl

theorem parse_eq_error_of_overlapping (path : String) {text : String}
    (hwell : ∀ line ∈ lines text, ¬ Malformed line) (hoverlap : Overlapping text) :
    ∃ flaw, (flaw = .overlap4 ∨ flaw = .overlap6) ∧ parse path text = .error ⟨0, flaw⟩ := by
  have hrows : rows (dataLines text) = .ok (rowsOf text) := by
    rw [rows_eq_ok_iff, map_snd_dataLines, filterMap_dataOf, ← wellFormed_lines_iff]
    exact ⟨fun line hline => (wellFormed_iff_not_malformed line).2 (hwell line hline), rfl⟩
  cases hofRows : ofRows (nameOf path) (rowsOf text) with
  | error flaw =>
    refine ⟨flaw, ofRows_eq_error hofRows, ?_⟩
    simp only [parse, hrows, hofRows]
  | ok table =>
    have hok : parse path text = .ok table := by simp only [parse, hrows, hofRows]
    exact absurd hoverlap ((exists_parse_eq_ok_iff path text).1 ⟨table, hok⟩).2

/-- A text is a table exactly when every line with data has six columns that start with the ends of a
range, and no address lies in the ranges of two lines.  The fault of any other text has the number of
the first line that is malformed, whatever follows it, or zero when only the ranges are to blame. -/
theorem parse_verdict (path text : String) :
    ((∃ table, parse path text = .ok table) ↔
        (∀ line ∈ lines text, ¬ Malformed line) ∧ ¬ Overlapping text) ∧
      (∀ place line, (lines text)[place]? = some line → Malformed line →
        (∀ earlier ∈ (lines text).take place, ¬ Malformed earlier) →
        ∃ flaw, Row.parse (Text.trim line) = .error flaw ∧
          parse path text = .error ⟨place + 1, flaw⟩) ∧
      ((∀ line ∈ lines text, ¬ Malformed line) → Overlapping text →
        ∃ flaw, (flaw = .overlap4 ∨ flaw = .overlap6) ∧ parse path text = .error ⟨0, flaw⟩) :=
  ⟨exists_parse_eq_ok_iff path text,
    fun _ _ hline hmalformed => parse_eq_error_of_malformed path hline hmalformed,
    parse_eq_error_of_overlapping path⟩

/-- The third line ends before it starts, and the fourth has two columns. -/
def invertedText : String := "1.0.0.0,1.0.0.9,A,,,\n# b\n2.0.0.9,2.0.0.0,B,,,\n3.0.0.0,c"

/-- The ranges of the first and the third line share an address, with the second between them. -/
def nestedText : String := "::1,::9,A,,,\n::2,::3,B,,,\n::9,::9,C,,,"

theorem overlapping_nestedText : Overlapping nestedText := by
  refine ⟨0, 2, .v6 (V6.ofGroups [0, 0, 0, 0, 0, 0, 0, 9]), by decide, ?_, ?_⟩
  · exact (coveredAt_iff _ _ _).2 ⟨_, _, rfl, rfl, rfl⟩
  · exact (coveredAt_iff _ _ _).2 ⟨_, _, rfl, rfl, rfl⟩

theorem parse_verdict_samples :
    (∃ flaw, parse "ranges.txt" invertedText = .error ⟨3, flaw⟩) ∧
      ∃ flaw, parse "ranges.txt" nestedText = .error ⟨0, flaw⟩ := by
  constructor
  · obtain ⟨flaw, -, hparse⟩ :=
      (parse_verdict "ranges.txt" invertedText).2.1 2 _ rfl (by decide) (by decide)
    exact ⟨flaw, hparse⟩
  · obtain ⟨flaw, -, hparse⟩ :=
      (parse_verdict "ranges.txt" nestedText).2.2 (by decide) overlapping_nestedText
    exact ⟨flaw, hparse⟩

end RangeTable

end GeoTag
