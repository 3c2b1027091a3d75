import GeoTag.Proofs.RangeRows

/-!
# The text of a range table

`lines` are the lines of a text, `dataOf` those of them that hold data, trimmed, and `lineRow?` is
the row of a line.  A text is a table exactly when every line with data has a row and no two rows
share an address (`parse_eq_ok_iff`); both conditions, and the answers of the table, are the same
for any order of the lines with data (`exists_parse_of_perm`).
-/

namespace GeoTag

namespace RangeTable

/-- The lines of a text. -/
def lines (text : String) : List (List Char) := Text.splitOn '\n' text.toList

/-- The trimmed lines of a text that hold data. -/
def dataOf (text : String) : List (List Char) := ((lines text).map Text.trim).filter isData

/-- The row of a line, if it has one. -/
def Row.parse? (line : List Char) : Option Row := (Row.parse line).toOption

/-- The row of a line that holds data. -/
def lineRow? (line : List Char) : Option Row :=
  if isData (Text.trim line) then Row.parse? (Text.trim line) else none

/-- The rows of a text, in the order of its lines. -/
def rowsOf (text : String) : List Row := (lines text).filterMap lineRow?

/-- The line holds no data, or it is a row. -/
def WellFormed (line : List Char) : Prop :=
  isData (Text.trim line) = true → ∃ row, Row.parse (Text.trim line) = .ok row

theorem Row.parse?_eq_some_iff {line : List Char} {row : Row} :
    Row.parse? line = some row ↔ Row.parse line = .ok row := by
  unfold Row.parse?
  cases Row.parse line with
  | error flaw => simp [Except.toOption]
  | ok found => simp [Except.toOption]

theorem Row.parse_eq_ok_iff {line : List Char} {row : Row} :
    Row.parse line = .ok row ↔
      ∃ c₀ c₁ c₂ c₃ c₄ c₅ first last,
        (Text.splitOn ',' line).map Text.trim = [c₀, c₁, c₂, c₃, c₄, c₅] ∧
          Address.ofLiteral? c₀ = some first ∧ Address.ofLiteral? c₁ = some last ∧
            Range.ofEnds? first last = some row.range ∧
              row.names = ⟨column c₂, column c₃, column c₄, column c₅⟩ := by
  constructor
  · intro h
    unfold Row.parse at h
    split at h
    next c₀ c₁ c₂ c₃ c₄ c₅ hcolumns =>
      split at h
      next => cases h
      next first hfirst =>
        split at h
        next => cases h
        next last hlast =>
          split at h
          next => cases h
          next range hrange =>
            cases h
            exact ⟨c₀, c₁, c₂, c₃, c₄, c₅, first, last, hcolumns, hfirst, hlast, hrange, rfl⟩
    next => cases h
  · rintro ⟨c₀, c₁, c₂, c₃, c₄, c₅, first, last, hcolumns, hfirst, hlast, hrange, hnames⟩
    simp only [Row.parse, hcolumns, hfirst, hlast, hrange, ← hnames]

theorem lineRow?_eq_some_iff {line : List Char} {row : Row} :
    lineRow? line = some row ↔
      isData (Text.trim line) = true ∧ Row.parse (Text.trim line) = .ok row := by
  unfold lineRow?
  split
  next hdata => rw [Row.parse?_eq_some_iff, hdata, eq_self_iff_true, true_and]
  next hdata => simp [hdata]

theorem map_snd_dataLines (text : String) : (dataLines text).map Prod.snd = dataOf text := by
  simp only [dataLines]
  have hfilter (l : List (Nat × List Char)) :
      (l.filter fun l => isData l.2).map Prod.snd = (l.map Prod.snd).filter isData := by
    rw [List.filter_map]
    rfl
  rw [hfilter, List.map_snd_zip (Nat.le_of_eq List.length_range'.symm), dataOf, lines]

theorem mem_dataOf_iff {text : String} {line : List Char} :
    line ∈ dataOf text ↔ isData line = true ∧ ∃ raw ∈ lines text, Text.trim raw = line := by
  rw [dataOf, List.mem_filter, List.mem_map, and_comm]

theorem filterMap_dataOf (text : String) : (dataOf text).filterMap Row.parse? = rowsOf text := by
  rw [dataOf, List.filterMap_filter, List.filterMap_map]
  rfl

theorem rows_eq_ok_iff {numbered : List (Nat × List Char)} {found : List Row} :
    rows numbered = .ok found ↔
      (∀ line ∈ numbered.map Prod.snd, ∃ row, Row.parse line = .ok row) ∧
        (numbered.map Prod.snd).filterMap Row.parse? = found := by
  induction numbered generalizing found with
  | nil => simp [rows]
  | cons l rest ih =>
    obtain ⟨number, line⟩ := l
    rw [rows, List.map_cons, List.forall_mem_cons, List.filterMap_cons]
    cases hparse : Row.parse line with
    | error flaw => simp
    | ok row =>
      rw [Row.parse?_eq_some_iff.2 hparse]
      cases hrest : rows rest with
      | error fault =>
        have hno : ¬ ∀ line ∈ rest.map Prod.snd, ∃ row, Row.parse line = .ok row := by
          intro hall
          have := ih.2 ⟨hall, rfl⟩
          rw [hrest] at this
          cases this
        simp only [Except.map, reduceCtorEq, hno, and_false, false_and]
      | ok more =>
        obtain ⟨hall, hmore⟩ := ih.1 hrest
        simp only [Except.map, Except.ok.injEq, exists_eq', true_and, hmore]
        exact ⟨fun h => ⟨hall, h⟩, fun h => h.2⟩

theorem rowsOrdered_rowsOf (text : String) : RowsOrdered (rowsOf text) := by
  intro row hrow
  obtain ⟨line, -, hline⟩ := List.mem_filterMap.1 hrow
  obtain ⟨-, hparse⟩ := lineRow?_eq_some_iff.1 hline
  obtain ⟨_, _, _, _, _, _, _, _, -, -, -, hrange, -⟩ := Row.parse_eq_ok_iff.1 hparse
  exact Range.ordered_of_ofEnds? hrange

theorem wellFormed_lines_iff {text : String} :
    (∀ line ∈ lines text, WellFormed line) ↔
      ∀ line ∈ dataOf text, ∃ row, Row.parse line = .ok row := by
  simp only [mem_dataOf_iff]
  constructor
  · rintro h line ⟨hdata, raw, hraw, rfl⟩
    exact h raw hraw hdata
  · intro h line hline hdata
    exact h (Text.trim line) ⟨hdata, line, hline, rfl⟩

/-- A text is a table when its lines are well formed and its rows apart. -/
theorem parse_eq_ok_iff {path text : String} {table : RangeTable} :
    parse path text = .ok table ↔
      (∀ line ∈ lines text, WellFormed line) ∧ RowsApart (rowsOf text) ∧
        table = tableOf (nameOf path) (rowsOf text) := by
  rw [wellFormed_lines_iff, ← ofRows_eq_ok_iff (rowsOrdered_rowsOf text)]
  unfold parse
  cases hrows : rows (dataLines text) with
  | error fault =>
    have hno : ¬ ∀ line ∈ dataOf text, ∃ row, Row.parse line = .ok row := by
      rw [← map_snd_dataLines]
      intro hall
      have := rows_eq_ok_iff.2 ⟨hall, rfl⟩
      rw [hrows] at this
      cases this
    simp only [reduceCtorEq, hno, false_and]
  | ok found =>
    obtain ⟨hall, hfound⟩ := rows_eq_ok_iff.1 hrows
    rw [map_snd_dataLines] at hall hfound
    rw [filterMap_dataOf] at hfound
    subst hfound
    dsimp only
    cases ofRows (nameOf path) (rowsOf text) with
    | error flaw => simp
    | ok found =>
      dsimp only
      rw [Except.ok.injEq, Except.ok.injEq]
      exact ⟨fun h => ⟨hall, h⟩, fun h => h.2⟩

/-! ### The order of the lines -/

theorem exists_parse_of_perm {path text : String} {table : RangeTable}
    (ok : parse path text = .ok table) (path' : String) {text' : String}
    (perm : (dataOf text').Perm (dataOf text)) :
    ∃ table', parse path' text' = .ok table' ∧
      ∀ address, table'.find? address = table.find? address := by
  obtain ⟨hwell, hapart, rfl⟩ := parse_eq_ok_iff.1 ok
  have hrows : (rowsOf text').Perm (rowsOf text) := by
    rw [← filterMap_dataOf, ← filterMap_dataOf]
    exact perm.filterMap Row.parse?
  have hwell' : ∀ line ∈ lines text', WellFormed line := by
    rw [wellFormed_lines_iff] at hwell ⊢
    intro line hline
    exact hwell line (perm.mem_iff.1 hline)
  have hapart' : RowsApart (rowsOf text') :=
    (hrows.pairwise_iff fun h => h.symm).2 hapart
  refine ⟨_, parse_eq_ok_iff.2 ⟨hwell', hapart', rfl⟩, ?_⟩
  intro address
  apply Option.ext
  intro location
  rw [find?_tableOf_eq_some_iff (rowsOrdered_rowsOf text') hapart',
    find?_tableOf_eq_some_iff (rowsOrdered_rowsOf text) hapart]
  simp only [hrows.mem_iff]

end RangeTable

end GeoTag
