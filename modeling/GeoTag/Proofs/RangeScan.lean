import GeoTag.Proofs.RangeText

/-!
# Range tables answer as a scan of the lines does

`entry?` reads one line on its own, without sorting and without places: two addresses and the
location between them.  `scan` takes the first line whose entry holds the address.  A table that
was read from a text answers as the scan does; at most one line holds an address, and the order of
the lines makes no difference (`lookup_eq_scan`).
-/

namespace GeoTag

namespace RangeTable

/-- What one line says: the addresses from `first` to `last` are at a location. -/
structure Entry where
  first : Address
  last : Address
  location : Location

/-- The address is of the family of the entry, and lies between its ends or is one of them. -/
def Entry.holds (entry : Entry) (address : Address) : Bool :=
  match entry.first, entry.last, address with
  | .v4 first, .v4 last, .v4 bits => first.toNat ≤ bits.toNat && bits.toNat ≤ last.toNat
  | .v6 first, .v6 last, .v6 bits => first.toNat ≤ bits.toNat && bits.toNat ≤ last.toNat
  | _, _, _ => false

/-- The name in a column. -/
def nameIn (cs : List Char) : String := if cs = [] then "N/A" else String.ofList cs

/-- The entry of a line, unless the line is blank, a comment or not of six columns. -/
def entry? (line : List Char) : Option Entry :=
  match Text.trim line with
  | [] => none
  | '#' :: _ => none
  | cs =>
    match (Text.splitOn ',' cs).map Text.trim with
    | [first, last, code, country, region, city] =>
      match Address.ofLiteral? first, Address.ofLiteral? last with
      | some first, some last =>
        some ⟨first, last, ⟨0, 0, nameIn code, nameIn country, nameIn city, nameIn region, "N/A"⟩⟩
      | _, _ => none
    | _ => none

/-- The location of the first line that holds an address. -/
def scan (text : String) (address : Address) : Option Location :=
  (((lines text).filterMap entry?).find? fun entry => entry.holds address).map Entry.location

/-- The line at a place of the text holds the address and puts it at a location. -/
def LineAnswers (text : String) (address : Address) (place : Nat) (location : Location) : Prop :=
  ∃ line entry, (lines text)[place]? = some line ∧ entry? line = some entry ∧
    entry.holds address = true ∧ entry.location = location

/-! ### Entries and rows -/

/-- A row as an entry. -/
def Row.entry (row : Row) : Entry :=
  match row.range with
  | .v4 first last => ⟨.v4 first, .v4 last, row.names.location⟩
  | .v6 first last => ⟨.v6 first, .v6 last, row.names.location⟩

theorem Row.holds_entry (row : Row) (address : Address) :
    row.entry.holds address = row.range.contains address := by
  unfold Row.entry
  cases row.range <;> cases address <;> rfl

theorem Row.location_entry (row : Row) : row.entry.location = row.names.location := by
  unfold Row.entry
  cases row.range <;> rfl

theorem column_eq_nameIn (cs : List Char) : column cs = nameIn cs := by
  cases cs with
  | nil => rfl
  | cons c cs => simp [column, nameIn, orNotAvailable]

theorem entry?_eq_none_of_not_isData {line : List Char} (h : isData (Text.trim line) = false) :
    entry? line = none := by
  unfold entry?
  split
  · rfl
  · rfl
  next cs hnil hcomment =>
    cases hcs : Text.trim line with
    | nil => exact absurd hcs hnil
    | cons c rest =>
      rw [hcs] at h
      simp [isData] at h
      exact absurd (by rw [hcs, h]) (hcomment rest)

theorem Row.entry_eq {row : Row} {first last : Address}
    (hrange : Range.ofEnds? first last = some row.range) :
    row.entry = ⟨first, last, row.names.location⟩ := by
  unfold Row.entry
  unfold Range.ofEnds? at hrange
  split at hrange
  · split at hrange
    · rw [← Option.some.inj hrange]
    · cases hrange
  · split at hrange
    · rw [← Option.some.inj hrange]
    · cases hrange
  · cases hrange

theorem entry?_of_parse {line : List Char} {row : Row} (hdata : isData (Text.trim line) = true)
    (hparse : Row.parse (Text.trim line) = .ok row) : entry? line = some row.entry := by
  obtain ⟨c₀, c₁, c₂, c₃, c₄, c₅, first, last, hcolumns, hfirst, hlast, hrange, hnames⟩ :=
    Row.parse_eq_ok_iff.1 hparse
  unfold entry?
  split
  next hnil =>
    rw [hnil] at hdata
    cases hdata
  next rest hcomment =>
    rw [hcomment] at hdata
    simp [isData] at hdata
  next cs hnil hcomment =>
    simp only [hcolumns, hfirst, hlast]
    rw [Row.entry_eq hrange, hnames]
    simp only [Names.location, column_eq_nameIn]
    rfl

/-- On well-formed lines, entries are rows. -/
theorem WellFormed.entry?_eq {line : List Char} (h : WellFormed line) :
    entry? line = (lineRow? line).map Row.entry := by
  cases hdata : isData (Text.trim line) with
  | false =>
    rw [entry?_eq_none_of_not_isData hdata, lineRow?, hdata]
    rfl
  | true =>
    obtain ⟨row, hparse⟩ := h hdata
    rw [entry?_of_parse hdata hparse, lineRow?_eq_some_iff.2 ⟨hdata, hparse⟩]
    rfl

/-! ### Lookups -/

theorem lookup_backend (table : RangeTable) (address : Address) :
    table.backend.lookup address = .ok (table.find? address) := rfl

section Lookup

variable {path text : String} {table : RangeTable} (ok : parse path text = .ok table)
include ok

theorem lineAnswers_iff (address : Address) (place : Nat) (location : Location) :
    LineAnswers text address place location ↔
      ∃ line row, (lines text)[place]? = some line ∧ lineRow? line = some row ∧
        row.range.contains address = true ∧ row.names.location = location := by
  obtain ⟨hwell, -, -⟩ := parse_eq_ok_iff.1 ok
  constructor
  · rintro ⟨line, entry, hline, hentry, hholds, hlocation⟩
    rw [(hwell line (List.mem_of_getElem? hline)).entry?_eq, Option.map_eq_some_iff] at hentry
    obtain ⟨row, hrow, rfl⟩ := hentry
    rw [row.holds_entry] at hholds
    rw [row.location_entry] at hlocation
    exact ⟨line, row, hline, hrow, hholds, hlocation⟩
  · rintro ⟨line, row, hline, hrow, hholds, hlocation⟩
    refine ⟨line, row.entry, hline, ?_, ?_, ?_⟩
    · rw [(hwell line (List.mem_of_getElem? hline)).entry?_eq, hrow]
      rfl
    · rw [row.holds_entry]
      exact hholds
    · rw [row.location_entry]
      exact hlocation

theorem find?_eq_some_iff_lineAnswers (address : Address) (location : Location) :
    table.find? address = some location ↔
      ∃ place, LineAnswers text address place location := by
  obtain ⟨-, hapart, htable⟩ := parse_eq_ok_iff.1 ok
  rw [htable, find?_tableOf_eq_some_iff (rowsOrdered_rowsOf text) hapart]
  simp only [lineAnswers_iff ok, rowsOf, List.mem_filterMap]
  constructor
  · rintro ⟨row, ⟨line, hline, hrow⟩, hholds, hlocation⟩
    obtain ⟨place, hplace⟩ := List.mem_iff_getElem?.1 hline
    exact ⟨place, line, row, hplace, hrow, hholds, hlocation⟩
  · rintro ⟨place, line, row, hplace, hrow, hholds, hlocation⟩
    exact ⟨row, ⟨line, List.mem_of_getElem? hplace, hrow⟩, hholds, hlocation⟩

theorem place_le_of_lineAnswers {address : Address} {i j : Nat} {a b : Location}
    (hi : LineAnswers text address i a) (hj : LineAnswers text address j b) : j ≤ i := by
  obtain ⟨-, hapart, -⟩ := parse_eq_ok_iff.1 ok
  obtain ⟨line, row, hline, hrow, hholds, -⟩ := (lineAnswers_iff ok _ _ _).1 hi
  obtain ⟨line', row', hline', hrow', hholds', -⟩ := (lineAnswers_iff ok _ _ _).1 hj
  apply Nat.le_of_not_lt
  intro hlt
  -- The rows are apart in the order of the lines, and both hold the address.
  rw [RowsApart, rowsOf, List.pairwise_filterMap, List.pairwise_iff_getElem] at hapart
  obtain ⟨hilen, rfl⟩ := List.getElem?_eq_some_iff.1 hline
  obtain ⟨hjlen, rfl⟩ := List.getElem?_eq_some_iff.1 hline'
  exact hapart i j hilen hjlen hlt row hrow row' hrow' address ⟨hholds, hholds'⟩

theorem find?_eq_scan (address : Address) : table.find? address = scan text address := by
  unfold scan
  cases hscan : ((lines text).filterMap entry?).find? fun entry => entry.holds address with
  | some entry =>
    obtain ⟨line, hline, hentry⟩ := List.mem_filterMap.1 (List.mem_of_find?_eq_some hscan)
    obtain ⟨place, hplace⟩ := List.mem_iff_getElem?.1 hline
    have hholds := List.find?_some hscan
    exact (find?_eq_some_iff_lineAnswers ok address _).2
      ⟨place, line, entry, hplace, hentry, hholds, rfl⟩
  | none =>
    rw [List.find?_eq_none] at hscan
    rw [Option.map_none, Option.eq_none_iff_forall_ne_some]
    intro location hfound
    obtain ⟨place, line, entry, hplace, hentry, hholds, -⟩ :=
      (find?_eq_some_iff_lineAnswers ok address location).1 hfound
    exact hscan entry (List.mem_filterMap.2 ⟨line, List.mem_of_getElem? hplace, hentry⟩) hholds

end Lookup

/-- A table answers an address as a scan of its text does: with the location of the one line that
holds the address, if there is one.  The same lines with data, in any order and between any blank
lines and comments, give the same answers. -/
theorem lookup_eq_scan {path text : String} {table : RangeTable}
    (ok : parse path text = .ok table) :
    (∀ address, table.backend.lookup address = .ok (scan text address)) ∧
      (∀ address location, table.backend.lookup address = .ok (some location) ↔
        ∃ place, LineAnswers text address place location) ∧
      (∀ address, table.backend.lookup address = .ok none ↔
        ∀ place location, ¬ LineAnswers text address place location) ∧
      (∀ address i j a b, LineAnswers text address i a → LineAnswers text address j b → i = j) ∧
      ∀ path' text', (dataOf text').Perm (dataOf text) →
        ∃ table', parse path' text' = .ok table' ∧
          ∀ address, table'.backend.lookup address = table.backend.lookup address := by
  simp only [lookup_backend, Except.ok.injEq]
  refine ⟨find?_eq_scan ok, find?_eq_some_iff_lineAnswers ok, ?_, ?_, ?_⟩
  · intro address
    rw [Option.eq_none_iff_forall_ne_some]
    constructor
    · intro h place location hline
      exact h location ((find?_eq_some_iff_lineAnswers ok address location).2 ⟨place, hline⟩)
    · intro h location hfound
      obtain ⟨place, hline⟩ := (find?_eq_some_iff_lineAnswers ok address location).1 hfound
      exact h place location hline
  · intro address i j a b hi hj
    exact Nat.le_antisymm (place_le_of_lineAnswers ok hj hi) (place_le_of_lineAnswers ok hi hj)
  · intro path' text' perm
    exact exists_parse_of_perm ok path' perm

/-- A text with a comment, a blank line and ranges of both families. -/
def sampleText : String := "#\n5.5.0.0,5.5.255.255 ,DE,,,\n\n::1,::9,,,,\n1.0.0.0,1.0.3.255,CN,,,X"

set_option maxRecDepth 4000 in
theorem parse_sampleText :
    parse "ranges.txt" sampleText = .ok (tableOf (nameOf "ranges.txt") (rowsOf sampleText)) := by
  rw [parse_eq_ok_iff, wellFormed_lines_iff, ← map_snd_dataLines,
    rowsApart_iff_spans (rowsOrdered_rowsOf sampleText)]
  refine ⟨?_, ⟨by decide, by decide⟩, rfl⟩
  have hrows : rows (dataLines sampleText) = .ok (rowsOf sampleText) := by rfl
  exact (rows_eq_ok_iff.1 hrows).1

set_option maxRecDepth 4000 in
theorem lookup_eq_scan_sample :
    ∃ table, parse "ranges.txt" sampleText = .ok table ∧
      table.backend.lookup (.v4 (V4.ofOctets [5, 5, 255, 255])) =
        .ok (some ⟨0, 0, "DE", "N/A", "N/A", "N/A", "N/A"⟩) ∧
      table.backend.lookup (.v6 (V6.ofGroups [0, 0, 0, 0, 0, 0, 0, 9])) =
        .ok (some ⟨0, 0, "N/A", "N/A", "N/A", "N/A", "N/A"⟩) ∧
      table.backend.lookup (.v4 (V4.ofOctets [5, 6, 0, 0])) = .ok none := by
  refine ⟨_, parse_sampleText, ?_, ?_, ?_⟩
  · rw [(lookup_eq_scan parse_sampleText).1]
    rfl
  · rw [(lookup_eq_scan parse_sampleText).1]
    rfl
  · rw [(lookup_eq_scan parse_sampleText).1]
    rfl

end RangeTable

end GeoTag
