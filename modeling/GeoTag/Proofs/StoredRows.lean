import GeoTag.Proofs.RangeScan
import Mathlib.Data.List.Forall2

/-!
# What a range table stores

A table keeps the names of its rows in the order of the lines, and the ranges of each family sorted by their
first words, with the places of their rows beside them.  Sorting moves the places along, so a place that is
found among the ranges still leads to the row of its range: each row has its place in one of the two arrays
once (`RangeTable.perm_map_row_spans`), no place leads outside of the rows, and the row at a place is the
one of the line that was read for it (`RangeTable.parse_stores`).
-/

namespace GeoTag

namespace Span

variable {w : Nat}

/-- No span ends before it starts, and the spans stand in the order of their first words, each before the
next one starts. -/
structure Sorted (spans : Array (Span w)) : Prop where
  ordered : ∀ span ∈ spans, span.first.toNat ≤ span.last.toNat
  ascending : spans.toList.Pairwise fun a b => a.first.toNat < b.first.toNat
  apart : spans.toList.Pairwise fun a b => a.last.toNat < b.first.toNat

theorem Ascending.sorted {spans : Array (Span w)} (h : Ascending spans) : Sorted spans where
  ordered span hspan := h.1 span (Array.mem_toList_iff.2 hspan)
  ascending := by
    refine h.2.imp_of_mem fun {a b} ha _ hab => ?_
    have hordered : a.Ordered := h.1 a ha
    exact Nat.lt_of_le_of_lt hordered hab
  apart := h.2

end Span

namespace RangeTable

/-! ## The places of the rows -/

namespace Family

variable {w : Nat} {family : Family w}

theorem map_row_filterMap_span? (numbered : List (Row × Nat)) :
    (numbered.filterMap family.span?).map Span.row =
      (numbered.filter fun p => (family.ends? p.1.range).isSome).map Prod.snd := by
  induction numbered with
  | nil => rfl
  | cons p rest ih =>
    cases hends : family.ends? p.1.range with
    | none => simp [span?, hends, ih]
    | some ends => simp [span?, hends, ih]

theorem sorted_sort_spans {rows : List Row} (ordered : RowsOrdered rows)
    (apart : Span.overlapping (Span.sort (family.spans rows)) = false) :
    Span.Sorted (Span.sort (family.spans rows)).toArray :=
  (Span.ascending_sort (ordered_of_mem_spans ordered) apart).sorted

/-- A span leads to the row that it was made from. -/
theorem exists_row_of_mem_sort {rows : List Row} {span : Span w}
    (h : span ∈ (Span.sort (family.spans rows)).toArray) :
    ∃ row, rows[span.row]? = some row ∧ family.ends? row.range = some (span.first, span.last) := by
  rwa [List.mem_toArray, Span.mem_sort, mem_spans_iff] at h

theorem v4_ends?_eq_some_iff {range : Range} {first last : BitVec 32} :
    v4.ends? range = some (first, last) ↔ range = .v4 first last := by
  cases range <;> simp [v4]

theorem v6_ends?_eq_some_iff {range : Range} {first last : BitVec 128} :
    v6.ends? range = some (first, last) ↔ range = .v6 first last := by
  cases range <;> simp [v6]

theorem isSome_v6_ends? (range : Range) : (v6.ends? range).isSome = !(v4.ends? range).isSome := by
  cases range <;> rfl

end Family

/-- The spans of the two families share out the places of the rows. -/
theorem perm_map_row_spans (rows : List Row) :
    ((spans4 rows).map Span.row ++ (spans6 rows).map Span.row).Perm (List.range rows.length) := by
  have hshared := (List.filter_append_perm
    (fun p : Row × Nat => (Family.v4.ends? p.1.range).isSome) rows.zipIdx).map Prod.snd
  rw [List.zipIdx_map_snd, ← List.range_eq_range', List.map_append] at hshared
  rw [Family.spans4_eq, Family.spans6_eq, Family.spans, Family.spans, Family.map_row_filterMap_span?,
    Family.map_row_filterMap_span?]
  simp only [Family.isSome_v6_ends?]
  exact hshared

/-! ## Lines and rows -/

/-- The line with data at a place has the range, and its names are those that the table keeps there. -/
def StoresLine (table : RangeTable) (text : String) (place : Nat) (range : Range) : Prop :=
  ∃ line row, (dataOf text)[place]? = some line ∧ Row.parse line = .ok row ∧ row.range = range ∧
    table.names[place]? = some row.names

theorem StoresLine.lt_size {table : RangeTable} {text : String} {place : Nat} {range : Range}
    (h : table.StoresLine text place range) : place < table.names.size := by
  obtain ⟨-, row, -, -, -, hnames⟩ := h
  exact (Array.getElem?_eq_some_iff.1 hnames).1

theorem forall₂_parse? {data : List (List Char)} (h : ∀ line ∈ data, ∃ row, Row.parse line = .ok row) :
    List.Forall₂ (fun line row => Row.parse line = .ok row) data (data.filterMap Row.parse?) := by
  induction data with
  | nil => exact .nil
  | cons line rest ih =>
    obtain ⟨⟨row, hrow⟩, hrest⟩ := List.forall_mem_cons.1 h
    rw [List.filterMap_cons, Row.parse?_eq_some_iff.2 hrow]
    exact .cons hrow (ih hrest)

section Parsed

variable {path text : String} {table : RangeTable} (ok : parse path text = .ok table)
include ok

theorem forall₂_dataOf :
    List.Forall₂ (fun line row => Row.parse line = .ok row) (dataOf text) (rowsOf text) := by
  obtain ⟨hwell, -, -⟩ := parse_eq_ok_iff.1 ok
  rw [← filterMap_dataOf]
  exact forall₂_parse? (wellFormed_lines_iff.1 hwell)

theorem names_getElem? {place : Nat} {row : Row} (hrow : (rowsOf text)[place]? = some row) :
    table.names[place]? = some row.names := by
  obtain ⟨-, -, rfl⟩ := parse_eq_ok_iff.1 ok
  simp [tableOf, hrow]

theorem storesLine_of_row {place : Nat} {row : Row} (hrow : (rowsOf text)[place]? = some row) :
    table.StoresLine text place row.range := by
  obtain ⟨hplace, rfl⟩ := List.getElem?_eq_some_iff.1 hrow
  have hlines := forall₂_dataOf ok
  have hplace' : place < (dataOf text).length := hlines.length_eq ▸ hplace
  exact ⟨_, _, List.getElem?_eq_getElem hplace', hlines.get hplace' hplace, rfl, names_getElem? ok hrow⟩

theorem storesLine_of_mem_v4 {span : Span 32} (h : span ∈ table.v4) :
    table.StoresLine text span.row (.v4 span.first span.last) := by
  obtain ⟨-, -, htable⟩ := parse_eq_ok_iff.1 ok
  rw [htable, tableOf, Family.spans4_eq] at h
  obtain ⟨row, hrow, hends⟩ := Family.exists_row_of_mem_sort h
  exact Family.v4_ends?_eq_some_iff.1 hends ▸ storesLine_of_row ok hrow

theorem storesLine_of_mem_v6 {span : Span 128} (h : span ∈ table.v6) :
    table.StoresLine text span.row (.v6 span.first span.last) := by
  obtain ⟨-, -, htable⟩ := parse_eq_ok_iff.1 ok
  rw [htable, tableOf, Family.spans6_eq] at h
  obtain ⟨row, hrow, hends⟩ := Family.exists_row_of_mem_sort h
  exact Family.v6_ends?_eq_some_iff.1 hends ▸ storesLine_of_row ok hrow

theorem sorted_of_parse : Span.Sorted table.v4 ∧ Span.Sorted table.v6 := by
  obtain ⟨-, hapart, rfl⟩ := parse_eq_ok_iff.1 ok
  have hordered := rowsOrdered_rowsOf text
  obtain ⟨h4, h6⟩ := (rowsApart_iff_overlapping hordered).1 hapart
  rw [Family.spans4_eq] at h4
  rw [Family.spans6_eq] at h6
  rw [tableOf, Family.spans4_eq, Family.spans6_eq]
  exact ⟨Family.sorted_sort_spans hordered h4, Family.sorted_sort_spans hordered h6⟩

theorem perm_places :
    (table.v4.toList.map Span.row ++ table.v6.toList.map Span.row).Perm
      (List.range table.names.size) := by
  obtain ⟨-, -, rfl⟩ := parse_eq_ok_iff.1 ok
  have hsize : (tableOf (nameOf path) (rowsOf text)).names.size = (rowsOf text).length := by
    simp [tableOf]
  rw [hsize]
  exact (((Span.perm_sort _).map Span.row).append ((Span.perm_sort _).map Span.row)).trans
    (perm_map_row_spans (rowsOf text))

theorem size_eq_length_dataOf : table.size = (dataOf text).length := by
  obtain ⟨-, -, rfl⟩ := parse_eq_ok_iff.1 ok
  rw [(forall₂_dataOf ok).length_eq]
  simp [size, tableOf]

theorem find?_of_row? {address : Address} {place : Nat} (h : table.row? address = some place) :
    ∃ names, table.names[place]? = some names ∧ table.find? address = some names.location := by
  obtain ⟨-, hapart, htable⟩ := parse_eq_ok_iff.1 ok
  have hplace := h
  rw [htable, row?_tableOf_eq_some_iff (rowsOrdered_rowsOf text) hapart] at hplace
  obtain ⟨row, hrow, -⟩ := hplace
  refine ⟨row.names, names_getElem? ok hrow, ?_⟩
  rw [find?, h, Option.bind_some, names_getElem? ok hrow, Option.map_some]

end Parsed

/-- A table that was read keeps the ranges of each family in order and apart, each with the place of the
line that it stands in; the places of the two families are those of all rows, each of them once; and the
names at a place that the search finds are there to be answered. -/
theorem parse_stores {path text : String} {table : RangeTable} (ok : parse path text = .ok table) :
    (Span.Sorted table.v4 ∧ Span.Sorted table.v6) ∧
    (∀ span ∈ table.v4, span.row < table.names.size ∧
      table.StoresLine text span.row (.v4 span.first span.last)) ∧
    (∀ span ∈ table.v6, span.row < table.names.size ∧
      table.StoresLine text span.row (.v6 span.first span.last)) ∧
    (table.v4.toList.map Span.row ++ table.v6.toList.map Span.row).Perm
      (List.range table.names.size) ∧
    table.size = (dataOf text).length ∧
    ∀ address place, table.row? address = some place →
      ∃ names, table.names[place]? = some names ∧ table.find? address = some names.location := by
  refine ⟨sorted_of_parse ok, fun span hspan => ?_, fun span hspan => ?_, perm_places ok,
    size_eq_length_dataOf ok, fun address place => find?_of_row? ok⟩
  · have hline := storesLine_of_mem_v4 ok hspan
    exact ⟨hline.lt_size, hline⟩
  · have hline := storesLine_of_mem_v6 ok hspan
    exact ⟨hline.lt_size, hline⟩

/-- Two lines with ranges of IPv4 addresses, the greater first, and a line of the other family between
them. -/
theorem parse_stores_sample :
    ∃ table, parse "ranges.txt" sampleText = .ok table ∧ table.size = 3 ∧ Span.Sorted table.v4 ∧
      (table.v4.toList.map Span.row ++ table.v6.toList.map Span.row).Perm [0, 1, 2] := by
  obtain ⟨⟨hsorted, -⟩, -, -, hperm, hsize, -⟩ := parse_stores parse_sampleText
  have hlines : (dataOf sampleText).length = 3 := by decide
  rw [hlines] at hsize
  refine ⟨_, parse_sampleText, hsize, hsorted, ?_⟩
  have hrange : List.range 3 = [0, 1, 2] := by decide
  rw [← hrange, ← hsize]
  exact hperm

end RangeTable

end GeoTag
