import GeoTag.Proofs.SpanSearch

/-!
# The rows of a range table

A `Family` knows the ends of the ranges of its addresses, and `Family.spans` collects the spans of
rows for it.  Two ranges are `Apart` when they share no address.  Ordered rows make a table exactly
when they are apart, any two of them (`ofRows_eq_ok_iff`), and the table answers with the names of
the row whose range holds the address (`find?_tableOf_eq_some_iff`).
-/

namespace GeoTag

namespace RangeTable

namespace Range

/-- The range does not end before it starts. -/
def Ordered : Range → Prop
  | .v4 first last => first.toNat ≤ last.toNat
  | .v6 first last => first.toNat ≤ last.toNat

/-- No address lies in both ranges. -/
def Apart (a b : Range) : Prop :=
  ∀ address, ¬ (a.contains address = true ∧ b.contains address = true)

theorem Apart.symm {a b : Range} (h : a.Apart b) : b.Apart a :=
  fun address hin => h address hin.symm

theorem ordered_of_ofEnds? {first last : Address} {range : Range}
    (h : ofEnds? first last = some range) : range.Ordered := by
  unfold ofEnds? at h
  split at h
  · split at h
    · cases h
      assumption
    · cases h
  · split at h
    · cases h
      assumption
    · cases h
  · cases h

end Range

/-- A family of addresses of `w` bits, with the ends of its ranges. -/
structure Family (w : Nat) where
  address : BitVec w → Address
  ends? : Range → Option (BitVec w × BitVec w)
  le_of_ends? : ∀ {range ends}, range.Ordered → ends? range = some ends →
    ends.1.toNat ≤ ends.2.toNat
  contains_iff : ∀ range bits, range.contains (address bits) = true ↔
    ∃ ends, ends? range = some ends ∧ ends.1.toNat ≤ bits.toNat ∧ bits.toNat ≤ ends.2.toNat

namespace Family

/-- The family of IPv4 addresses. -/
def v4 : Family 32 where
  address := .v4
  ends?
    | .v4 first last => some (first, last)
    | .v6 .. => none
  le_of_ends? {range ends} ordered h := by
    cases range with
    | v4 first last =>
      cases h
      exact ordered
    | v6 first last => cases h
  contains_iff range bits := by
    cases range <;> simp [Range.contains]

/-- The family of IPv6 addresses. -/
def v6 : Family 128 where
  address := .v6
  ends?
    | .v4 .. => none
    | .v6 first last => some (first, last)
  le_of_ends? {range ends} ordered h := by
    cases range with
    | v4 first last => cases h
    | v6 first last =>
      cases h
      exact ordered
  contains_iff range bits := by
    cases range <;> simp [Range.contains]

variable {w : Nat} (family : Family w)

/-- The span of a row of the family, with the place of the row. -/
def span? (p : Row × Nat) : Option (Span w) :=
  (family.ends? p.1.range).map fun ends => ⟨ends.1, ends.2, p.2⟩

/-- The spans of the rows of the family, each with the place of its row. -/
def spans (rows : List Row) : List (Span w) := rows.zipIdx.filterMap family.span?

theorem spans4_eq (rows : List Row) : spans4 rows = v4.spans rows := by
  unfold spans4 spans
  congr 1
  funext p
  unfold span?
  cases h : p.1.range <;> simp [v4, h]

theorem spans6_eq (rows : List Row) : spans6 rows = v6.spans rows := by
  unfold spans6 spans
  congr 1
  funext p
  unfold span?
  cases h : p.1.range <;> simp [v6, h]

variable {family} {rows : List Row}

theorem mem_spans_iff {span : Span w} :
    span ∈ family.spans rows ↔
      ∃ row, rows[span.row]? = some row ∧ family.ends? row.range = some (span.first, span.last) := by
  unfold spans
  rw [List.mem_filterMap]
  constructor
  · rintro ⟨⟨row, i⟩, hmem, hspan⟩
    unfold span? at hspan
    rw [Option.map_eq_some_iff] at hspan
    obtain ⟨ends, hends, rfl⟩ := hspan
    exact ⟨row, List.mk_mem_zipIdx_iff_getElem?.1 hmem, hends⟩
  · rintro ⟨row, hrow, hends⟩
    refine ⟨(row, span.row), List.mk_mem_zipIdx_iff_getElem?.2 hrow, ?_⟩
    unfold span?
    rw [Option.map_eq_some_iff]
    exact ⟨(span.first, span.last), hends, rfl⟩

end Family

/-- The ranges of the rows are in order. -/
def RowsOrdered (rows : List Row) : Prop := ∀ row ∈ rows, row.range.Ordered

/-- No address lies in the ranges of two rows. -/
def RowsApart (rows : List Row) : Prop := rows.Pairwise fun a b => a.range.Apart b.range

variable {rows : List Row}

namespace Family

variable {w : Nat} {family : Family w}

theorem ordered_of_mem_spans (ordered : RowsOrdered rows) :
    ∀ span ∈ family.spans rows, span.Ordered := by
  intro span hspan
  obtain ⟨row, hrow, hends⟩ := mem_spans_iff.1 hspan
  exact family.le_of_ends? (ordered row (List.mem_of_getElem? hrow)) hends

theorem apart_span?_iff {p q : Row × Nat} (hp : p.1.range.Ordered) (hq : q.1.range.Ordered) :
    (∀ a, family.span? p = some a → ∀ b, family.span? q = some b → a.Apart b) ↔
      ∀ bits, ¬ (p.1.range.contains (family.address bits) = true ∧
        q.1.range.contains (family.address bits) = true) := by
  simp only [family.contains_iff]
  cases hpe : family.ends? p.1.range with
  | none => simp [span?, hpe]
  | some e =>
    cases hqe : family.ends? q.1.range with
    | none => simp [span?, hqe]
    | some e' =>
      have he : Span.Ordered (⟨e.1, e.2, p.2⟩ : Span w) := family.le_of_ends? hp hpe
      have he' : Span.Ordered (⟨e'.1, e'.2, q.2⟩ : Span w) := family.le_of_ends? hq hqe
      have hshared := Span.apart_iff_no_shared he he'
      simp only [Span.contains_iff] at hshared
      simpa [span?, hpe, hqe] using hshared

/-- The spans of a family are apart when no two rows share an address of it. -/
theorem pairwise_apart_spans (ordered : RowsOrdered rows) :
    (family.spans rows).Pairwise Span.Apart ↔
      rows.Pairwise fun a b => ∀ bits, ¬ (a.range.contains (family.address bits) = true ∧
        b.range.contains (family.address bits) = true) := by
  unfold spans
  rw [List.pairwise_filterMap]
  -- The right side does not read the places, so it may as well be said of the numbered rows.
  conv =>
    rhs
    rw [← List.zipIdx_map_fst 0 rows, List.pairwise_map]
  have hordered : ∀ p ∈ rows.zipIdx, p.1.range.Ordered := by
    intro p hp
    exact ordered p.1 (List.mem_of_getElem? (List.mk_mem_zipIdx_iff_getElem?.1 hp))
  constructor
  · intro h
    exact h.imp_of_mem fun hp hq => (apart_span?_iff (hordered _ hp) (hordered _ hq)).1
  · intro h
    exact h.imp_of_mem fun hp hq => (apart_span?_iff (hordered _ hp) (hordered _ hq)).2

/-- The sorted spans find the places of the rows that hold an address. -/
theorem search?_spans_eq_some_iff (ordered : RowsOrdered rows)
    (apart : Span.overlapping (Span.sort (family.spans rows)) = false) (bits : BitVec w) (i : Nat) :
    (Span.search? (Span.sort (family.spans rows)).toArray bits).map Span.row = some i ↔
      ∃ row, rows[i]? = some row ∧ row.range.contains (family.address bits) = true := by
  have hasc := Span.ascending_sort (ordered_of_mem_spans ordered) apart
  rw [Option.map_eq_some_iff]
  constructor
  · rintro ⟨span, hspan, rfl⟩
    rw [Span.search?_eq_some_iff hasc, List.mem_toArray, Span.mem_sort, mem_spans_iff,
      Span.contains_iff] at hspan
    obtain ⟨⟨row, hrow, hends⟩, hin⟩ := hspan
    exact ⟨row, hrow, (family.contains_iff _ bits).2 ⟨_, hends, hin⟩⟩
  · rintro ⟨row, hrow, hin⟩
    obtain ⟨ends, hends, hin⟩ := (family.contains_iff _ bits).1 hin
    refine ⟨⟨ends.1, ends.2, i⟩, ?_, rfl⟩
    rw [Span.search?_eq_some_iff hasc, List.mem_toArray, Span.mem_sort, mem_spans_iff,
      Span.contains_iff]
    exact ⟨⟨row, hrow, hends⟩, hin⟩

end Family

/-! ### The table of rows -/

theorem Range.apart_iff (a b : Range) :
    a.Apart b ↔
      (∀ bits, ¬ (a.contains (.v4 bits) = true ∧ b.contains (.v4 bits) = true)) ∧
        ∀ bits, ¬ (a.contains (.v6 bits) = true ∧ b.contains (.v6 bits) = true) := by
  constructor
  · intro h
    exact ⟨fun bits => h (.v4 bits), fun bits => h (.v6 bits)⟩
  · rintro ⟨h4, h6⟩ address
    cases address with
    | v4 bits => exact h4 bits
    | v6 bits => exact h6 bits

theorem rowsApart_iff_spans (ordered : RowsOrdered rows) :
    RowsApart rows ↔
      (spans4 rows).Pairwise Span.Apart ∧ (spans6 rows).Pairwise Span.Apart := by
  rw [Family.spans4_eq, Family.spans6_eq, Family.pairwise_apart_spans ordered,
    Family.pairwise_apart_spans ordered, ← List.pairwise_and_iff]
  unfold RowsApart
  simp only [Range.apart_iff]
  rfl

theorem rowsApart_iff_overlapping (ordered : RowsOrdered rows) :
    RowsApart rows ↔
      Span.overlapping (Span.sort (spans4 rows)) = false ∧
        Span.overlapping (Span.sort (spans6 rows)) = false := by
  rw [rowsApart_iff_spans ordered, Family.spans4_eq, Family.spans6_eq,
    Span.overlapping_sort_eq_false_iff (Family.ordered_of_mem_spans ordered),
    Span.overlapping_sort_eq_false_iff (Family.ordered_of_mem_spans ordered)]

/-- The table of rows, whether or not they are apart. -/
def tableOf (name : String) (rows : List Row) : RangeTable :=
  ⟨name, (Span.sort (spans4 rows)).toArray, (Span.sort (spans6 rows)).toArray,
    (rows.map Row.names).toArray⟩

theorem ofRows_eq_ok_iff (ordered : RowsOrdered rows) {name : String} {table : RangeTable} :
    ofRows name rows = .ok table ↔ RowsApart rows ∧ table = tableOf name rows := by
  rw [rowsApart_iff_overlapping ordered]
  simp only [ofRows]
  split
  next h4 => simp [h4]
  next h4 =>
    split
    next h6 => simp [h6]
    next h6 =>
      rw [Bool.not_eq_true] at h4 h6
      rw [Except.ok.injEq, tableOf]
      exact ⟨fun h => ⟨⟨h4, h6⟩, h.symm⟩, fun h => h.2.symm⟩

theorem row?_tableOf_eq_some_iff (ordered : RowsOrdered rows) (apart : RowsApart rows)
    (name : String) (address : Address) (i : Nat) :
    (tableOf name rows).row? address = some i ↔
      ∃ row, rows[i]? = some row ∧ row.range.contains address = true := by
  obtain ⟨h4, h6⟩ := (rowsApart_iff_overlapping ordered).1 apart
  rw [Family.spans4_eq] at h4
  rw [Family.spans6_eq] at h6
  unfold tableOf
  rw [Family.spans4_eq, Family.spans6_eq]
  cases address with
  | v4 bits => exact Family.search?_spans_eq_some_iff ordered h4 bits i
  | v6 bits => exact Family.search?_spans_eq_some_iff ordered h6 bits i

/-- The table answers with the names of the row that holds the address. -/
theorem find?_tableOf_eq_some_iff (ordered : RowsOrdered rows) (apart : RowsApart rows)
    (name : String) (address : Address) (location : Location) :
    (tableOf name rows).find? address = some location ↔
      ∃ row ∈ rows, row.range.contains address = true ∧ row.names.location = location := by
  unfold find?
  rw [Option.bind_eq_some_iff]
  constructor
  · rintro ⟨i, hi, hnames⟩
    obtain ⟨row, hrow, hin⟩ := (row?_tableOf_eq_some_iff ordered apart name address i).1 hi
    refine ⟨row, List.mem_of_getElem? hrow, hin, ?_⟩
    simpa [tableOf, hrow] using hnames
  · rintro ⟨row, hmem, hin, rfl⟩
    obtain ⟨i, hrow⟩ := List.mem_iff_getElem?.1 hmem
    refine ⟨i, (row?_tableOf_eq_some_iff ordered apart name address i).2 ⟨row, hrow, hin⟩, ?_⟩
    simp [tableOf, hrow]

end RangeTable

end GeoTag
