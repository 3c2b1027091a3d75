import GeoTag.RangeTable

/-!
# Spans, sorted and searched

A span that is `Ordered` holds the words from its first to its last.  Two such spans are `Apart`
when one ends before the other starts, which is to say that no word lies in both
(`apart_iff_no_shared`).  After sorting it is enough to compare neighbours: `overlapping` finds
nothing exactly when the spans were apart, any two of them (`overlapping_sort_eq_false_iff`).  The
search by halving then finds the one span that holds a word (`search?_eq_some_iff`).
-/

namespace GeoTag

namespace Span

variable {w : Nat}

/-- The span does not end before it starts. -/
def Ordered (span : Span w) : Prop := span.first.toNat ≤ span.last.toNat

/-- The first span ends before the second starts. -/
def Before (a b : Span w) : Prop := a.last.toNat < b.first.toNat

/-- One of the two spans ends before the other starts. -/
def Apart (a b : Span w) : Prop := a.Before b ∨ b.Before a

instance (a b : Span w) : Decidable (a.Apart b) :=
  inferInstanceAs (Decidable (a.last.toNat < b.first.toNat ∨ b.last.toNat < a.first.toNat))

theorem contains_iff (span : Span w) (bits : BitVec w) :
    span.contains bits = true ↔
      span.first.toNat ≤ bits.toNat ∧ bits.toNat ≤ span.last.toNat := by
  unfold contains
  rw [Bool.and_eq_true, decide_eq_true_eq, decide_eq_true_eq]

theorem Apart.symm {a b : Span w} (h : a.Apart b) : b.Apart a := Or.symm h

theorem apart_iff_no_shared {a b : Span w} (ha : a.Ordered) (hb : b.Ordered) :
    a.Apart b ↔ ∀ bits, ¬ (a.contains bits = true ∧ b.contains bits = true) := by
  unfold Ordered at ha hb
  constructor
  · rintro h bits ⟨hin, hin'⟩
    rw [contains_iff] at hin hin'
    unfold Apart Before at h
    omega
  · intro h
    -- Were they not apart, the later of the two starts would lie in both.
    have hb' := h b.first
    have ha' := h a.first
    rw [contains_iff, contains_iff] at ha' hb'
    unfold Apart Before
    omega

/-! ### Sorting -/

theorem overlapping_eq_false_iff {spans : List (Span w)} (ordered : ∀ s ∈ spans, s.Ordered) :
    overlapping spans = false ↔ spans.Pairwise Before := by
  induction spans with
  | nil => simp [overlapping]
  | cons a rest ih =>
    have ih := ih fun s hs => ordered s (List.mem_cons_of_mem a hs)
    cases rest with
    | nil => simp [overlapping]
    | cons b rest =>
      rw [overlapping, Bool.or_eq_false_iff, decide_eq_false_iff_not, Nat.not_le, ih,
        List.pairwise_cons (a := a)]
      constructor
      · rintro ⟨hab, hrest⟩
        refine ⟨?_, hrest⟩
        -- Before the neighbour, so before all that the neighbour is before.
        intro c hc
        rcases List.mem_cons.1 hc with rfl | hc
        · exact hab
        · have hbc : b.Before c := (List.pairwise_cons.1 hrest).1 c hc
          have hb : b.Ordered := ordered b (by simp)
          unfold Before Ordered at *
          omega
      · rintro ⟨hall, hrest⟩
        exact ⟨hall b List.mem_cons_self, hrest⟩

theorem mem_sort {spans : List (Span w)} {span : Span w} : span ∈ sort spans ↔ span ∈ spans :=
  List.mem_mergeSort

theorem perm_sort (spans : List (Span w)) : (sort spans).Perm spans :=
  List.mergeSort_perm spans _

theorem pairwise_sort (spans : List (Span w)) :
    (sort spans).Pairwise fun a b => a.first.toNat ≤ b.first.toNat := by
  have h : (sort spans).Pairwise fun a b => decide (a.first.toNat ≤ b.first.toNat) = true := by
    apply List.pairwise_mergeSort
    · intro a b c hab hbc
      rw [decide_eq_true_eq] at *
      exact Nat.le_trans hab hbc
    · intro a b
      rw [Bool.or_eq_true, decide_eq_true_eq, decide_eq_true_eq]
      exact Nat.le_total _ _
  exact h.imp fun hab => of_decide_eq_true hab

theorem overlapping_sort_eq_false_iff {spans : List (Span w)}
    (ordered : ∀ s ∈ spans, s.Ordered) :
    overlapping (sort spans) = false ↔ spans.Pairwise Apart := by
  have hsorted : ∀ s ∈ sort spans, s.Ordered := fun s hs => ordered s (mem_sort.1 hs)
  rw [overlapping_eq_false_iff hsorted, ← (perm_sort spans).pairwise_iff Apart.symm]
  constructor
  · exact List.Pairwise.imp Or.inl
  · intro h
    have both := h.and (pairwise_sort spans)
    refine both.imp_of_mem ?_
    rintro a b - hb ⟨hab | hba, hle⟩
    · exact hab
    · have hb : b.Ordered := hsorted b hb
      unfold Before Ordered at *
      omega

/-! ### Halving -/

/-- The spans at places below `low` start no later than the word, and those from the place `high` on
start after it. -/
structure Bracketed (spans : Array (Span w)) (bits : BitVec w) (low high : Nat) : Prop where
  below : ∀ i span, i < low → spans[i]? = some span → span.first.toNat ≤ bits.toNat
  above : ∀ i span, high ≤ i → spans[i]? = some span → bits.toNat < span.first.toNat

/-- The spans of an array, each before all that follow. -/
def Ascending (spans : Array (Span w)) : Prop :=
  (∀ span ∈ spans.toList, span.Ordered) ∧ spans.toList.Pairwise Before

theorem Ascending.ordered {spans : Array (Span w)} (h : Ascending spans) {i : Nat} {span : Span w}
    (hi : spans[i]? = some span) : span.Ordered :=
  h.1 span (Array.mem_toList_iff.2 (Array.mem_of_getElem? hi))

theorem Ascending.before {spans : Array (Span w)} (h : Ascending spans) {i j : Nat} {a b : Span w}
    (hij : i < j) (ha : spans[i]? = some a) (hb : spans[j]? = some b) : a.Before b := by
  obtain ⟨hi, rfl⟩ := Array.getElem?_eq_some_iff.1 ha
  obtain ⟨hj, rfl⟩ := Array.getElem?_eq_some_iff.1 hb
  exact List.pairwise_iff_getElem.1 h.2 i j hi hj hij

theorem Ascending.first_le {spans : Array (Span w)} (h : Ascending spans) {i j : Nat} {a b : Span w}
    (hij : i ≤ j) (ha : spans[i]? = some a) (hb : spans[j]? = some b) :
    a.first.toNat ≤ b.first.toNat := by
  rcases Nat.lt_or_eq_of_le hij with hlt | rfl
  · have hab := h.before hlt ha hb
    have hord := h.ordered ha
    unfold Before Ordered at *
    omega
  · rw [ha, Option.some.injEq] at hb
    exact Nat.le_of_eq (by rw [hb])

theorem partitionPoint_le (spans : Array (Span w)) (bits : BitVec w) (low high : Nat)
    (hle : low ≤ high) : partitionPoint spans bits low high ≤ high := by
  fun_induction partitionPoint spans bits low high with
  | case1 low high hlt middle hnone => exact hle
  | case2 low high hlt middle span hspan hfirst ih => exact ih (by omega)
  | case3 low high hlt middle span hspan hfirst ih =>
    have := ih (by omega)
    omega
  | case4 low high hlt => exact hle

theorem bracketed_partitionPoint {spans : Array (Span w)} (h : Ascending spans) (bits : BitVec w)
    (low high : Nat) (hle : low ≤ high) (hsize : high ≤ spans.size)
    (hb : Bracketed spans bits low high) :
    Bracketed spans bits (partitionPoint spans bits low high)
      (partitionPoint spans bits low high) := by
  fun_induction partitionPoint spans bits low high with
  | case1 low high hlt middle hnone =>
    rw [Array.getElem?_eq_none_iff] at hnone
    omega
  | case2 low high hlt middle span hspan hfirst ih =>
    refine ih (by omega) hsize ⟨?_, hb.above⟩
    intro i a hi ha
    exact Nat.le_trans (h.first_le (by omega) ha hspan) hfirst
  | case3 low high hlt middle span hspan hfirst ih =>
    refine ih (by omega) (by omega) ⟨hb.below, ?_⟩
    intro i a hi ha
    have := h.first_le hi hspan ha
    omega
  | case4 low high hlt =>
    have : low = high := by omega
    subst this
    exact hb

theorem bracketed_start (spans : Array (Span w)) (bits : BitVec w) :
    Bracketed spans bits 0 spans.size := by
  constructor
  · intro i span hi _
    omega
  · intro i span hi hspan
    rw [Array.getElem?_eq_none hi] at hspan
    cases hspan

theorem search?_eq_some_iff {spans : Array (Span w)} (h : Ascending spans) (bits : BitVec w)
    (span : Span w) :
    search? spans bits = some span ↔ span ∈ spans ∧ span.contains bits = true := by
  have hb := bracketed_partitionPoint h bits 0 spans.size (Nat.zero_le _) (Nat.le_refl _)
    (bracketed_start spans bits)
  unfold search?
  rw [contains_iff, Array.mem_iff_getElem?]
  split
  next hzero =>
    rw [hzero] at hb
    constructor
    · intro hnone
      cases hnone
    · rintro ⟨⟨i, hi⟩, hfirst, -⟩
      have := hb.above i span (Nat.zero_le i) hi
      omega
  next n hn =>
    rw [hn] at hb
    simp only [Option.filter_eq_some_iff, decide_eq_true_eq]
    constructor
    · rintro ⟨hspan, hlast⟩
      exact ⟨⟨n, hspan⟩, hb.below n span (Nat.lt_succ_self n) hspan, hlast⟩
    · rintro ⟨⟨i, hi⟩, hfirst, hlast⟩
      -- A span before place `n` ends before the span there starts, and so before the word.
      rcases Nat.lt_trichotomy i n with hlt | rfl | hgt
      · have hn : n < spans.size := by
          have := partitionPoint_le spans bits 0 spans.size (Nat.zero_le _)
          omega
        have hspan := Array.getElem?_eq_getElem hn
        have hbefore := h.before hlt hi hspan
        have := hb.below n _ (Nat.lt_succ_self n) hspan
        unfold Before at hbefore
        omega
      · exact ⟨hi, hlast⟩
      · have := hb.above i span hgt hi
        omega

theorem ascending_sort {spans : List (Span w)} (ordered : ∀ s ∈ spans, s.Ordered)
    (apart : overlapping (sort spans) = false) : Ascending (sort spans).toArray := by
  have hsorted : ∀ s ∈ sort spans, s.Ordered := fun s hs => ordered s (mem_sort.1 hs)
  exact ⟨hsorted, (overlapping_eq_false_iff hsorted).1 apart⟩

end Span

end GeoTag
