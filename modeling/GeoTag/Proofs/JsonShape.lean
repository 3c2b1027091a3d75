import GeoTag.Json.Reader
import GeoTag.Proofs.Writing

/-!
# The shape of a JSON value

Of a value three things decide whether its text can be read: how deep its arrays and objects go
(`Json.depth`), whether the names of each object are distinct (`Json.Distinct`), and which numbers stand in
it (`Json.numbers`).  The reader answers only values of a limited depth with distinct names
(`Json.regular_of_parse?`).
-/

namespace GeoTag

namespace Json

/-! ## Depth and numbers -/

mutual

/-- The most arrays and objects inside each other. -/
def depth : Json → Nat
  | .array items => depthOfItems items + 1
  | .object members => depthOfMembers members + 1
  | _ => 0

/-- The depth of the deepest item. -/
def depthOfItems : List Json → Nat
  | [] => 0
  | item :: items => max (depth item) (depthOfItems items)

/-- The depth of the deepest member. -/
def depthOfMembers : List (String × Json) → Nat
  | [] => 0
  | (_, value) :: rest => max (depth value) (depthOfMembers rest)

end

mutual

/-- The numbers in a value, at any depth. -/
def numbers : Json → List Number
  | .number n => [n]
  | .array items => numbersOfItems items
  | .object members => numbersOfMembers members
  | _ => []

/-- The numbers in all items. -/
def numbersOfItems : List Json → List Number
  | [] => []
  | item :: items => numbers item ++ numbersOfItems items

/-- The numbers in all members. -/
def numbersOfMembers : List (String × Json) → List Number
  | [] => []
  | (_, value) :: rest => numbers value ++ numbersOfMembers rest

end

theorem depth_array_le_iff {items : List Json} {d : Nat} :
    (array items).depth ≤ d + 1 ↔ ∀ item ∈ items, item.depth ≤ d := by
  rw [depth, Nat.add_le_add_iff_right]
  induction items with
  | nil => simp [depthOfItems]
  | cons item items ih => rw [depthOfItems, Nat.max_le, ih, List.forall_mem_cons]

theorem depth_object_le_iff {members : List (String × Json)} {d : Nat} :
    (object members).depth ≤ d + 1 ↔ ∀ m ∈ members, m.2.depth ≤ d := by
  rw [depth, Nat.add_le_add_iff_right]
  induction members with
  | nil => simp [depthOfMembers]
  | cons m members ih =>
    obtain ⟨name, value⟩ := m
    rw [depthOfMembers, Nat.max_le, ih, List.forall_mem_cons]

theorem mem_numbers_array_iff {items : List Json} {n : Number} :
    n ∈ (array items).numbers ↔ ∃ item ∈ items, n ∈ item.numbers := by
  rw [numbers]
  induction items with
  | nil => simp [numbersOfItems]
  | cons item items ih => simp [numbersOfItems, ih]

theorem mem_numbers_object_iff {members : List (String × Json)} {n : Number} :
    n ∈ (object members).numbers ↔ ∃ m ∈ members, n ∈ m.2.numbers := by
  rw [numbers]
  induction members with
  | nil => simp [numbersOfMembers]
  | cons m members ih =>
    obtain ⟨name, value⟩ := m
    simp [numbersOfMembers, ih]

theorem distinct_array_iff {items : List Json} :
    (array items).Distinct ↔ ∀ item ∈ items, item.Distinct := by
  rw [Distinct]
  induction items with
  | nil => simp [DistinctItems]
  | cons item items ih => simp [DistinctItems, ih]

theorem distinct_object_iff {members : List (String × Json)} :
    (object members).Distinct ↔
      (Keyed.names members).Nodup ∧ ∀ m ∈ members, m.2.Distinct := by
  rw [Distinct]
  apply and_congr_right'
  induction members with
  | nil => simp [DistinctMembers]
  | cons m members ih =>
    obtain ⟨name, value⟩ := m
    simp [DistinctMembers, ih]

/-! ## What the reader answers -/

/-- The value has at most a given depth, and the names of each of its objects are distinct. -/
structure Regular (limit : Nat) (value : Json) : Prop where
  depth_le : value.depth ≤ limit
  distinct : value.Distinct

theorem regular_array_iff {items : List Json} {limit : Nat} :
    Regular (limit + 1) (array items) ↔ ∀ item ∈ items, Regular limit item := by
  constructor
  · exact fun h item hitem => ⟨depth_array_le_iff.1 h.depth_le item hitem,
      distinct_array_iff.1 h.distinct item hitem⟩
  · exact fun h => ⟨depth_array_le_iff.2 fun item hitem => (h item hitem).depth_le,
      distinct_array_iff.2 fun item hitem => (h item hitem).distinct⟩

theorem regular_object_iff {members : List (String × Json)} {limit : Nat} :
    Regular (limit + 1) (object members) ↔
      (Keyed.names members).Nodup ∧ ∀ m ∈ members, Regular limit m.2 := by
  constructor
  · intro h
    obtain ⟨hnames, hvalues⟩ := distinct_object_iff.1 h.distinct
    exact ⟨hnames, fun m hm => ⟨depth_object_le_iff.1 h.depth_le m hm, hvalues m hm⟩⟩
  · rintro ⟨hnames, hvalues⟩
    exact ⟨depth_object_le_iff.2 fun m hm => (hvalues m hm).depth_le,
      distinct_object_iff.2 ⟨hnames, fun m hm => (hvalues m hm).distinct⟩⟩

/-- With so much fuel, what is read is regular up to the limit that the reader was given. -/
structure ReadsRegular (fuel : Nat) : Prop where
  value : ∀ {limit cs value rest}, readValue? fuel limit cs = some (value, rest) →
    Regular limit value
  items : ∀ {limit seen cs value rest}, (∀ item ∈ seen, Regular limit item) →
    readItems? fuel limit seen cs = some (value, rest) → Regular (limit + 1) value
  members : ∀ {limit seen cs value rest}, (Keyed.names seen).Nodup →
    (∀ m ∈ seen, Regular limit m.2) →
    readMembers? fuel limit seen cs = some (value, rest) → Regular (limit + 1) value

variable {fuel limit : Nat} {cs rest : List Char} {value : Json}

theorem regular_of_map {α : Type} {read : Option α} {make : α → Json × List Char}
    (h : read.map make = some (value, rest)) (hdepth : ∀ a, (make a).1.depth = 0)
    (hdistinct : ∀ a, (make a).1.Distinct) : Regular limit value := by
  obtain ⟨a, -, ha⟩ := Option.map_eq_some_iff.1 h
  have hvalue : value = (make a).1 := by rw [ha]
  rw [hvalue]
  exact ⟨hdepth a ▸ Nat.zero_le limit, hdistinct a⟩

theorem ReadsRegular.value_succ (ih : ReadsRegular fuel)
    (h : readValue? (fuel + 1) limit cs = some (value, rest)) : Regular limit value := by
  have nonames : (Keyed.names ([] : List (String × Json))).Nodup := List.nodup_nil
  rw [readValue?] at h
  split at h
  · cases h
  · split at h
    · exact regular_of_map h (fun _ => rfl) (fun _ => trivial)
    split at h
    · split at h
      · cases h
      · cases h
        exact regular_array_iff.2 fun _ hmem => absurd hmem List.not_mem_nil
      · exact ih.items (fun _ hmem => absurd hmem List.not_mem_nil) h
    split at h
    · split at h
      · cases h
      · cases h
        exact regular_object_iff.2 ⟨nonames, fun _ hmem => absurd hmem List.not_mem_nil⟩
      · exact ih.members nonames (fun _ hmem => absurd hmem List.not_mem_nil) h
    split at h
    · exact regular_of_map h (fun _ => rfl) (fun _ => trivial)
    split at h
    · exact regular_of_map h (fun _ => rfl) (fun _ => trivial)
    split at h
    · exact regular_of_map h (fun _ => rfl) (fun _ => trivial)
    · exact regular_of_map h (fun _ => rfl) (fun _ => trivial)

theorem ReadsRegular.items_succ (ih : ReadsRegular fuel) {seen : List Json}
    (hseen : ∀ item ∈ seen, Regular limit item)
    (h : readItems? (fuel + 1) limit seen cs = some (value, rest)) : Regular (limit + 1) value := by
  rw [readItems?] at h
  split at h
  · cases h
  · rename_i item tail hitem
    have hall : ∀ other ∈ item :: seen, Regular limit other :=
      List.forall_mem_cons.2 ⟨ih.value hitem, hseen⟩
    split at h
    · exact ih.items hall h
    · cases h
      exact regular_array_iff.2 fun other hother => hall other (List.mem_reverse.1 hother)
    · cases h

theorem ReadsRegular.members_succ (ih : ReadsRegular fuel) {seen : List (String × Json)}
    (hnames : (Keyed.names seen).Nodup) (hseen : ∀ m ∈ seen, Regular limit m.2)
    (h : readMembers? (fuel + 1) limit seen cs = some (value, rest)) :
    Regular (limit + 1) value := by
  rw [readMembers?] at h
  split at h
  · split at h
    · cases h
    · rename_i name _ _
      split at h
      · split at h
        · cases h
        · rename_i inner _ hinner
          have hall : ∀ m ∈ Keyed.put name inner seen, Regular limit m.2 := by
            intro m hm
            rcases Keyed.mem_put hm with hvalue | hm
            · exact hvalue ▸ ih.value hinner
            · exact hseen m hm
          have hnodup := Keyed.nodup_names_put name inner hnames
          split at h
          · exact ih.members hnodup hall h
          · cases h
            exact regular_object_iff.2 ⟨hnodup, hall⟩
          · cases h
      · cases h
  · cases h

/-- The three readers call one another with one unit of fuel less. -/
theorem readsRegular (fuel : Nat) : ReadsRegular fuel := by
  induction fuel with
  | zero =>
    constructor
    · intro limit cs value rest h
      cases h
    · intro limit seen cs value rest _ h
      cases h
    · intro limit seen cs value rest _ _ h
      cases h
  | succ fuel ih => exact ⟨ih.value_succ, ih.items_succ, ih.members_succ⟩

/-- A value that a text spells has a limited depth and distinct names. -/
theorem regular_of_parse? {s : String} (h : parse? s = some value) : Regular maxDepth value := by
  unfold parse? at h
  dsimp only at h
  split at h
  · cases h
  · rename_i found rest hfound
    split at h
    · cases h
      exact (readsRegular _).value hfound
    · cases h

end Json

end GeoTag
