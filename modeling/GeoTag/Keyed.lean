/-!
# Values under distinct names, in order of first insertion

A list of pairs of a name and a value serves as an ordered map.  `put` writes a value under a
name: at the place the name already has, or at the end.  As long as lists are built by `put` from
the empty list their names stay distinct (`nodup_names_put`), `get?` answers the value written last
(`get?_put`), and names keep the order in which they first came (`names_put`).
-/

namespace GeoTag

namespace Keyed

variable {α : Type}

/-- The names, in order. -/
def names (entries : List (String × α)) : List String := entries.map Prod.fst

/-- The value under a name. -/
def get? (name : String) : List (String × α) → Option α
  | [] => none
  | (n, v) :: rest => if n = name then some v else get? name rest

/-- Writes a value under a name, at the place of the name or at the end. -/
def put (name : String) (value : α) : List (String × α) → List (String × α)
  | [] => [(name, value)]
  | (n, v) :: rest => if n = name then (n, value) :: rest else (n, v) :: put name value rest

/-- All pairs written one after the other. -/
def ofList (pairs : List (String × α)) : List (String × α) :=
  pairs.foldl (fun entries p => put p.1 p.2 entries) []

theorem names_put (name : String) (value : α) (entries : List (String × α)) :
    names (put name value entries) =
      if name ∈ names entries then names entries else names entries ++ [name] := by
  induction entries with
  | nil => simp [put, names]
  | cons e rest ih =>
    obtain ⟨n, v⟩ := e
    simp only [names, List.map_cons, List.mem_cons] at ih ⊢
    by_cases h : n = name
    · simp [put, h]
    · have hne : ¬ name = n := fun e => h e.symm
      simp only [put, if_neg h, List.map_cons, ih, hne, false_or]
      split <;> simp [*]

theorem mem_names_put (name other : String) (value : α) (entries : List (String × α)) :
    other ∈ names (put name value entries) ↔ other = name ∨ other ∈ names entries := by
  rw [names_put]
  split
  · constructor
    · exact Or.inr
    · rintro (rfl | h) <;> assumption
  · simp [or_comm]

/-- Distinct names stay distinct. -/
theorem nodup_names_put (name : String) (value : α) {entries : List (String × α)}
    (h : (names entries).Nodup) : (names (put name value entries)).Nodup := by
  rw [names_put]
  split
  · exact h
  · rename_i hn
    rw [List.nodup_append]
    refine ⟨h, by simp, fun a ha b hb => ?_⟩
    rw [List.mem_singleton] at hb
    rintro rfl
    exact hn (hb ▸ ha)

theorem get?_put_self (name : String) (value : α) (entries : List (String × α)) :
    get? name (put name value entries) = some value := by
  induction entries with
  | nil => simp [put, get?]
  | cons e rest ih =>
    obtain ⟨n, v⟩ := e
    by_cases h : n = name <;> simp [put, get?, h, ih]

theorem get?_put_of_ne {name other : String} (h : other ≠ name) (value : α)
    (entries : List (String × α)) : get? other (put name value entries) = get? other entries := by
  induction entries with
  | nil => simp [put, get?, Ne.symm h]
  | cons e rest ih =>
    obtain ⟨n, v⟩ := e
    by_cases hn : n = name
    · subst hn
      simp [put, get?, Ne.symm h]
    · simp [put, get?, hn, ih]

/-- The value written last is the one found. -/
theorem get?_put (name other : String) (value : α) (entries : List (String × α)) :
    get? other (put name value entries) =
      if other = name then some value else get? other entries := by
  split
  · rename_i h
    rw [h, get?_put_self]
  · rename_i h
    exact get?_put_of_ne h value entries

theorem get?_eq_none_iff (name : String) (entries : List (String × α)) :
    get? name entries = none ↔ name ∉ names entries := by
  induction entries with
  | nil => simp [get?, names]
  | cons e rest ih =>
    obtain ⟨n, v⟩ := e
    by_cases h : n = name
    · simp [get?, h, names]
    · simpa [get?, h, names, Ne.symm h] using ih

/-- A list built by writing pairs has distinct names. -/
theorem nodup_names_ofList (pairs : List (String × α)) : (names (ofList pairs)).Nodup := by
  have key : ∀ (ps : List (String × α)) (entries : List (String × α)), (names entries).Nodup →
      (names (ps.foldl (fun entries p => put p.1 p.2 entries) entries)).Nodup := by
    intro ps
    induction ps with
    | nil => exact fun _ h => h
    | cons p ps ih => exact fun entries h => ih _ (nodup_names_put p.1 p.2 h)
  exact key pairs [] List.nodup_nil

end Keyed

end GeoTag
