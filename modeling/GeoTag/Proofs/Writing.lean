import GeoTag.Record.Basic

/-!
# Rows of fields written into a record

`Record.putAll` writes a row of fields one after the other.  A name outside the row keeps its value
(`get?_putAll_of_notMem`), a row with distinct names is read back (`get?_putAll_of_mem`), a row that
the record already holds changes nothing (`putAll_eq_self`), and a row of new and distinct names is
appended as it stands (`fields_putAll`).
-/

namespace GeoTag

namespace Keyed

variable {α : Type}

theorem names_append (xs ys : List (String × α)) : names (xs ++ ys) = names xs ++ names ys :=
  List.map_append

theorem mem_names_iff {name : String} {entries : List (String × α)} :
    name ∈ names entries ↔ ∃ value, (name, value) ∈ entries := by
  simp [names]

/-- With distinct names a value is found under a name exactly when the two stand side by side. -/
theorem get?_eq_some_iff {entries : List (String × α)} (hn : (names entries).Nodup) (name : String)
    (value : α) : get? name entries = some value ↔ (name, value) ∈ entries := by
  induction entries with
  | nil => simp [get?]
  | cons e rest ih =>
    obtain ⟨n, v⟩ := e
    have hrest : (names rest).Nodup := (List.nodup_cons.1 hn).2
    have hfresh : n ∉ names rest := (List.nodup_cons.1 hn).1
    by_cases h : n = name
    · subst h
      have hno : (n, value) ∉ rest := fun hm => hfresh (mem_names_iff.2 ⟨value, hm⟩)
      simp [get?, hno, eq_comm]
    · simp [get?, h, Ne.symm h, ih hrest]

/-- Writing the value that a name already has changes nothing. -/
theorem put_eq_self {name : String} {value : α} {entries : List (String × α)}
    (h : get? name entries = some value) : put name value entries = entries := by
  induction entries with
  | nil => simp [get?] at h
  | cons e rest ih =>
    obtain ⟨n, v⟩ := e
    by_cases hn : n = name
    · simp only [get?, if_pos hn, Option.some.injEq] at h
      rw [put, if_pos hn, h]
    · rw [get?, if_neg hn] at h
      rw [put, if_neg hn, ih h]

/-- A new name goes to the end. -/
theorem put_of_notMem {name : String} {entries : List (String × α)} (h : name ∉ names entries)
    (value : α) : put name value entries = entries ++ [(name, value)] := by
  induction entries with
  | nil => rfl
  | cons e rest ih =>
    obtain ⟨n, v⟩ := e
    simp only [names, List.map_cons, List.mem_cons, not_or] at h
    rw [put, if_neg (Ne.symm h.1), ih h.2, List.cons_append]

/-- After a write every value is the one written or one that was there before. -/
theorem mem_put {name : String} {value : α} {entry : String × α} {entries : List (String × α)}
    (h : entry ∈ put name value entries) : entry.2 = value ∨ entry ∈ entries := by
  induction entries with
  | nil =>
    rw [List.mem_singleton.1 h]
    exact Or.inl rfl
  | cons e rest ih =>
    obtain ⟨n, v⟩ := e
    unfold put at h
    split at h
    · rcases List.mem_cons.1 h with rfl | h
      · exact Or.inl rfl
      · exact Or.inr (List.mem_cons_of_mem _ h)
    · rcases List.mem_cons.1 h with rfl | h
      · exact Or.inr List.mem_cons_self
      · exact (ih h).imp_right (List.mem_cons_of_mem _)

end Keyed

namespace Record

theorem eq_of_fields_eq {a b : Record} (h : a.fields = b.fields) : a = b := by
  cases a
  cases b
  congr

theorem put_eq_self {record : Record} {name : String} {value : FieldValue}
    (h : record.get? name = some value) : record.put name value = record :=
  eq_of_fields_eq (Keyed.put_eq_self h)

theorem putAll_cons (record : Record) (f : String × FieldValue) (fs : List (String × FieldValue)) :
    record.putAll (f :: fs) = (record.put f.1 f.2).putAll fs := rfl

theorem mem_names_put (record : Record) (name other : String) (value : FieldValue) :
    other ∈ (record.put name value).names ↔ other = name ∨ other ∈ record.names :=
  Keyed.mem_names_put name other value record.fields

theorem get?_ne_none_iff (record : Record) (name : String) :
    record.get? name ≠ none ↔ name ∈ record.names := by
  rw [Ne, get?_eq_none_iff, Classical.not_not]

theorem get?_putAll_of_notMem {fs : List (String × FieldValue)} {name : String}
    (h : name ∉ Keyed.names fs) (record : Record) :
    (record.putAll fs).get? name = record.get? name := by
  induction fs generalizing record with
  | nil => rfl
  | cons f fs ih =>
    simp only [Keyed.names, List.map_cons, List.mem_cons, not_or] at h
    rw [putAll_cons, ih h.2, get?_put, if_neg h.1]

theorem get?_putAll_of_mem {fs : List (String × FieldValue)} (hn : (Keyed.names fs).Nodup)
    {name : String} {value : FieldValue} (h : (name, value) ∈ fs) (record : Record) :
    (record.putAll fs).get? name = some value := by
  induction fs generalizing record with
  | nil => simp at h
  | cons f fs ih =>
    have hrest : (Keyed.names fs).Nodup := (List.nodup_cons.1 hn).2
    have hfresh : f.1 ∉ Keyed.names fs := (List.nodup_cons.1 hn).1
    rw [putAll_cons]
    rcases List.mem_cons.1 h with rfl | h
    · rw [get?_putAll_of_notMem hfresh, get?_put, if_pos rfl]
    · exact ih hrest h _

theorem putAll_eq_self {record : Record} {fs : List (String × FieldValue)}
    (h : ∀ f ∈ fs, record.get? f.1 = some f.2) : record.putAll fs = record := by
  induction fs with
  | nil => rfl
  | cons f fs ih =>
    rw [putAll_cons, put_eq_self (h f List.mem_cons_self)]
    exact ih fun g hg => h g (List.mem_cons_of_mem f hg)

theorem fields_putAll {record : Record} {fs : List (String × FieldValue)}
    (hn : (Keyed.names fs).Nodup) (hnew : ∀ name ∈ Keyed.names fs, name ∉ record.names) :
    (record.putAll fs).fields = record.fields ++ fs := by
  induction fs generalizing record with
  | nil => simp [putAll]
  | cons f fs ih =>
    have hrest : (Keyed.names fs).Nodup := (List.nodup_cons.1 hn).2
    have hfresh : f.1 ∉ Keyed.names fs := (List.nodup_cons.1 hn).1
    have hput : (record.put f.1 f.2).fields = record.fields ++ [f] :=
      Keyed.put_of_notMem (hnew f.1 List.mem_cons_self) f.2
    rw [putAll_cons, ih hrest, hput, List.append_assoc, List.singleton_append]
    intro name hname hold
    rcases (mem_names_put record f.1 name f.2).1 hold with rfl | hold
    · exact hfresh hname
    · exact hnew name (List.mem_cons_of_mem f.1 hname) hold

end Record

end GeoTag
