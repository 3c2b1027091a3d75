import GeoTag.Proofs.Overwriting

/-!
# How a record grows

A run writes under derived names only.  A name that the record has already keeps its place, and any
other goes to the end, so the names before the run are the first of the names after it and each of the
others is derived from a candidate (`names_filter`).  This holds also of records whose fields stand
under names that are derived from other fields.
-/

namespace GeoTag

theorem Record.mem_names_putAll (record : Record) (fs : List (String × FieldValue)) (name : String) :
    name ∈ (record.putAll fs).names ↔ name ∈ record.names ∨ name ∈ Keyed.names fs := by
  induction fs generalizing record with
  | nil => simp [putAll, Keyed.names]
  | cons f fs ih =>
    rw [putAll_cons, ih, mem_names_put]
    simp only [Keyed.names, List.map_cons, List.mem_cons]
    grind

namespace Engine

variable {engine : Engine}

/-- A visit adds no name but names derived from the field that is visited. -/
theorem mem_names_writeDerived {record : Record} {field name : String}
    (h : name ∈ (engine.writeDerived record field).names) :
    name ∈ record.names ∨ name ∈ engine.schema.derivedNames field := by
  rcases (record.mem_names_putAll _ name).1 h with hold | hrow
  · exact Or.inl hold
  · exact Or.inr (mem_derivedNames_of_mem_names hrow)

theorem mem_names_foldl_writeDerived {fields : List String} {record : Record} {name : String}
    (h : name ∈ (fields.foldl engine.writeDerived record).names) :
    name ∈ record.names ∨ ∃ field ∈ fields, name ∈ engine.schema.derivedNames field := by
  induction fields generalizing record with
  | nil => exact Or.inl h
  | cons field fields ih =>
    rcases ih h with hvisited | ⟨other, hother, hderived⟩
    · rcases mem_names_writeDerived hvisited with hold | hderived
      · exact Or.inl hold
      · exact Or.inr ⟨field, List.mem_cons_self, hderived⟩
    · exact Or.inr ⟨other, List.mem_cons_of_mem field hother, hderived⟩

theorem mem_names_filter {record : Record} {name : String}
    (h : name ∈ (engine.filter record).record.names) :
    name ∈ record.names ∨
      ∃ field ∈ engine.schema.candidates record, name ∈ engine.schema.derivedNames field := by
  by_cases enabled : engine.enabled = true
  · rw [record_filter_of_enabled enabled] at h
    exact mem_names_foldl_writeDerived h
  · rw [record_filter_of_disabled enabled] at h
    exact Or.inl h

/-- A run leaves the names of a record in their places and appends others, each of them the stem of a
candidate with the suffix of the marker or another suffix of the schema behind it.  A field whose name
is no such name keeps its value. -/
theorem names_filter (engine : Engine) (record : Record) :
    ∃ added : List String,
      (engine.filter record).record.names = record.names ++ added ∧
      (∀ name ∈ added, name ∉ record.names ∧
        ∃ field ∈ engine.schema.candidates record,
          ∃ suffix ∈ Schema.reservedSuffix ::
              (engine.schema.suffixes.ofLocation ++ engine.schema.suffixes.ofAs),
            name = engine.schema.stem field ++ suffix) ∧
      ∀ name, (∀ field ∈ engine.schema.candidates record,
          name ∉ engine.schema.derivedNames field) →
        (engine.filter record).record.get? name = record.get? name := by
  obtain ⟨added, hadded⟩ := engine.names_filter_prefix record
  refine ⟨added, hadded.symm, ?_, fun name h => get?_filter_of_underived h⟩
  intro name hname
  have hnodup : (record.names ++ added).Nodup := by
    rw [hadded]
    exact (engine.filter record).record.nodup
  have hnew : name ∉ record.names :=
    fun hold => (List.nodup_append.1 hnodup).2.2 name hold name hname rfl
  have hmem : name ∈ (engine.filter record).record.names := by
    rw [← hadded]
    exact List.mem_append_right _ hname
  obtain ⟨field, hfield, hderived⟩ := (mem_names_filter hmem).resolve_left hnew
  obtain ⟨suffix, hsuffix, heq⟩ := (engine.schema.mem_derivedNames_iff field name).1 hderived
  exact ⟨hnew, field, hfield, suffix, hsuffix, heq.symm⟩

end Engine

end GeoTag
