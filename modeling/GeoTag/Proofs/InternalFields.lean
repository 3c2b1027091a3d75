import GeoTag.Proofs.Overwriting

/-!
# Internal fields

No internal field is looked at, but a derived name may be internal.  Every suffix starts with an
underscore, so there is one name only that a suffix makes internal: the mark without its underscore
(`Schema.isInternal_append_iff`).  The legacy schema looks at a field of that name, and what it leads
to is all that a run writes under internal names (`Engine.filter_internal_iff`).
-/

namespace GeoTag

namespace Schema

/-! ## Internal names -/

/-- The mark of internal names without its underscore; a field of this name is not internal. -/
def bareMark : String := "gl2"

theorem isInternal_iff (name : String) :
    isInternal name = true ↔ internalMark.toList <+: name.toList :=
  List.isPrefixOf_iff_prefix

theorem exists_underscore_of_mem_allSuffixes (schema : Schema) {suffix : String}
    (h : suffix ∈ schema.allSuffixes) : ∃ rest, suffix.toList = '_' :: rest := by
  have key : ∀ s ∈ schema.allSuffixes, s.toList.head? = some '_' := by
    cases schema <;> decide
  exact List.head?_eq_some_iff.1 (key suffix h)

/-- The mark has no underscore but its last character. -/
theorem eq_bareMark_of_append {front more : List Char}
    (h : internalMark.toList = front ++ '_' :: more) : front = bareMark.toList := by
  have hmark : ['g', 'l', '2', '_'] = front ++ '_' :: more := h
  match front with
  | [] | [_] | [_, _] => cases hmark
  | [_, _, _] =>
    cases hmark
    rfl
  | _ :: _ :: _ :: _ :: _ => simp at hmark

/-- Of all names that are not internal a suffix makes the bare mark internal and no other. -/
theorem isInternal_append_iff (schema : Schema) {name suffix : String}
    (hname : isInternal name = false) (hsuffix : suffix ∈ schema.allSuffixes) :
    isInternal (name ++ suffix) = true ↔ name = bareMark := by
  obtain ⟨rest, hrest⟩ := schema.exists_underscore_of_mem_allSuffixes hsuffix
  rw [isInternal_iff, String.toList_append, hrest]
  constructor
  · rintro ⟨tail, htail⟩
    have hwhole : ¬ internalMark.toList <+: name.toList := by
      rw [← isInternal_iff, hname]
      exact Bool.false_ne_true
    rcases List.append_eq_append_iff.1 htail with ⟨more, hmore, -⟩ | ⟨missing, hmissing, hbehind⟩
    · exact absurd ⟨more, hmore.symm⟩ hwhole
    · -- What the name lacks of the mark starts with the underscore of the suffix.
      cases missing with
      | nil =>
        rw [List.append_nil] at hmissing
        exact absurd (hmissing ▸ List.prefix_refl _) hwhole
      | cons c missing =>
        obtain rfl : '_' = c := (List.cons.inj hbehind).1
        exact String.toList_injective (eq_bareMark_of_append hmissing)
  · rintro rfl
    exact ⟨rest, rfl⟩

/-- Only the legacy schema derives internal names, and only from the bare mark. -/
theorem eq_bareMark_of_isInternal {schema : Schema} {field derived : String}
    (hfield : schema.isCandidate field = true) (hderived : derived ∈ schema.derivedNames field)
    (hinternal : isInternal derived = true) : schema = .legacy ∧ field = bareMark := by
  cases schema with
  | strict =>
    obtain ⟨stem, hmapping⟩ := (isCandidate_strict_iff field).1 hfield
    have key : ∀ p ∈ mapping, ∀ d ∈ strict.derivedNames p.1, isInternal d = false := by decide
    rw [key (field, stem) hmapping derived hderived] at hinternal
    cases hinternal
  | legacy =>
    obtain ⟨suffix, hsuffix, rfl⟩ := (legacy.mem_derivedNames_iff field derived).1 hderived
    have hname : isInternal field = false := by
      simpa [isCandidate] using hfield
    exact ⟨rfl, (legacy.isInternal_append_iff hname hsuffix).1 hinternal⟩

theorem isInternal_of_mem_derivedNames_bareMark {derived : String}
    (h : derived ∈ legacy.derivedNames bareMark) : isInternal derived = true := by
  have key : ∀ d ∈ legacy.derivedNames bareMark, isInternal d = true := by decide
  exact key derived h

/-- Derived names are longer than the bare mark. -/
theorem bareMark_notMem_derivedNames (schema : Schema) (field : String) :
    bareMark ∉ schema.derivedNames field := by
  intro h
  obtain ⟨suffix, hsuffix, heq⟩ := (schema.mem_derivedNames_iff field bareMark).1 h
  have key : ∀ s ∈ schema.allSuffixes, 3 < s.toList.length := by
    cases schema <;> decide
  have hlength : (schema.stem field).toList.length + suffix.toList.length = 3 := by
    rw [← List.length_append, ← String.toList_append, heq]
    rfl
  have := key suffix hsuffix
  omega

end Schema

namespace Engine

variable {engine : Engine} {record : Record}

/-! ## What a run writes under internal names -/

/-- The fields that a record leads to under internal names: those of the bare mark, in the legacy
schema. -/
def internalFields (engine : Engine) (record : Record) : List (String × FieldValue) :=
  if engine.enabled = true ∧ engine.schema = .legacy then
    engine.derivedFields record Schema.bareMark
  else []

theorem mem_internalFields_iff (engine : Engine) (record : Record) (f : String × FieldValue) :
    f ∈ engine.internalFields record ↔
      engine.enabled = true ∧ engine.schema = .legacy ∧
        f ∈ engine.derivedFields record Schema.bareMark := by
  unfold internalFields
  split
  · rename_i h
    exact ⟨fun hf => ⟨h.1, h.2, hf⟩, fun hf => hf.2.2⟩
  · rename_i h
    exact ⟨fun hf => absurd hf List.not_mem_nil, fun hf => absurd ⟨hf.1, hf.2.1⟩ h⟩

theorem nodup_names_internalFields (engine : Engine) (record : Record) :
    (Keyed.names (engine.internalFields record)).Nodup := by
  unfold internalFields
  split
  · exact engine.nodup_names_derivedFields record _
  · exact List.nodup_nil

theorem isInternal_of_mem_internalFields {f : String × FieldValue}
    (h : f ∈ engine.internalFields record) : Schema.isInternal f.1 = true := by
  obtain ⟨-, legacy, hf⟩ := (engine.mem_internalFields_iff record f).1 h
  have hderived : f.1 ∈ engine.schema.derivedNames Schema.bareMark :=
    mem_derivedNames_of_mem_names (List.mem_map_of_mem hf)
  rw [legacy] at hderived
  exact Schema.isInternal_of_mem_derivedNames_bareMark hderived

/-- An internal name that no candidate has as a derived name is not written. -/
theorem notMem_names_internalFields {name : String}
    (h : ∀ field ∈ engine.schema.candidates record, name ∉ engine.schema.derivedNames field) :
    name ∉ Keyed.names (engine.internalFields record) := by
  intro hmem
  obtain ⟨value, hvalue⟩ := Keyed.mem_names_iff.1 hmem
  obtain ⟨-, legacy, hf⟩ := (engine.mem_internalFields_iff record _).1 hvalue
  obtain ⟨address, haddress⟩ := exists_address?_of_mem_derivedFields hf
  have hfield : Schema.bareMark ∈ engine.schema.candidates record := by
    refine (engine.schema.mem_candidates_iff record _).2 ⟨Record.mem_names_of_address? haddress, ?_⟩
    rw [legacy]
    decide
  exact h Schema.bareMark hfield (mem_derivedNames_of_mem_names (List.mem_map_of_mem hf))

theorem get?_filter_of_isInternal {name : String} (hname : Schema.isInternal name = true) :
    (engine.filter record).record.get? name =
      (record.putAll (engine.internalFields record)).get? name := by
  by_cases h : ∃ field ∈ engine.schema.candidates record, name ∈ engine.schema.derivedNames field
  · obtain ⟨field, hfield, hderived⟩ := h
    have hcandidate := ((engine.schema.mem_candidates_iff record field).1 hfield).2
    obtain ⟨legacy, rfl⟩ := Schema.eq_bareMark_of_isInternal hcandidate hderived hname
    unfold internalFields
    by_cases enabled : engine.enabled = true
    · rw [if_pos ⟨enabled, legacy⟩]
      exact get?_filter_of_derived enabled hfield
        (fun other _ => engine.schema.bareMark_notMem_derivedNames other) hderived
    · rw [if_neg fun h => enabled h.1, record_filter_of_disabled enabled]
      rfl
  · have underived : ∀ field ∈ engine.schema.candidates record,
        name ∉ engine.schema.derivedNames field := fun field hfield hderived =>
      h ⟨field, hfield, hderived⟩
    rw [Record.get?_putAll_of_notMem (notMem_names_internalFields underived)]
    exact get?_filter_of_underived underived

theorem internal_kept_iff (engine : Engine) (record : Record) :
    (∀ name, Schema.isInternal name = true →
      (engine.filter record).record.get? name = record.get? name) ↔
        ∀ f ∈ engine.internalFields record, record.get? f.1 = some f.2 := by
  constructor
  · intro kept f hf
    have hname := isInternal_of_mem_internalFields hf
    rw [← kept f.1 hname, get?_filter_of_isInternal hname]
    exact Record.get?_putAll_of_mem (engine.nodup_names_internalFields record) hf record
  · intro repeats name hname
    rw [get?_filter_of_isInternal hname, Record.putAll_eq_self repeats]

/-- Under internal names a run leaves what the record holds and, in the legacy schema, what the field
of the bare mark leads to.  It neither adds nor changes an internal field exactly when the engine is
disabled, or the schema is strict, or the record holds all of that already; without an address under
the bare mark there is nothing to hold. -/
theorem filter_internal_iff (engine : Engine) (record : Record) :
    (∀ name, Schema.isInternal name = true →
      (engine.filter record).record.get? name =
        (record.putAll (engine.internalFields record)).get? name) ∧
    ((∀ name, Schema.isInternal name = true →
      (engine.filter record).record.get? name = record.get? name) ↔
        (engine.enabled = true → engine.schema = .legacy →
          ∀ address, record.address? Schema.bareMark = some address →
            ∀ f ∈ engine.addressFields Schema.bareMark address, record.get? f.1 = some f.2)) := by
  refine ⟨fun name hname => get?_filter_of_isInternal hname, ?_⟩
  rw [internal_kept_iff]
  constructor
  · intro repeats enabled legacy address haddress f hf
    apply repeats f
    rw [mem_internalFields_iff, derivedFields_of_address? haddress, legacy]
    exact ⟨enabled, rfl, hf⟩
  · intro repeats f hf
    obtain ⟨enabled, legacy, hrow⟩ := (engine.mem_internalFields_iff record f).1 hf
    obtain ⟨address, haddress⟩ := exists_address?_of_mem_derivedFields hrow
    rw [derivedFields_of_address? haddress, legacy] at hrow
    exact repeats enabled legacy address haddress f hrow

/-- A record with a reserved address under the bare mark and an internal field under the name of its
marker. -/
def bookedRecord : Record :=
  Record.empty.putAll [("gl2", .string "10.0.0.1"), ("gl2_reserved_ip", .string "keep")]

theorem address?_bookedRecord :
    bookedRecord.address? Schema.bareMark = some (.v4 0x0A000001) := by decide

/-- The marker of the bare mark takes the place of an internal field. -/
theorem not_internal_kept_bookedRecord :
    ¬ ∀ name, Schema.isInternal name = true →
      ((sample .legacy).filter bookedRecord).record.get? name = bookedRecord.get? name := by
  intro kept
  have hmarker : ("gl2_reserved_ip", FieldValue.bool true) ∈
      (sample .legacy).internalFields bookedRecord := by
    rw [mem_internalFields_iff, derivedFields_of_address? address?_bookedRecord, addressFields,
      if_pos (by decide)]
    exact ⟨rfl, rfl, List.mem_singleton.2 rfl⟩
  have hheld := ((sample .legacy).internal_kept_iff bookedRecord).1 kept _ hmarker
  cases hheld

theorem filter_internal_iff_booked :
    Schema.isInternal "gl2_reserved_ip" = true ∧
      ((sample .legacy).filter bookedRecord).record.get? "gl2_reserved_ip" = some (.bool true) := by
  have hname : Schema.isInternal "gl2_reserved_ip" = true := by decide
  refine ⟨hname, ?_⟩
  rw [(filter_internal_iff (sample .legacy) bookedRecord).1 _ hname, internalFields,
    if_pos ⟨rfl, rfl⟩, derivedFields_of_address? address?_bookedRecord, addressFields,
    if_pos (by decide)]
  rfl

end Engine

end GeoTag
