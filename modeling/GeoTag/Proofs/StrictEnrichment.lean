import GeoTag.Proofs.Snapshot

/-!
# The exact effect of the strict schema

`Engine.StrictlyDerives` says which fields a record leads to: those of the address in each of its
well-known fields.  `get?_filter_strict` says that a run leaves exactly these values under these
names and touches nothing else, so that neither the order of the fields nor any other field of the
record matters to what is derived.
-/

namespace GeoTag

namespace Engine

/-- The fields that a record leads to in the strict schema: those of each address that stands in a
well-known field. -/
def StrictlyDerives (engine : Engine) (record : Record) (name : String) (value : FieldValue) :
    Prop :=
  ∃ field stem address, (field, stem) ∈ Schema.mapping ∧
    record.address? field = some address ∧ (name, value) ∈ engine.addressFields stem address

theorem mem_allDerivedFields_iff_strictlyDerives {engine : Engine}
    (strict : engine.schema = .strict) (record : Record) (name : String) (value : FieldValue) :
    (name, value) ∈ engine.allDerivedFields record ↔
      engine.StrictlyDerives record name value := by
  rw [mem_allDerivedFields_iff]
  constructor
  · rintro ⟨field, hfield, h⟩
    obtain ⟨-, hcandidate⟩ := (engine.schema.mem_candidates_iff record field).1 hfield
    rw [strict] at hcandidate
    obtain ⟨stem, hmapping⟩ := (Schema.isCandidate_strict_iff field).1 hcandidate
    cases haddress : record.address? field with
    | none => simp [derivedFields, haddress] at h
    | some address =>
      rw [derivedFields_of_address? haddress, strict,
        Schema.stem_strict_of_mem_mapping hmapping] at h
      exact ⟨field, stem, address, hmapping, haddress, h⟩
  · rintro ⟨field, stem, address, hmapping, haddress, h⟩
    refine ⟨field, (engine.schema.mem_candidates_iff record field).2 ⟨?_, ?_⟩, ?_⟩
    · exact Record.mem_names_of_address? haddress
    · rw [strict]
      exact (Schema.isCandidate_strict_iff field).2 ⟨stem, hmapping⟩
    · rw [derivedFields_of_address? haddress, strict, Schema.stem_strict_of_mem_mapping hmapping]
      exact h

theorem get?_filter_of_strictlyDerives {engine : Engine} (enabled : engine.enabled = true)
    (strict : engine.schema = .strict) {record : Record} {name : String} {value : FieldValue}
    (h : engine.StrictlyDerives record name value) :
    (engine.filter record).record.get? name = some value := by
  rw [record_filter_of_separate enabled (separate_of_strict strict record)]
  exact Record.get?_putAll_of_mem (engine.nodup_names_allDerivedFields record)
    ((mem_allDerivedFields_iff_strictlyDerives strict record name value).2 h) record

theorem get?_filter_of_not_strictlyDerives {engine : Engine} (enabled : engine.enabled = true)
    (strict : engine.schema = .strict) {record : Record} {name : String}
    (h : ¬ ∃ value, engine.StrictlyDerives record name value) :
    (engine.filter record).record.get? name = record.get? name := by
  rw [record_filter_of_separate enabled (separate_of_strict strict record)]
  apply Record.get?_putAll_of_notMem
  intro hname
  obtain ⟨value, hvalue⟩ := Keyed.mem_names_iff.1 hname
  exact h ⟨value, (mem_allDerivedFields_iff_strictlyDerives strict record name value).1 hvalue⟩

theorem strictlyDerives_congr {engine : Engine} {record other : Record}
    (h : ∀ p ∈ Schema.mapping, other.get? p.1 = record.get? p.1) (name : String)
    (value : FieldValue) :
    engine.StrictlyDerives other name value ↔ engine.StrictlyDerives record name value := by
  have address : ∀ field stem, (field, stem) ∈ Schema.mapping →
      other.address? field = record.address? field := by
    intro field stem hm
    rw [Record.address?, Record.address?, h (field, stem) hm]
  constructor
  · rintro ⟨field, stem, a, hm, ha, hfact⟩
    exact ⟨field, stem, a, hm, by rw [← address field stem hm, ha], hfact⟩
  · rintro ⟨field, stem, a, hm, ha, hfact⟩
    exact ⟨field, stem, a, hm, by rw [address field stem hm, ha], hfact⟩

/-- An enabled engine with the strict schema leaves every field that the record leads to, with its
value, and keeps everything else as it was.  Two records with equal well-known fields therefore
come out equal under every name that they agree on or that they lead to, in whatever order their
fields stand. -/
theorem get?_filter_strict {engine : Engine} (enabled : engine.enabled = true)
    (strict : engine.schema = .strict) (record : Record) :
    (∀ name value, engine.StrictlyDerives record name value →
      (engine.filter record).record.get? name = some value) ∧
    (∀ name, (¬ ∃ value, engine.StrictlyDerives record name value) →
      (engine.filter record).record.get? name = record.get? name) ∧
    ∀ other : Record, (∀ p ∈ Schema.mapping, other.get? p.1 = record.get? p.1) →
      ∀ name, (other.get? name = record.get? name ∨
          ∃ value, engine.StrictlyDerives record name value) →
        (engine.filter other).record.get? name = (engine.filter record).record.get? name := by
  refine ⟨fun name value h => get?_filter_of_strictlyDerives enabled strict h,
    fun name h => get?_filter_of_not_strictlyDerives enabled strict h, ?_⟩
  intro other hother name hname
  by_cases h : ∃ value, engine.StrictlyDerives record name value
  · obtain ⟨value, hvalue⟩ := h
    rw [get?_filter_of_strictlyDerives enabled strict hvalue]
    exact get?_filter_of_strictlyDerives enabled strict
      ((strictlyDerives_congr hother name value).2 hvalue)
  · have hequal : other.get? name = record.get? name := hname.resolve_right h
    have hno : ¬ ∃ value, engine.StrictlyDerives other name value := by
      rintro ⟨value, hvalue⟩
      exact h ⟨value, (strictlyDerives_congr hother name value).1 hvalue⟩
    rw [get?_filter_of_not_strictlyDerives enabled strict h,
      get?_filter_of_not_strictlyDerives enabled strict hno, hequal]

/-- A record with a derived name, a public address behind a blank, an address whose look-up fails
and a reserved address. -/
def sampleRecord : Record :=
  Record.empty.putAll
    [("source_geo_city", .string "unknown"), ("source_ip", .string " 8.8.8.8"),
      ("destination_ip", .address (.v4 0x09090909)), ("host_ip", .string "10.0.0.1")]

theorem get?_filter_strict_sample :
    (sample .strict).enabled = true ∧ (sample .strict).schema = .strict ∧
      ((sample .strict).filter sampleRecord).record.get? "source_geo_city" =
        some (.string "Mountain View") ∧
      ((sample .strict).filter sampleRecord).record.get? "host_reserved_ip" = some (.bool true) := by
  have enabled : (sample .strict).enabled = true := rfl
  have strict : (sample .strict).schema = .strict := rfl
  have h := get?_filter_strict enabled strict sampleRecord
  have city : (sample .strict).StrictlyDerives sampleRecord "source_geo_city"
      (.string "Mountain View") := by
    refine ⟨"source_ip", "source", .v4 0x08080808, by decide, by decide, ?_⟩
    rw [addressFields, if_neg (by decide)]
    refine List.mem_append_left _ (List.mem_flatMap.2 ⟨sampleLocation, List.mem_singleton.2 rfl, ?_⟩)
    exact List.mem_append_left _ (List.mem_append_left _ (List.mem_append_left _
      (List.mem_cons_of_mem _ (List.mem_cons_of_mem _ List.mem_cons_self))))
  have marker : (sample .strict).StrictlyDerives sampleRecord "host_reserved_ip" (.bool true) :=
    ⟨"host_ip", "host", .v4 0x0A000001, by decide, by decide, List.mem_singleton.2 rfl⟩
  exact ⟨enabled, strict, h.1 _ _ city, h.1 _ _ marker⟩

end Engine

end GeoTag
