import GeoTag.Proofs.Snapshot

/-!
# Enrichment as an append

Where no field of a record has a name derived from one of its addresses (`Engine.Fresh`), a run adds
the derived fields of each candidate, in the order of the candidates, behind the fields that were
there, and changes none of these (`fields_filter_of_fresh`).
-/

namespace GeoTag

namespace Engine

/-- No field has a name derived from a candidate field that holds an address. -/
def Fresh (engine : Engine) (record : Record) : Prop :=
  ∀ field ∈ engine.schema.candidates record, ∀ address, record.address? field = some address →
    ∀ name ∈ engine.schema.derivedNames field, name ∉ record.names

theorem Fresh.notMem_names {engine : Engine} {record : Record} (fresh : engine.Fresh record)
    {field : String} (hfield : field ∈ engine.schema.candidates record) {name : String}
    (h : name ∈ Keyed.names (engine.derivedFields record field)) : name ∉ record.names := by
  cases haddress : record.address? field with
  | none => simp [derivedFields, haddress, Keyed.names] at h
  | some address => exact fresh field hfield address haddress name (mem_derivedNames_of_mem_names h)

theorem Fresh.separate {engine : Engine} {record : Record} (fresh : engine.Fresh record) :
    engine.Separate record (engine.schema.candidates record) := by
  intro f hf g hg hmem
  have hold : g ∈ record.names := ((engine.schema.mem_candidates_iff record g).1 hg).1
  exact fresh.notMem_names hf hmem hold

/-- An enabled engine appends to a fresh record the rows of its candidates one after the other.
The names of each row keep the order of the schema, and no derived name occurs twice. -/
theorem fields_filter_of_fresh {engine : Engine} (enabled : engine.enabled = true)
    {record : Record} (fresh : engine.Fresh record) :
    (engine.filter record).record.fields =
        record.fields ++
          (engine.schema.candidates record).flatMap (engine.derivedFields record) ∧
      (∀ field ∈ engine.schema.candidates record,
        (Keyed.names (engine.derivedFields record field)).Sublist
          (engine.schema.derivedNames field)) ∧
      (Keyed.names ((engine.schema.candidates record).flatMap
        (engine.derivedFields record))).Nodup := by
  refine ⟨?_, fun field _ => engine.names_derivedFields record field,
    engine.nodup_names_allDerivedFields record⟩
  rw [record_filter_of_separate enabled fresh.separate]
  apply Record.fields_putAll (engine.nodup_names_allDerivedFields record)
  intro name hname
  obtain ⟨value, hvalue⟩ := Keyed.mem_names_iff.1 hname
  obtain ⟨field, hfield, hmem⟩ := (engine.mem_allDerivedFields_iff record (name, value)).1 hvalue
  exact fresh.notMem_names hfield (Keyed.mem_names_iff.2 ⟨value, hmem⟩)

/-- A record with a public and a reserved address around a text that is none. -/
def freshRecord : Record :=
  Record.empty.putAll
    [("client", .string "8.8.8.8"), ("note", .string "8.8.8"), ("gateway", .string "fe80::1%eth0")]

theorem fields_filter_of_fresh_sample :
    (sample .legacy).enabled = true ∧ (sample .legacy).Fresh freshRecord ∧
      Keyed.names ((sample .legacy).filter freshRecord).record.fields =
        ["client", "note", "gateway", "client_geolocation", "client_country_code",
          "client_city_name", "client_region", "client_country", "client_timezone",
          "gateway_reserved_ip"] := by
  have fresh : (sample .legacy).Fresh freshRecord := by
    have key : ∀ field ∈ Schema.legacy.candidates freshRecord,
        ∀ name ∈ Schema.legacy.derivedNames field, name ∉ freshRecord.names := by decide
    intro field hfield _ _
    exact key field hfield
  refine ⟨rfl, fresh, ?_⟩
  rw [(fields_filter_of_fresh rfl fresh).1]
  decide

end Engine

end GeoTag
