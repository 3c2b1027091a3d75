import GeoTag.Engine
import GeoTag.Proofs.DerivedNames
import GeoTag.Proofs.Rows

/-!
# What a visit writes

A visit reads the address that a candidate field holds (`Record.address?`) and writes one row of
fields, `Engine.derivedFields`: none for a value that is no address, the marker for a reserved
address, and the rows of what is found out about any other.  `record_run` states the run of an
engine as a fold that writes these rows, and `names_derivedFields` that the names of a row are
derived names of the field, in the order of the schema.
-/

namespace GeoTag

namespace Resolver

variable {α : Type}

/-- What the backend knows about an address, if there is a backend and it does not fail. -/
def find? (resolver : Resolver α) (address : Address) : Option α :=
  resolver.backend?.bind fun backend => (backend.lookup address).toOption.join

theorem found_resolve (resolver : Resolver α) (address : Address) :
    (resolver.resolve address).found = resolver.find? address := by
  unfold find? resolve
  cases resolver.backend? with
  | none => rfl
  | some backend =>
    rw [Option.bind_some]
    cases h : backend.lookup address with
    | error fault => simp [h, Except.toOption]
    | ok answer => simp [h, Except.toOption]

theorem find?_eq_some_iff (resolver : Resolver α) (address : Address) (found : α) :
    resolver.find? address = some found ↔
      ∃ backend, resolver.backend? = some backend ∧ backend.lookup address = .ok (some found) := by
  rw [find?, Option.bind_eq_some_iff]
  refine exists_congr fun backend => and_congr_right fun _ => ?_
  cases backend.lookup address with
  | error fault => simp [Except.toOption]
  | ok answer => simp [Except.toOption]

end Resolver

/-- The address that a field holds, if there is the field and it holds one. -/
def Record.address? (record : Record) (name : String) : Option Address :=
  (record.get? name).bind FieldValue.address?

theorem Record.mem_names_of_address? {record : Record} {name : String} {address : Address}
    (h : record.address? name = some address) : name ∈ record.names := by
  rw [← record.get?_ne_none_iff]
  intro hnone
  rw [Record.address?, hnone] at h
  cases h

namespace Engine

/-- The fields that an address leads to behind a stem, in the order in which they are written. -/
def addressFields (engine : Engine) (stem : String) (address : Address) :
    List (String × FieldValue) :=
  if address.isReserved then [(stem ++ "_reserved_ip", .bool true)]
  else
    match engine.schema with
    | .legacy =>
      (engine.city.find? address).toList.flatMap
        (Policy.legacyRow engine.policy.legacyTimeZone stem)
    | .strict =>
      (engine.city.find? address).toList.flatMap (Policy.strictRow stem) ++
        (engine.asn.find? address).toList.flatMap (Policy.systemRow stem)

/-- The fields derived from a field of a record. -/
def derivedFields (engine : Engine) (record : Record) (name : String) :
    List (String × FieldValue) :=
  match record.address? name with
  | none => []
  | some address => engine.addressFields (engine.schema.stem name) address

theorem derivedFields_of_address? {engine : Engine} {record : Record} {name : String}
    {address : Address} (h : record.address? name = some address) :
    engine.derivedFields record name = engine.addressFields (engine.schema.stem name) address := by
  rw [derivedFields, h]

theorem exists_address?_of_mem_derivedFields {engine : Engine} {record : Record} {name : String}
    {f : String × FieldValue} (h : f ∈ engine.derivedFields record name) :
    ∃ address, record.address? name = some address := by
  cases haddress : record.address? name with
  | none => simp [derivedFields, haddress] at h
  | some address => exact ⟨address, rfl⟩

theorem derivedFields_congr (engine : Engine) {record other : Record} {name : String}
    (h : record.get? name = other.get? name) :
    engine.derivedFields record name = engine.derivedFields other name := by
  unfold derivedFields Record.address?
  rw [h]

/-! ## The run as a fold of writes -/

theorem record_locate (engine : Engine) (stem : String) (address : Address) (progress : Progress) :
    (engine.locate stem address progress).record =
      progress.record.putAll
        ((engine.city.find? address).toList.flatMap (engine.policy.locationFields stem)) := by
  unfold locate Progress.settle
  rw [engine.city.found_resolve address]
  cases engine.city.find? address with
  | none => rfl
  | some location => simp [Policy.putLocation]

theorem record_findSystem (engine : Engine) (stem : String) (address : Address)
    (progress : Progress) :
    (engine.findSystem stem address progress).record =
      progress.record.putAll
        (if engine.schema.wantsAs then
          (engine.asn.find? address).toList.flatMap (engine.policy.asFields stem)
        else []) := by
  unfold findSystem Progress.settle
  rw [engine.asn.found_resolve address]
  split
  · cases engine.asn.find? address with
    | none => rfl
    | some info => simp [Policy.putAs]
  · rfl

theorem record_enrich (engine : Engine) (stem : String) (address : Address) (progress : Progress) :
    (engine.enrich stem address progress).record =
      progress.record.putAll (engine.addressFields stem address) := by
  unfold enrich addressFields
  split
  · rfl
  · rw [record_findSystem, record_locate, ← Record.putAll_append]
    congr 1
    cases h : engine.schema with
    | legacy =>
      have legacy : engine.policy.schema = .legacy := h
      simp only [funext (Policy.locationFields_legacy legacy stem)]
      exact List.append_nil _
    | strict =>
      have strict : engine.policy.schema = .strict := h
      simp only [funext (Policy.locationFields_strict strict stem),
        funext (Policy.asFields_strict strict stem)]
      rfl

theorem record_visit (engine : Engine) (progress : Progress) (name : String) :
    (engine.visit progress name).record =
      progress.record.putAll (engine.derivedFields progress.record name) := by
  unfold visit derivedFields Record.address?
  cases (progress.record.get? name).bind FieldValue.address? with
  | none => rfl
  | some address => exact engine.record_enrich _ address progress

/-- A record with the fields derived from one of its fields written into it. -/
def writeDerived (engine : Engine) (record : Record) (name : String) : Record :=
  record.putAll (engine.derivedFields record name)

theorem record_foldl_visit (engine : Engine) (names : List String) (progress : Progress) :
    (names.foldl engine.visit progress).record =
      names.foldl engine.writeDerived progress.record := by
  induction names generalizing progress with
  | nil => rfl
  | cons name names ih => rw [List.foldl_cons, List.foldl_cons, ih, record_visit, writeDerived]

/-- The record of a run: each candidate in turn, read from the record as it then stands. -/
theorem record_run (engine : Engine) (record : Record) :
    (engine.run record).record =
      (engine.schema.candidates record).foldl engine.writeDerived record :=
  engine.record_foldl_visit _ _

theorem record_filter_of_enabled {engine : Engine} (enabled : engine.enabled = true)
    (record : Record) :
    (engine.filter record).record =
      (engine.schema.candidates record).foldl engine.writeDerived record := by
  rw [filter, if_pos enabled]
  exact engine.record_run record

theorem record_filter_of_disabled {engine : Engine} (disabled : ¬ engine.enabled = true)
    (record : Record) : (engine.filter record).record = record := by
  rw [filter, if_neg disabled]

/-! ## Names of derived fields -/

/-- What is found or not leaves the names of its row or none. -/
theorem names_flatMap_sublist {α : Type} (found : Option α) {row : α → List (String × FieldValue)}
    {names : List String} (h : ∀ x, (Keyed.names (row x)).Sublist names) :
    (Keyed.names (found.toList.flatMap row)).Sublist names := by
  cases found with
  | none => exact List.nil_sublist _
  | some x =>
    rw [Option.toList_some, List.flatMap_singleton]
    exact h x

theorem names_addressFields (engine : Engine) (name : String) (address : Address) :
    (Keyed.names (engine.addressFields (engine.schema.stem name) address)).Sublist
      (engine.schema.derivedNames name) := by
  unfold addressFields Schema.derivedNames Schema.allSuffixes
  rw [List.map_cons, List.map_append]
  split
  · exact List.singleton_sublist.2 List.mem_cons_self
  · apply List.Sublist.cons
    cases engine.schema with
    | legacy =>
      exact (names_flatMap_sublist _ (Policy.names_legacyRow _ _)).trans
        (List.sublist_append_left _ _)
    | strict =>
      rw [Keyed.names_append]
      exact (names_flatMap_sublist _ (Policy.names_strictRow _)).append
        (names_flatMap_sublist _ (Policy.names_systemRow _))

theorem names_derivedFields (engine : Engine) (record : Record) (name : String) :
    (Keyed.names (engine.derivedFields record name)).Sublist (engine.schema.derivedNames name) := by
  unfold derivedFields
  split
  · exact List.nil_sublist _
  · exact engine.names_addressFields name _

theorem mem_derivedNames_of_mem_names {engine : Engine} {record : Record} {name derived : String}
    (h : derived ∈ Keyed.names (engine.derivedFields record name)) :
    derived ∈ engine.schema.derivedNames name :=
  (engine.names_derivedFields record name).subset h

theorem nodup_names_derivedFields (engine : Engine) (record : Record) (name : String) :
    (Keyed.names (engine.derivedFields record name)).Nodup :=
  (engine.names_derivedFields record name).nodup (engine.schema.nodup_derivedNames name)

/-! ## A sample engine -/

/-- A location of which everything is known. -/
def sampleLocation : Location where
  latitude := 37.386
  longitude := -122.0838
  countryCode := "US"
  country := "United States"
  city := "Mountain View"
  region := "California"
  timeZone := "America/Los_Angeles"

/-- A source that knows 8.8.8.8, fails for 9.9.9.9 and has no answer for any other address. -/
def sampleBackend {α : Type} (answer : α) : Backend α where
  name := "sample"
  lookup address :=
    if address = .v4 0x08080808 then .ok (some answer)
    else if address = .v4 0x09090909 then .error ⟨address, .invalid⟩
    else .ok none

/-- An enabled engine with sample sources of both kinds. -/
def sample (schema : Schema) : Engine where
  city := .ofBackend (sampleBackend sampleLocation)
  asn := .ofBackend (sampleBackend (AsInfo.ofNumber 15169 "GOOGLE"))
  policy := ⟨schema, true⟩
  enabled := true

end Engine

end GeoTag
