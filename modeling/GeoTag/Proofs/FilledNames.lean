import GeoTag.Proofs.ShownNames
import GeoTag.Proofs.WrittenValues
import GeoTag.Settings.Sources

/-!
# No name is empty

What a source shows is not empty: the placeholder stands in for a name that is (`Location.Filled`,
`AsInfo.Filled`).  So an engine that asks such sources, as any engine does that settings describe
(`Settings.shipped_engine`), writes no empty text into a record, whatever its schema (`names_filled`).
-/

namespace GeoTag

/-! ## Answers -/

/-- No name of the location is empty. -/
structure Location.Filled (location : Location) : Prop where
  countryCode : location.countryCode ≠ ""
  country : location.country ≠ ""
  city : location.city ≠ ""
  region : location.region ≠ ""
  timeZone : location.timeZone ≠ ""

theorem PlaceNames.ShownIn.filled {names : PlaceNames} {location : Location}
    (h : names.ShownIn location) : location.Filled :=
  ⟨h.countryCode.ne_empty, h.country.ne_empty, h.city.ne_empty, h.region.ne_empty,
    h.timeZone.ne_empty⟩

/-- Number and organization are not empty, and the number is made of digits. -/
structure AsInfo.Filled (info : AsInfo) : Prop where
  number : info.number ≠ ""
  digits : ∀ c ∈ info.number.toList, c.isDigit = true
  organization : info.organization ≠ ""

theorem SystemNames.ShownIn.filled {names : SystemNames} {info : AsInfo} (h : names.ShownIn info) :
    info.Filled where
  number := h.number ▸ Nat.repr_ne_empty
  digits c hc := by
    rw [h.number, Nat.toString_eq_repr, Nat.repr_eq_ofList_toDigits, String.toList_ofList] at hc
    exact Nat.isDigit_of_mem_toDigits (by decide) (by decide) hc
  organization := h.organization.ne_empty

theorem filled_of_rel {told : Option SystemNames} {info : AsInfo}
    (h : Option.Rel SystemNames.ShownIn told (some info)) : info.Filled := by
  obtain ⟨names, -, hshown⟩ := exists_of_rel_some h
  exact hshown.filled

/-! ## Fields -/

/-- The value is not the empty text. -/
def FieldValue.Filled (value : FieldValue) : Prop := value ≠ .string ""

theorem FieldValue.filled_string {s : String} (h : s ≠ "") : (FieldValue.string s).Filled :=
  fun hempty => h (FieldValue.string.inj hempty)

theorem Location.coordinates_ne_empty (location : Location) : location.coordinates ≠ "" := by
  rw [Location.coordinates, Ne, ← String.toList_eq_nil_iff, String.toList_ofList]
  exact List.append_ne_nil_of_right_ne_nil _ (List.cons_ne_nil _ _)

namespace Policy

variable {stem : String} {location : Location} {f : String × FieldValue}

theorem filled_of_mem_legacyRow {timeZone : Bool} (filled : location.Filled)
    (h : f ∈ legacyRow timeZone stem location) : f.2.Filled := by
  simp only [legacyRow, List.mem_append, List.mem_ite_nil_right, List.mem_cons, List.not_mem_nil,
    or_false] at h
  rcases h with (rfl | rfl | rfl | rfl | rfl) | ⟨-, rfl⟩
  · exact FieldValue.filled_string location.coordinates_ne_empty
  · exact FieldValue.filled_string filled.countryCode
  · exact FieldValue.filled_string filled.city
  · exact FieldValue.filled_string filled.region
  · exact FieldValue.filled_string filled.country
  · exact FieldValue.filled_string filled.timeZone

theorem filled_of_mem_strictRow (filled : location.Filled) (h : f ∈ strictRow stem location) :
    f.2.Filled := by
  simp only [strictRow, List.mem_append, List.mem_ite_nil_right, List.mem_cons, List.not_mem_nil,
    or_false] at h
  rcases h with (((rfl | rfl | rfl | rfl) | ⟨-, rfl⟩) | rfl) | ⟨-, rfl⟩
  · exact FieldValue.filled_string location.coordinates_ne_empty
  · exact FieldValue.filled_string filled.countryCode
  · exact FieldValue.filled_string filled.city
  · exact FieldValue.filled_string filled.region
  · exact FieldValue.filled_string filled.country
  · exact FieldValue.filled_string filled.timeZone
  · refine FieldValue.filled_string fun hempty => filled.countryCode ?_
    exact (String.append_eq_empty_iff.1 hempty).2

theorem filled_of_mem_systemRow {info : AsInfo} (filled : info.Filled)
    (h : f ∈ systemRow stem info) : f.2.Filled := by
  simp only [systemRow, List.mem_cons, List.not_mem_nil, or_false] at h
  rcases h with rfl | rfl
  · exact FieldValue.filled_string filled.organization
  · exact FieldValue.filled_string filled.number

end Policy

/-! ## Engines -/

/-- Whatever the engine asks is one of the sources. -/
structure Engine.Shipped (engine : Engine) : Prop where
  city : ∀ backend, engine.city.backend? = some backend →
    ∃ source : LocationSource, source.backend = backend
  asn : ∀ backend, engine.asn.backend? = some backend →
    ∃ source : SystemSource, source.backend = backend

namespace Engine.Shipped

variable {engine : Engine} {address : Address}

theorem filled_location (shipped : engine.Shipped) {location : Location}
    (h : engine.city.find? address = some location) : location.Filled := by
  obtain ⟨backend, hbackend, hlookup⟩ := (Resolver.find?_eq_some_iff ..).1 h
  obtain ⟨source, rfl⟩ := shipped.city backend hbackend
  obtain ⟨names, -, hshown⟩ := Backend.exists_told_of_lookup (source.rel_answer? address) hlookup
  exact hshown.filled

theorem filled_info (shipped : engine.Shipped) {info : AsInfo}
    (h : engine.asn.find? address = some info) : info.Filled := by
  obtain ⟨backend, hbackend, hlookup⟩ := (Resolver.find?_eq_some_iff ..).1 h
  obtain ⟨source, rfl⟩ := shipped.asn backend hbackend
  obtain ⟨names, -, hshown⟩ := Backend.exists_told_of_lookup (source.rel_answer? address) hlookup
  exact hshown.filled

theorem filled_of_mem_addressFields (shipped : engine.Shipped) {stem : String}
    {f : String × FieldValue} (h : f ∈ engine.addressFields stem address) : f.2.Filled := by
  unfold addressFields at h
  split at h
  · rw [List.mem_singleton.1 h]
    exact nofun
  · split at h
    · obtain ⟨location, hfound, hmem⟩ := List.mem_flatMap.1 h
      have hfilled := shipped.filled_location (Option.mem_toList.1 hfound)
      exact Policy.filled_of_mem_legacyRow hfilled hmem
    · rcases List.mem_append.1 h with h | h
      · obtain ⟨location, hfound, hmem⟩ := List.mem_flatMap.1 h
        have hfilled := shipped.filled_location (Option.mem_toList.1 hfound)
        exact Policy.filled_of_mem_strictRow hfilled hmem
      · obtain ⟨info, hfound, hmem⟩ := List.mem_flatMap.1 h
        have hfilled := shipped.filled_info (Option.mem_toList.1 hfound)
        exact Policy.filled_of_mem_systemRow hfilled hmem

theorem filled_of_mem_derivedFields (shipped : engine.Shipped) {record : Record} {name : String}
    {f : String × FieldValue} (h : f ∈ engine.derivedFields record name) : f.2.Filled :=
  of_mem_derivedFields (fun _ _ _ hf => shipped.filled_of_mem_addressFields hf) h

/-- An empty text in a record that was enriched stood there before. -/
theorem get?_of_get?_filter (shipped : engine.Shipped) {record : Record} {name : String}
    (h : (engine.filter record).record.get? name = some (.string "")) :
    record.get? name = some (.string "") := by
  have hmem := (Keyed.get?_eq_some_iff (engine.filter record).record.nodup ..).1 h
  rcases mem_fields_filter_of (fun _ _ _ hf => shipped.filled_of_mem_addressFields hf) hmem with
    hold | hfilled
  · exact (Keyed.get?_eq_some_iff record.nodup ..).2 hold
  · exact absurd rfl hfilled

end Engine.Shipped

/-! ## Engines that settings describe -/

theorem toOption_eq_some_iff {ε α : Type} {result : Except ε α} {value : α} :
    result.toOption = some value ↔ result = .ok value := by
  cases result <;> simp [Except.toOption]

theorem RangeTable.exists_read_of_load {fs : FileSystem} {path : String} {table : RangeTable}
    (h : RangeTable.load fs path = .ok table) : ∃ read : ReadTable, read.table = table := by
  unfold load at h
  split at h
  · cases h
  next text _ =>
    split at h
    · cases h
    next hparse => exact ⟨⟨path, text, _, hparse⟩, Except.ok.inj h⟩

namespace Vendor

variable {reader : Database.Reader} {fs : FileSystem} {vendor : Vendor} {path : String}

theorem exists_source_of_openCity {locale : String} {backend : Backend Location}
    (h : vendor.openCity fs path locale reader = .ok backend) :
    ∃ source : LocationSource, source.backend = backend := by
  unfold openCity openWith at h
  split at h
  next db _ =>
    cases vendor with
    | maxMind => exact ⟨.maxMind db (Path.label path) locale, Except.ok.inj h⟩
    | ipInfo => exact ⟨.ipInfo db (Path.label path), Except.ok.inj h⟩
  · cases h

theorem exists_source_of_openAs {backend : Backend AsInfo}
    (h : vendor.openAs fs path reader = .ok backend) :
    ∃ source : SystemSource, source.backend = backend := by
  unfold openAs openWith at h
  split at h
  next db _ =>
    cases vendor with
    | maxMind => exact ⟨.maxMind db (Path.label path), Except.ok.inj h⟩
    | ipInfo => exact ⟨.ipInfo db (Path.label path), Except.ok.inj h⟩
  · cases h

end Vendor

namespace Settings

variable {reader : Database.Reader} {fs : FileSystem} {settings : Settings}

theorem exists_source_of_cityBackend? {backend : Backend Location}
    (h : settings.cityBackend? fs reader = some backend) :
    ∃ source : LocationSource, source.backend = backend := by
  obtain ⟨path, -, hopen⟩ := Option.bind_eq_some_iff.1 h
  exact Vendor.exists_source_of_openCity (toOption_eq_some_iff.1 hopen)

theorem exists_source_of_asBackend? {backend : Backend AsInfo}
    (h : settings.asBackend? fs reader = some backend) :
    ∃ source : SystemSource, source.backend = backend := by
  obtain ⟨path, -, hopen⟩ := Option.bind_eq_some_iff.1 h
  exact Vendor.exists_source_of_openAs (toOption_eq_some_iff.1 hopen)

theorem exists_source_of_cityResolver {backend : Backend Location}
    (h : (settings.cityResolver fs reader).backend? = some backend) :
    ∃ source : LocationSource, source.backend = backend := by
  unfold cityResolver at h
  split at h
  next primary table htable =>
    obtain ⟨path, -, hload⟩ := Option.bind_eq_some_iff.1 htable
    obtain ⟨read, rfl⟩ := RangeTable.exists_read_of_load (toOption_eq_some_iff.1 hload)
    rw [← Option.some.inj h]
    cases hprimary : settings.cityBackend? fs reader with
    | none => exact ⟨.around read, rfl⟩
    | some inner =>
      obtain ⟨source, rfl⟩ := exists_source_of_cityBackend? hprimary
      exact ⟨.aroundSource source read, rfl⟩
  next primary hprimary _ =>
    rw [← Option.some.inj h]
    exact exists_source_of_cityBackend? hprimary
  · cases h

theorem shipped_engine (reader : Database.Reader) (fs : FileSystem) (settings : Settings) :
    (settings.engine fs reader).Shipped := by
  unfold engine
  split
  · exact ⟨fun _ => exists_source_of_cityResolver, fun _ => exists_source_of_asBackend?⟩
  · exact ⟨nofun, nofun⟩

end Settings

/-- Whatever a record of a database says or leaves out, no name of the location made of it is empty, and
no part of the autonomous system.  So it is with whatever a source answers, tables around other sources
included; it shows the names it was told, and the placeholder for those that were empty or missing.
Engines that settings describe have such sources, whatever reads the databases.  Under either schema an
engine with such sources writes no empty text at any visit, and an empty text in a record that it enriched
stood there before. -/
theorem names_filled :
    (∀ (city : MaxMind.City) (locale : String), (city.location locale).Filled) ∧
    (∀ record : Json, (IpInfo.location record).Filled) ∧
    (∀ (system : MaxMind.System) (info : AsInfo), system.info = some info → info.Filled) ∧
    (∀ (record : Json) (info : AsInfo), IpInfo.info record = some info → info.Filled) ∧
    (∀ (source : LocationSource) (address : Address) (location : Location),
      source.backend.lookup address = .ok (some location) →
        location.Filled ∧ ∃ names, source.placeNames? address = some names ∧ names.ShownIn location) ∧
    (∀ (source : SystemSource) (address : Address) (info : AsInfo),
      source.backend.lookup address = .ok (some info) →
        info.Filled ∧ ∃ names, source.systemNames? address = some names ∧ names.ShownIn info) ∧
    (∀ (reader : Database.Reader) (fs : FileSystem) (settings : Settings),
      (settings.engine fs reader).Shipped) ∧
    ∀ engine : Engine, engine.Shipped →
      (∀ (progress : Progress) (field : String),
        (engine.visit progress field).record =
            progress.record.putAll (engine.derivedFields progress.record field) ∧
          ∀ f ∈ engine.derivedFields progress.record field, f.2.Filled) ∧
      ∀ (record : Record) (name : String),
        (engine.filter record).record.get? name = some (.string "") →
          record.get? name = some (.string "") := by
  refine ⟨fun city locale => (city.shownIn_location locale).filled,
    fun record => (IpInfo.shownIn_location record).filled, ?_, ?_, ?_, ?_, Settings.shipped_engine, ?_⟩
  · intro system info h
    exact filled_of_rel (h ▸ system.rel_info)
  · intro record info h
    exact filled_of_rel (h ▸ IpInfo.rel_info record)
  · intro source address location h
    obtain ⟨names, htold, hshown⟩ := Backend.exists_told_of_lookup (source.rel_answer? address) h
    exact ⟨hshown.filled, names, htold, hshown⟩
  · intro source address info h
    obtain ⟨names, htold, hshown⟩ := Backend.exists_told_of_lookup (source.rel_answer? address) h
    exact ⟨hshown.filled, names, htold, hshown⟩
  · intro engine shipped
    refine ⟨fun progress field => ⟨engine.record_visit progress field, ?_⟩, ?_⟩
    · exact fun f hf => shipped.filled_of_mem_derivedFields hf
    · exact fun record name h => shipped.get?_of_get?_filter h

/-- A file with one record, for the upper half of all addresses of IPv4: the number of a system, and a
country whose code is empty. -/
def sparseFile : ByteArray :=
  ⟨#[0, 0, 1, 0, 0, 17] ++ (List.replicate 16 0).toArray ++ #[0xE2, 0x47]⟩ ++ "country".toUTF8 ++
    ⟨#[0xE1, 0x48]⟩ ++ "iso_code".toUTF8 ++ ⟨#[0x40, 0x58]⟩ ++
      "autonomous_system_number".toUTF8 ++ ⟨#[0xC1, 7]⟩

/-- The database in this file. -/
def sparse : Database := ⟨⟨sparseFile, 1, 24⟩, ⟨sparseFile, 22⟩, 0⟩

/-- The sample table. -/
def sampleTable : ReadTable where
  path := "ranges.txt"
  text := RangeTable.sampleText
  table := RangeTable.tableOf (RangeTable.nameOf "ranges.txt") (RangeTable.rowsOf RangeTable.sampleText)
  parsed := RangeTable.parse_sampleText

/-- This database with the sample table around it. -/
def sparseCity : LocationSource := .aroundSource (.maxMind sparse.view "sparse" "en") sampleTable

/-- The same database, asked for autonomous systems. -/
def sparseAs : SystemSource := .maxMind sparse.view "sparse"

/-- An engine with these sources. -/
def sparseEngine (schema : Schema) : Engine where
  city := .ofBackend sparseCity.backend
  asn := .ofBackend sparseAs.backend
  policy := ⟨schema, true⟩
  enabled := true

theorem shipped_sparseEngine (schema : Schema) : (sparseEngine schema).Shipped :=
  ⟨fun _ h => ⟨sparseCity, Option.some.inj h⟩, fun _ h => ⟨sparseAs, Option.some.inj h⟩⟩

/-- The database answers for an address of its half and the table for another one.  Both locations are
filled, though the one is told an empty code and the other empty names, and so is the system, of which
nothing but the number is told. -/
theorem names_filled_sparse :
    (sparseCity.placeNames? (.v4 0xC8000001) = some ⟨some "", none, none, none, none⟩ ∧
      ∃ location, sparseCity.backend.lookup (.v4 0xC8000001) = .ok (some location) ∧
        location.Filled) ∧
    (sparseCity.placeNames? (.v4 0x0505FFFF) = some ⟨some "DE", some "", some "", some "", none⟩ ∧
      ∃ location, sparseCity.backend.lookup (.v4 0x0505FFFF) = .ok (some location) ∧
        location.Filled) ∧
    (sparseAs.systemNames? (.v4 0xC8000001) = some ⟨7, none⟩ ∧
      ∃ info, sparseAs.backend.lookup (.v4 0xC8000001) = .ok (some info) ∧ info.Filled) ∧
    ∀ schema record name,
      ((sparseEngine schema).filter record).record.get? name = some (.string "") →
        record.get? name = some (.string "") := by
  obtain ⟨-, -, -, -, hlocation, hinfo, -, hengine⟩ := names_filled
  have hdatabase : sparseCity.placeNames? (.v4 0xC8000001) =
      some ⟨some "", none, none, none, none⟩ := by decide +kernel
  have htable : sparseCity.placeNames? (.v4 0x0505FFFF) =
      some ⟨some "DE", some "", some "", some "", none⟩ := by decide +kernel
  have hsystem : sparseAs.systemNames? (.v4 0xC8000001) = some ⟨7, none⟩ := by decide +kernel
  refine ⟨⟨hdatabase, ?_⟩, ⟨htable, ?_⟩, ⟨hsystem, ?_⟩, fun schema => ?_⟩
  · obtain ⟨location, h⟩ := Backend.exists_lookup_of_told (sparseCity.rel_answer? _) hdatabase
    exact ⟨location, h, (hlocation _ _ _ h).1⟩
  · obtain ⟨location, h⟩ := Backend.exists_lookup_of_told (sparseCity.rel_answer? _) htable
    exact ⟨location, h, (hlocation _ _ _ h).1⟩
  · obtain ⟨info, h⟩ := Backend.exists_lookup_of_told (sparseAs.rel_answer? _) hsystem
    exact ⟨info, h, (hinfo _ _ _ h).1⟩
  · exact (hengine _ (shipped_sparseEngine schema)).2

end GeoTag
