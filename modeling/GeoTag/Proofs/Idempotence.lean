import GeoTag.Proofs.Derivation
import GeoTag.Proofs.LiteralAlphabet

/-!
# Enriching twice

A second run finds an address in a candidate field only where the first run found the same one and
overwrote nothing (`Engine.Settled`, kept by every visit), so it writes what stands there already.
For this no derived field may put a new address into a candidate field (`Engine.Inert`): the strict
schema looks at no derived name, and the legacy schema writes, besides coordinates, only the names of
a location.  `record_filter_filter` draws the conclusion for both schemas.
-/

namespace GeoTag

theorem Address.ofText?_coordinates (location : Location) :
    Address.ofText? location.coordinates = none := by
  have hmem : ',' ∈ location.coordinates.toList := by
    rw [Location.coordinates, String.toList_ofList]
    exact List.mem_append_right _ List.mem_cons_self
  exact Address.ofText?_eq_none_of_mem hmem (by decide) (by decide) (by decide) (by decide)

/-- None of the names of the location spells an address. -/
def Location.SpellsNoAddress (location : Location) : Prop :=
  ∀ name ∈ [location.countryCode, location.country, location.city, location.region,
    location.timeZone], Address.ofText? name = none

namespace Engine

/-! ## Derived fields that hold no address -/

/-- No derived field that an engine may look at holds an address. -/
def Inert (engine : Engine) : Prop :=
  ∀ field address, engine.schema.isCandidate field = true →
    ∀ f ∈ engine.addressFields (engine.schema.stem field) address,
      engine.schema.isCandidate f.1 = true → f.2.address? = none

theorem inert_of_strict {engine : Engine} (strict : engine.schema = .strict) : engine.Inert := by
  intro field address hfield f hf hcandidate
  have hderived : f.1 ∈ engine.schema.derivedNames field :=
    (engine.names_addressFields field address).subset (List.mem_map_of_mem hf)
  rw [strict] at hfield hcandidate hderived
  rw [Schema.not_isCandidate_of_mem_derivedNames hfield hderived] at hcandidate
  cases hcandidate

theorem address?_of_mem_legacyRow {location : Location} (plain : location.SpellsNoAddress)
    {timeZone : Bool} {stem : String} {f : String × FieldValue}
    (h : f ∈ Policy.legacyRow timeZone stem location) : f.2.address? = none := by
  simp only [Location.SpellsNoAddress, List.forall_mem_cons] at plain
  obtain ⟨code, country, city, region, zone, -⟩ := plain
  simp only [Policy.legacyRow, List.mem_append, List.mem_ite_nil_right, List.mem_cons,
    List.not_mem_nil, or_false] at h
  rcases h with (rfl | rfl | rfl | rfl | rfl) | ⟨-, rfl⟩
  · exact Address.ofText?_coordinates location
  · exact code
  · exact city
  · exact region
  · exact country
  · exact zone

theorem inert_of_legacy {engine : Engine} (legacy : engine.schema = .legacy)
    (plain : ∀ address location, engine.city.find? address = some location →
      location.SpellsNoAddress) : engine.Inert := by
  intro field address _ f hf _
  unfold addressFields at hf
  split at hf
  · rw [List.mem_singleton.1 hf]
    rfl
  · rw [legacy] at hf
    obtain ⟨location, hlocation, hmem⟩ := List.mem_flatMap.1 hf
    exact address?_of_mem_legacyRow (plain address location (Option.mem_toList.1 hlocation)) hmem

/-! ## The invariant of a run -/

/-- A record on its way through a run: a candidate that holds an address held it from the start, and
the fields derived from the visited candidates stand as they were written. -/
structure Settled (engine : Engine) (start : Record) (visited : List String) (record : Record) :
    Prop where
  held : ∀ name address, engine.schema.isCandidate name = true →
    record.address? name = some address → start.address? name = some address
  derived : ∀ name ∈ visited, ∀ f ∈ engine.derivedFields record name,
    record.get? f.1 = some f.2

/-- A visit never writes under the name of a candidate that holds an address afterwards. -/
theorem get?_writeDerived_of_address? {engine : Engine} (inert : engine.Inert) {record : Record}
    {name other : String} (hname : engine.schema.isCandidate name = true)
    (hother : engine.schema.isCandidate other = true) {address : Address}
    (h : (engine.writeDerived record name).address? other = some address) :
    (engine.writeDerived record name).get? other = record.get? other := by
  apply Record.get?_putAll_of_notMem
  intro hmem
  obtain ⟨value, hvalue⟩ := Keyed.mem_names_iff.1 hmem
  have hget : (engine.writeDerived record name).get? other = some value :=
    Record.get?_putAll_of_mem (engine.nodup_names_derivedFields record name) hvalue record
  obtain ⟨source, hsource⟩ := exists_address?_of_mem_derivedFields hvalue
  rw [derivedFields_of_address? hsource] at hvalue
  have hnone : value.address? = none := inert name source hname (other, value) hvalue hother
  rw [Record.address?, hget, Option.bind_some, hnone] at h
  cases h

theorem Settled.writeDerived {engine : Engine} (inert : engine.Inert) {start record : Record}
    {visited : List String} (hvisited : ∀ g ∈ visited, engine.schema.isCandidate g = true)
    {name : String} (hname : engine.schema.isCandidate name = true)
    (h : engine.Settled start visited record) :
    engine.Settled start (visited ++ [name]) (engine.writeDerived record name) where
  held g address hg haddress := by
    have hget := get?_writeDerived_of_address? inert hname hg haddress
    rw [Record.address?, hget] at haddress
    exact h.held g address hg haddress
  derived g hg f hf := by
    have hcandidate : engine.schema.isCandidate g = true := by
      rcases List.mem_append.1 hg with hg | hg
      · exact hvisited g hg
      · rw [List.mem_singleton.1 hg]
        exact hname
    obtain ⟨address, haddress⟩ := exists_address?_of_mem_derivedFields hf
    have hget := get?_writeDerived_of_address? inert hname hcandidate haddress
    rw [engine.derivedFields_congr hget] at hf
    by_cases hgn : g = name
    · rw [hgn] at hf
      exact Record.get?_putAll_of_mem (engine.nodup_names_derivedFields record name) hf record
    · -- The row just written is of another candidate, so it shares no name with the row of `g`.
      have hfresh : f.1 ∉ Keyed.names (engine.derivedFields record name) := by
        intro hmem
        exact hgn (engine.schema.eq_of_mem_derivedNames hcandidate hname
          (mem_derivedNames_of_mem_names (List.mem_map_of_mem hf))
          (mem_derivedNames_of_mem_names hmem))
      have hold : g ∈ visited := by simpa [hgn] using hg
      rw [Engine.writeDerived, Record.get?_putAll_of_notMem hfresh]
      exact h.derived g hold f hf

theorem Settled.foldl_writeDerived {engine : Engine} (inert : engine.Inert) {start : Record}
    {names : List String} (hnames : ∀ g ∈ names, engine.schema.isCandidate g = true)
    {visited : List String} (hvisited : ∀ g ∈ visited, engine.schema.isCandidate g = true)
    {record : Record} (h : engine.Settled start visited record) :
    engine.Settled start (visited ++ names) (names.foldl engine.writeDerived record) := by
  induction names generalizing visited record with
  | nil => simpa using h
  | cons name names ih =>
    have hname : engine.schema.isCandidate name = true := hnames name List.mem_cons_self
    have hlater : ∀ g ∈ visited ++ [name], engine.schema.isCandidate g = true := by
      intro g hg
      rcases List.mem_append.1 hg with hg | hg
      · exact hvisited g hg
      · rw [List.mem_singleton.1 hg]
        exact hname
    have := ih (fun g hg => hnames g (List.mem_cons_of_mem name hg)) hlater
      (h.writeDerived inert hvisited hname)
    rwa [List.append_assoc, List.singleton_append] at this

theorem settled_filter {engine : Engine} (inert : engine.Inert) (enabled : engine.enabled = true)
    (record : Record) :
    engine.Settled record (engine.schema.candidates record) (engine.filter record).record := by
  rw [record_filter_of_enabled enabled]
  have start : engine.Settled record [] record :=
    ⟨fun _ _ _ h => h, fun _ h => absurd h List.not_mem_nil⟩
  have hnames : ∀ g ∈ engine.schema.candidates record, engine.schema.isCandidate g = true :=
    fun g hg => ((engine.schema.mem_candidates_iff record g).1 hg).2
  exact start.foldl_writeDerived inert hnames (fun _ h => absurd h List.not_mem_nil)

/-! ## The second run -/

theorem foldl_writeDerived_eq_self {engine : Engine} {names : List String} {record : Record}
    (h : ∀ name ∈ names, engine.writeDerived record name = record) :
    names.foldl engine.writeDerived record = record := by
  induction names with
  | nil => rfl
  | cons name names ih =>
    rw [List.foldl_cons, h name List.mem_cons_self]
    exact ih fun g hg => h g (List.mem_cons_of_mem name hg)

theorem filter_filter_of_inert {engine : Engine} (inert : engine.Inert) (record : Record) :
    (engine.filter (engine.filter record).record).record = (engine.filter record).record := by
  by_cases enabled : engine.enabled = true
  · have settled := settled_filter inert enabled record
    rw [record_filter_of_enabled enabled]
    apply foldl_writeDerived_eq_self
    intro name hname
    have hcandidate := ((engine.schema.mem_candidates_iff _ name).1 hname).2
    apply Record.putAll_eq_self
    intro f hf
    obtain ⟨address, haddress⟩ := exists_address?_of_mem_derivedFields hf
    have hstart : name ∈ record.names :=
      Record.mem_names_of_address? (settled.held name address hcandidate haddress)
    have hvisited : name ∈ engine.schema.candidates record :=
      (engine.schema.mem_candidates_iff record name).2 ⟨hstart, hcandidate⟩
    exact settled.derived name hvisited f hf
  · simp only [filter, if_neg enabled]

/-- A second run leaves the record of the first as it is: always in the strict schema, and in the
legacy schema as long as no name of a location that the source answers spells an address.  The text
of coordinates never spells one. -/
theorem record_filter_filter (engine : Engine) :
    (engine.schema = .strict → ∀ record : Record,
      (engine.filter (engine.filter record).record).record = (engine.filter record).record) ∧
    (engine.schema = .legacy →
      (∀ backend address location, engine.city.backend? = some backend →
        backend.lookup address = .ok (some location) → location.SpellsNoAddress) →
      ∀ record : Record,
        (engine.filter (engine.filter record).record).record = (engine.filter record).record) ∧
    ∀ location : Location, Address.ofText? location.coordinates = none := by
  refine ⟨fun strict record => filter_filter_of_inert (inert_of_strict strict) record, ?_,
    Address.ofText?_coordinates⟩
  intro legacy plain record
  apply filter_filter_of_inert (inert_of_legacy legacy ?_)
  intro address location hfind
  obtain ⟨backend, hbackend, hanswer⟩ := (engine.city.find?_eq_some_iff address location).1 hfind
  exact plain backend address location hbackend hanswer

/-- A record in which the city derived from the second field falls on the first, which held a public
address itself. -/
def overlaidRecord : Record :=
  Record.empty.putAll [("client_city_name", .string "8.8.8.8"), ("client", .string "8.8.8.8")]

theorem record_filter_filter_sample :
    (sample .legacy).schema = .legacy ∧
      (∀ backend address location, (sample .legacy).city.backend? = some backend →
        backend.lookup address = .ok (some location) → location.SpellsNoAddress) ∧
      ((sample .legacy).filter ((sample .legacy).filter overlaidRecord).record).record =
        ((sample .legacy).filter overlaidRecord).record := by
  have plain : ∀ backend address location, (sample .legacy).city.backend? = some backend →
      backend.lookup address = .ok (some location) → location.SpellsNoAddress := by
    intro backend address location hbackend hanswer
    obtain rfl := Option.some.inj hbackend
    have hlocation : location = sampleLocation := by
      simp only [sampleBackend] at hanswer
      split at hanswer
      · simpa using hanswer.symm
      · split at hanswer <;> cases hanswer
    rw [hlocation]
    unfold Location.SpellsNoAddress
    decide
  exact ⟨rfl, plain, (record_filter_filter (sample .legacy)).2.1 rfl plain overlaidRecord⟩

end Engine

end GeoTag
