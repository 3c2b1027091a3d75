import GeoTag.Session
import GeoTag.Proofs.Snapshot

/-!
# Which look-ups are made, and how many

A visit looks up nothing for a reserved address and otherwise asks each enabled source that the schema
has names for, whatever comes of it (`lookups_visit`).  So every look-up of a run is of a public
address, and of a system in the strict schema only (`permitted_of_mem_lookups_filter`).  Where no
derived field falls on a candidate, the addresses are those of the record as it was, and the timer of a
session counts one look-up for each of them and each such source (`lookups_filterAll`).
-/

namespace GeoTag

theorem Progress.lookups_settle {α : Type} (progress : Progress) (lookup : Lookup)
    (answer : Answer α) (write : Record → α → Record) :
    (progress.settle lookup answer write).lookups =
      progress.lookups ++ if answer.asked then [lookup] else [] := by
  unfold settle
  cases answer.asked with
  | true => rfl
  | false => exact (List.append_nil _).symm

theorem Schema.wantsAs_iff (schema : Schema) : schema.wantsAs = true ↔ schema = .strict := by
  cases schema <;> decide

/-- No field of the record has a name that is derived from another of its candidates. -/
def Schema.Untangled (schema : Schema) (record : Record) : Prop :=
  ∀ field ∈ schema.candidates record, ∀ name ∈ record.names, name ≠ field →
    name ∉ schema.derivedNames field

instance (schema : Schema) (record : Record) : Decidable (schema.Untangled record) :=
  inferInstanceAs (Decidable (∀ field ∈ schema.candidates record, ∀ name ∈ record.names,
    name ≠ field → name ∉ schema.derivedNames field))

/-- No candidate has a name that is derived from a candidate; in the strict schema this is so of every
record. -/
theorem Schema.notMem_derivedNames_of_untangled {schema : Schema} {record : Record}
    (untangled : schema = .legacy → schema.Untangled record) {field name : String}
    (hfield : field ∈ schema.candidates record) (hname : name ∈ schema.candidates record) :
    name ∉ schema.derivedNames field := by
  obtain ⟨-, hcandidate⟩ := (schema.mem_candidates_iff record field).1 hfield
  obtain ⟨hheld, hother⟩ := (schema.mem_candidates_iff record name).1 hname
  cases schema with
  | strict =>
    intro hderived
    rw [not_isCandidate_of_mem_derivedNames hcandidate hderived] at hother
    cases hother
  | legacy =>
    by_cases heq : name = field
    · rw [heq]
      exact Schema.legacy.notMem_derivedNames_self hcandidate
    · exact untangled rfl field hfield name hheld heq

namespace Engine

variable {engine : Engine}

/-! ## One visit -/

/-- The look-ups that an address leads to, in order. -/
def lookupsFor (engine : Engine) (address : Address) : List Lookup :=
  if address.isReserved then []
  else
    (if engine.city.isEnabled then [⟨.location, address⟩] else []) ++
      if engine.schema = .strict ∧ engine.asn.isEnabled = true then [⟨.autonomousSystem, address⟩]
      else []

/-- The look-ups that a field of a record leads to. -/
def lookupsAt (engine : Engine) (record : Record) (name : String) : List Lookup :=
  match record.address? name with
  | none => []
  | some address => engine.lookupsFor address

theorem lookupsAt_congr (engine : Engine) {record other : Record} {name : String}
    (h : record.get? name = other.get? name) :
    engine.lookupsAt record name = engine.lookupsAt other name := by
  unfold lookupsAt Record.address?
  rw [h]

theorem lookups_locate (engine : Engine) (stem : String) (address : Address)
    (progress : Progress) :
    (engine.locate stem address progress).lookups =
      progress.lookups ++ if engine.city.isEnabled then [⟨.location, address⟩] else [] := by
  rw [locate, Progress.lookups_settle, engine.city.asked_resolve address]

theorem lookups_findSystem (engine : Engine) (stem : String) (address : Address)
    (progress : Progress) :
    (engine.findSystem stem address progress).lookups =
      progress.lookups ++
        if engine.schema = .strict ∧ engine.asn.isEnabled = true then
          [⟨.autonomousSystem, address⟩]
        else [] := by
  unfold findSystem
  by_cases h : engine.schema = .strict
  · rw [if_pos ((Schema.wantsAs_iff _).2 h), Progress.lookups_settle,
      engine.asn.asked_resolve address]
    simp only [h, true_and]
  · rw [if_neg fun hwants => h ((Schema.wantsAs_iff _).1 hwants)]
    simp only [h, false_and, if_false, List.append_nil]

theorem lookups_enrich (engine : Engine) (stem : String) (address : Address)
    (progress : Progress) :
    (engine.enrich stem address progress).lookups =
      progress.lookups ++ engine.lookupsFor address := by
  unfold enrich lookupsFor
  split
  · exact (List.append_nil _).symm
  · rw [lookups_findSystem, lookups_locate, List.append_assoc]

theorem lookups_visit (engine : Engine) (progress : Progress) (name : String) :
    (engine.visit progress name).lookups =
      progress.lookups ++ engine.lookupsAt progress.record name := by
  unfold visit lookupsAt Record.address?
  cases (progress.record.get? name).bind FieldValue.address? with
  | none => exact (List.append_nil _).symm
  | some address => exact engine.lookups_enrich _ address progress

/-- Two runs in which every visit keeps the records in a relation and looks up the same leave records
in that relation and have looked up the same. -/
theorem foldl_visit_rel {relation : Record → Record → Prop} {names : List String}
    (step : ∀ name ∈ names, ∀ a b, relation a b →
      relation (engine.writeDerived a name) (engine.writeDerived b name) ∧
        engine.lookupsAt a name = engine.lookupsAt b name)
    {p q : Progress} (hrecord : relation p.record q.record) (hlookups : p.lookups = q.lookups) :
    relation (names.foldl engine.visit p).record (names.foldl engine.visit q).record ∧
      (names.foldl engine.visit p).lookups = (names.foldl engine.visit q).lookups := by
  induction names generalizing p q with
  | nil => exact ⟨hrecord, hlookups⟩
  | cons name names ih =>
    obtain ⟨hkept, hsame⟩ := step name List.mem_cons_self p.record q.record hrecord
    rw [List.foldl_cons, List.foldl_cons]
    apply ih fun other hother => step other (List.mem_cons_of_mem name hother)
    · rw [record_visit, record_visit]
      exact hkept
    · rw [lookups_visit, lookups_visit, hlookups, hsame]

/-! ## What may be looked up -/

/-- A look-up that an engine may make: of a public address, and of a system only in the strict
schema. -/
def Permits (engine : Engine) (lookup : Lookup) : Prop :=
  lookup.address.isReserved = false ∧ (engine.schema = .legacy → lookup.topic = .location)

theorem permits_of_mem_lookupsFor {address : Address} {lookup : Lookup}
    (h : lookup ∈ engine.lookupsFor address) : engine.Permits lookup := by
  unfold lookupsFor at h
  split at h
  · cases h
  · rename_i hpublic
    rcases List.mem_append.1 h with h | h
    · split at h
      · obtain rfl := List.mem_singleton.1 h
        exact ⟨Bool.eq_false_iff.2 hpublic, fun _ => rfl⟩
      · cases h
    · split at h
      · rename_i hstrict
        obtain rfl := List.mem_singleton.1 h
        refine ⟨Bool.eq_false_iff.2 hpublic, fun legacy => ?_⟩
        rw [hstrict.1] at legacy
        cases legacy
      · cases h

theorem permits_of_mem_lookupsAt {record : Record} {name : String} {lookup : Lookup}
    (h : lookup ∈ engine.lookupsAt record name) : engine.Permits lookup := by
  unfold lookupsAt at h
  split at h
  · cases h
  · exact permits_of_mem_lookupsFor h

theorem permits_of_mem_lookups_foldl {names : List String} {progress : Progress}
    (hstart : ∀ lookup ∈ progress.lookups, engine.Permits lookup) :
    ∀ lookup ∈ (names.foldl engine.visit progress).lookups, engine.Permits lookup := by
  induction names generalizing progress with
  | nil => exact hstart
  | cons name names ih =>
    apply ih
    rw [lookups_visit]
    intro lookup hlookup
    rcases List.mem_append.1 hlookup with h | h
    · exact hstart lookup h
    · exact permits_of_mem_lookupsAt h

/-- An engine makes no look-up that it does not permit, and none at all when it is disabled. -/
theorem permitted_of_mem_lookups_filter {record : Record} {lookup : Lookup}
    (h : lookup ∈ (engine.filter record).lookups) :
    engine.enabled = true ∧ engine.Permits lookup := by
  unfold filter at h
  split at h
  · rename_i enabled
    exact ⟨enabled, permits_of_mem_lookups_foldl (fun _ h => absurd h List.not_mem_nil) lookup h⟩
  · cases h

/-! ## How many look-ups a record asks for -/

/-- How many look-ups each public address asks for. -/
def perAddress (engine : Engine) : Nat :=
  (if engine.city.isEnabled then 1 else 0) +
    if engine.schema = .strict ∧ engine.asn.isEnabled = true then 1 else 0

/-- The candidates of a record that hold a public address. -/
def publicFields (engine : Engine) (record : Record) : List String :=
  (engine.schema.candidates record).filter fun name =>
    (record.address? name).any fun address => !address.isReserved

/-- How many look-ups the public addresses of a record ask for; a disabled engine asks for none. -/
def due (engine : Engine) (record : Record) : Nat :=
  if engine.enabled then (engine.publicFields record).length * engine.perAddress else 0

theorem length_lookupsFor (engine : Engine) (address : Address) :
    (engine.lookupsFor address).length =
      if address.isReserved then 0 else engine.perAddress := by
  unfold lookupsFor perAddress
  split
  · rfl
  · rw [List.length_append]
    congr 1 <;> split <;> rfl

theorem length_lookupsAt (engine : Engine) (record : Record) (name : String) :
    (engine.lookupsAt record name).length =
      if (record.address? name).any (fun address => !address.isReserved) then engine.perAddress
      else 0 := by
  unfold lookupsAt
  cases record.address? name with
  | none => rfl
  | some address =>
    dsimp only
    rw [length_lookupsFor]
    cases h : address.isReserved <;> simp [h]

theorem length_flatMap_lookupsAt (engine : Engine) (record : Record) (names : List String) :
    (names.flatMap (engine.lookupsAt record)).length =
      (names.filter fun name => (record.address? name).any fun address =>
        !address.isReserved).length * engine.perAddress := by
  induction names with
  | nil => exact (Nat.zero_mul _).symm
  | cons name names ih =>
    rw [List.flatMap_cons, List.length_append, length_lookupsAt, ih, List.filter_cons]
    split
    · rw [List.length_cons, Nat.add_mul, Nat.one_mul, Nat.add_comm]
    · exact Nat.zero_add _

theorem lookups_foldl_visit_of_separate {names : List String} {record : Record}
    (separate : engine.Separate record names) {progress : Progress}
    (hrecord : progress.record = record) :
    (names.foldl engine.visit progress).lookups =
      progress.lookups ++ names.flatMap (engine.lookupsAt record) := by
  induction names generalizing record progress with
  | nil => exact (List.append_nil _).symm
  | cons name names ih =>
    subst hrecord
    have keep : names.map (engine.lookupsAt (engine.writeDerived progress.record name)) =
        names.map (engine.lookupsAt progress.record) :=
      List.map_congr_left fun other hother =>
        engine.lookupsAt_congr (separate.get?_writeDerived hother)
    rw [List.foldl_cons, ih separate.writeDerived (engine.record_visit progress name),
      lookups_visit, List.append_assoc, List.flatMap_cons, List.flatMap_def, keep,
      ← List.flatMap_def]

theorem length_lookups_filter {record : Record}
    (separate : engine.Separate record (engine.schema.candidates record)) :
    (engine.filter record).lookups.length = engine.due record := by
  unfold filter due
  split
  · show ((engine.schema.candidates record).foldl engine.visit ⟨record, []⟩).lookups.length = _
    rw [lookups_foldl_visit_of_separate separate rfl]
    exact engine.length_flatMap_lookupsAt record _
  · rfl

theorem separate_of_legacy_untangled {record : Record}
    (untangled : engine.schema = .legacy → engine.schema.Untangled record) :
    engine.Separate record (engine.schema.candidates record) :=
  fun _ hfield _ hname hmem => engine.schema.notMem_derivedNames_of_untangled untangled hfield hname
    (mem_derivedNames_of_mem_names hmem)

end Engine

/-! ## The timer of a session -/

theorem Latency.Timer.count_recordAll (timer : Latency.Timer) (times : List UInt64) :
    (timer.recordAll times).count = timer.count + times.length := by
  induction times generalizing timer with
  | nil => rfl
  | cons time times ih =>
    show ((timer.record time).recordAll times).count = _
    rw [ih, List.length_cons]
    show timer.count + 1 + times.length = _
    omega

namespace Session

theorem count_filter (session : Session) (elapsed : Lookup → UInt64) (record : Record) :
    (session.filter elapsed record).2.timer.count =
      session.timer.count + (session.engine.filter record).lookups.length := by
  show (session.timer.recordAll _).count = _
  rw [Latency.Timer.count_recordAll, List.length_map]

/-- One sample is taken for each look-up, whatever came of it. -/
theorem count_filterAll (session : Session) (elapsed : Lookup → UInt64) (records : List Record) :
    (session.filterAll elapsed records).2.timer.count =
      session.timer.count +
        (records.map fun record => (session.engine.filter record).lookups.length).foldr
          (· + ·) 0 := by
  induction records generalizing session with
  | nil => rfl
  | cons record records ih =>
    show ((session.filter elapsed record).2.filterAll elapsed records).2.timer.count = _
    rw [ih, count_filter, List.map_cons, List.foldr_cons, Nat.add_assoc]
    rfl

/-- Each record is enriched for itself. -/
theorem fst_filterAll (session : Session) (elapsed : Lookup → UInt64) (records : List Record) :
    (session.filterAll elapsed records).1 = records.map session.engine.filter := by
  induction records generalizing session with
  | nil => rfl
  | cons record records ih => exact congrArg _ (ih (session.filter elapsed record).2)

theorem exists_filter_of_mem_filterAll {session : Session} {elapsed : Lookup → UInt64}
    {records : List Record} {filtered : Filtered}
    (h : filtered ∈ (session.filterAll elapsed records).1) :
    ∃ record ∈ records, filtered = session.engine.filter record := by
  rw [fst_filterAll] at h
  obtain ⟨record, hrecord, heq⟩ := List.mem_map.1 h
  exact ⟨record, hrecord, heq.symm⟩

/-- Whatever records a session filters, it looks up only public addresses, only locations in the
legacy schema, and nothing when its engine is disabled.  Where the legacy schema finds no field under a
name derived from another candidate, the timer counts what the public addresses of the records ask
for. -/
theorem lookups_filterAll (session : Session) (elapsed : Lookup → UInt64) (records : List Record) :
    (∀ filtered ∈ (session.filterAll elapsed records).1, ∀ lookup ∈ filtered.lookups,
      session.engine.enabled = true ∧ lookup.address.isReserved = false ∧
        (session.engine.schema = .legacy → lookup.topic = .location)) ∧
    ((session.engine.schema = .legacy →
        ∀ record ∈ records, session.engine.schema.Untangled record) →
      (session.filterAll elapsed records).2.timer.count =
        session.timer.count + (records.map session.engine.due).foldr (· + ·) 0) := by
  constructor
  · intro filtered hfiltered lookup hlookup
    obtain ⟨record, -, rfl⟩ := exists_filter_of_mem_filterAll hfiltered
    exact Engine.permitted_of_mem_lookups_filter hlookup
  · intro untangled
    have hlengths : (records.map fun record => (session.engine.filter record).lookups.length) =
        records.map session.engine.due :=
      List.map_congr_left fun record hrecord => Engine.length_lookups_filter
        (Engine.separate_of_legacy_untangled fun legacy => untangled legacy record hrecord)
    rw [count_filterAll, hlengths]

/-- Two records with four public addresses, one of which has no answer and one of which fails, beside
a reserved address and a text that is none. -/
def sampleRecords : List Record :=
  [Record.empty.putAll
      [("client", .string "8.8.8.8"), ("proxy", .string "9.9.9.9"), ("gateway", .string "10.0.0.1")],
    Record.empty.putAll
      [("client", .string "1.1.1.1"), ("proxy", .address (.v4 0x08080808)), ("note", .string "8.8")]]

theorem lookups_filterAll_sample :
    (∀ record ∈ sampleRecords, Schema.legacy.Untangled record) ∧
      ((start (Engine.sample .legacy)).filterAll (fun _ => 1) sampleRecords).2.timer.count = 4 := by
  have untangled : ∀ record ∈ sampleRecords, Schema.legacy.Untangled record := by
    intro record hrecord
    simp only [sampleRecords, List.mem_cons, List.not_mem_nil, or_false] at hrecord
    rcases hrecord with rfl | rfl <;> decide
  refine ⟨untangled, ?_⟩
  rw [(lookups_filterAll (start (Engine.sample .legacy)) (fun _ => 1) sampleRecords).2
    fun _ => untangled]
  decide

end Session

end GeoTag
