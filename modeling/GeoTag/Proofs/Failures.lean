import GeoTag.Proofs.LookupCount
import GeoTag.Proofs.Turns

/-!
# Look-ups that fail

A failure and a look-up without an answer come to the same: with sources that answer nothing where the
sources of an engine fail, every record comes out as before, after the same look-ups.  With sources
that may know something there (`Backend.Covers`), a visit writes other fields only under the names
derived from the field that it visits.  A failure therefore bears on those names and, where a candidate
stands under one of them, on the names derived from that one (`Engine.Reached`).  All other fields
stay, turn by turn, as they would have been without it (`Engine.InStep`).
-/

namespace GeoTag

namespace Backend

variable {α : Type}

/-- A source gives every answer that another source gives. -/
def Covers (other backend : Backend α) : Prop :=
  ∀ address answer, backend.lookup address = .ok answer → other.lookup address = .ok answer

/-- A source answers as another source does, and nothing where that one fails. -/
structure Excuses (other backend : Backend α) : Prop where
  covers : other.Covers backend
  nothing : ∀ address fault, backend.lookup address = .error fault → other.lookup address = .ok none

end Backend

namespace Resolver

variable {α : Type} {other resolver : Resolver α} {address : Address}

/-- The backend fails for an address. -/
def FailsAt (resolver : Resolver α) (address : Address) : Prop :=
  ∃ backend fault, resolver.backend? = some backend ∧ backend.lookup address = .error fault

theorem FailsAt.isEnabled (h : resolver.FailsAt address) : resolver.isEnabled = true := by
  obtain ⟨backend, fault, hbackend, -⟩ := h
  rw [Resolver.isEnabled, hbackend]
  rfl

theorem isEnabled_eq_of_rel {relation : Backend α → Backend α → Prop}
    (h : Option.Rel relation other.backend? resolver.backend?) :
    other.isEnabled = resolver.isEnabled := by
  obtain ⟨otherBackend?⟩ := other
  obtain ⟨backend?⟩ := resolver
  cases h with
  | none => rfl
  | some _ => rfl

/-- Two resolvers find the same where what their backends know is the same. -/
theorem find?_eq_of_rel {relation : Backend α → Backend α → Prop}
    (h : Option.Rel relation other.backend? resolver.backend?)
    (same : ∀ source backend, relation source backend → resolver.backend? = some backend →
      (source.lookup address).toOption.join = (backend.lookup address).toOption.join) :
    other.find? address = resolver.find? address := by
  obtain ⟨otherBackend?⟩ := other
  obtain ⟨backend?⟩ := resolver
  cases h with
  | none => rfl
  | @some source backend related => exact same source backend related rfl

theorem find?_eq_of_covers (h : Option.Rel Backend.Covers other.backend? resolver.backend?)
    (holds : ¬ resolver.FailsAt address) : other.find? address = resolver.find? address := by
  refine find?_eq_of_rel h fun source backend covers hbackend => ?_
  cases hlookup : backend.lookup address with
  | ok answer => rw [covers address answer hlookup]
  | error fault => exact absurd ⟨backend, fault, hbackend, hlookup⟩ holds

theorem find?_eq_of_excuses (h : Option.Rel Backend.Excuses other.backend? resolver.backend?) :
    other.find? address = resolver.find? address := by
  refine find?_eq_of_rel h fun source backend excuses _ => ?_
  cases hlookup : backend.lookup address with
  | ok answer => rw [excuses.covers address answer hlookup]
  | error fault =>
    rw [excuses.nothing address fault hlookup]
    rfl

end Resolver

namespace Engine

variable {engine other : Engine} {record : Record}

/-! ## Engines with other sources -/

/-- Two engines with one policy, enabled alike, of which each source of one is related to that of the
other. -/
structure SourcesRelated (relation : ∀ {α : Type}, Backend α → Backend α → Prop)
    (other engine : Engine) : Prop where
  city : Option.Rel relation other.city.backend? engine.city.backend?
  asn : Option.Rel relation other.asn.backend? engine.asn.backend?
  policy : other.policy = engine.policy
  enabled : other.enabled = engine.enabled

/-- The look-up fails. -/
def Fails (engine : Engine) (lookup : Lookup) : Prop :=
  match lookup.topic with
  | .location => engine.city.FailsAt lookup.address
  | .autonomousSystem => engine.asn.FailsAt lookup.address

section Related

variable {relation : ∀ {α : Type}, Backend α → Backend α → Prop}

theorem SourcesRelated.schema (h : SourcesRelated relation other engine) :
    other.schema = engine.schema :=
  congrArg Policy.schema h.policy

/-- Which look-ups are made does not depend on what comes of them. -/
theorem SourcesRelated.lookupsAt (h : SourcesRelated relation other engine) (record : Record)
    (name : String) : other.lookupsAt record name = engine.lookupsAt record name := by
  unfold Engine.lookupsAt lookupsFor
  rw [h.schema, Resolver.isEnabled_eq_of_rel h.city, Resolver.isEnabled_eq_of_rel h.asn]

end Related

/-! ## Visits -/

/-- A field leads to what is found out about the address in it, unless that is reserved. -/
theorem derivedFields_eq_of_find? {name : String} (hpolicy : other.policy = engine.policy)
    (hcity : ∀ address, record.address? name = some address → address.isReserved = false →
      other.city.find? address = engine.city.find? address)
    (hasn : ∀ address, record.address? name = some address → address.isReserved = false →
      engine.schema = .strict → other.asn.find? address = engine.asn.find? address) :
    other.derivedFields record name = engine.derivedFields record name := by
  have hschema : other.schema = engine.schema := congrArg Policy.schema hpolicy
  cases haddress : record.address? name with
  | none => rw [derivedFields, derivedFields, haddress]
  | some address =>
    rw [derivedFields_of_address? haddress, derivedFields_of_address? haddress]
    unfold addressFields
    rw [hschema, hpolicy]
    cases hreserved : address.isReserved with
    | true => rfl
    | false =>
      rw [hcity address haddress hreserved]
      cases hstrict : engine.schema with
      | legacy => rfl
      | strict => rw [hasn address haddress hreserved hstrict]

theorem derivedFields_eq_of_excuses (h : SourcesRelated Backend.Excuses other engine)
    (record : Record) (name : String) :
    other.derivedFields record name = engine.derivedFields record name :=
  derivedFields_eq_of_find? h.policy (fun _ _ _ => Resolver.find?_eq_of_excuses h.city)
    fun _ _ _ _ => Resolver.find?_eq_of_excuses h.asn

/-- A field leads to the same fields as long as no look-up fails that it leads to. -/
theorem derivedFields_eq_of_covers (h : SourcesRelated Backend.Covers other engine) {name : String}
    (holds : ∀ lookup ∈ engine.lookupsAt record name, ¬ engine.Fails lookup) :
    other.derivedFields record name = engine.derivedFields record name := by
  apply derivedFields_eq_of_find? h.policy
  · intro address haddress hpublic
    apply Resolver.find?_eq_of_covers h.city
    intro fails
    refine holds ⟨.location, address⟩ ?_ fails
    simp [lookupsAt, haddress, lookupsFor, hpublic, fails.isEnabled]
  · intro address haddress hpublic hstrict
    apply Resolver.find?_eq_of_covers h.asn
    intro fails
    refine holds ⟨.autonomousSystem, address⟩ ?_ fails
    simp [lookupsAt, haddress, lookupsFor, hpublic, hstrict, fails.isEnabled]

theorem visit_congr {progress : Progress} {name : String}
    (hfields : other.derivedFields progress.record name = engine.derivedFields progress.record name)
    (hlookups : other.lookupsAt progress.record name = engine.lookupsAt progress.record name) :
    other.visit progress name = engine.visit progress name := by
  have hrecord : (other.visit progress name).record = (engine.visit progress name).record := by
    rw [record_visit, record_visit, hfields]
  have hasked : (other.visit progress name).lookups = (engine.visit progress name).lookups := by
    rw [lookups_visit, lookups_visit, hlookups]
  cases hother : other.visit progress name
  cases hengine : engine.visit progress name
  rw [hother, hengine] at hrecord hasked
  exact congr (congrArg Progress.mk hrecord) hasked

theorem visit_eq_of_covers (h : SourcesRelated Backend.Covers other engine) {progress : Progress}
    {name : String}
    (holds : ∀ lookup ∈ engine.lookupsAt progress.record name, ¬ engine.Fails lookup) :
    other.visit progress name = engine.visit progress name :=
  visit_congr (derivedFields_eq_of_covers h holds) (h.lookupsAt progress.record name)

/-! ## Runs without a failure -/

theorem filter_eq_of_excuses (h : SourcesRelated Backend.Excuses other engine) (record : Record) :
    other.filter record = engine.filter record := by
  have hvisit : other.visit = engine.visit := by
    funext progress name
    exact visit_congr (derivedFields_eq_of_excuses h progress.record name)
      (h.lookupsAt progress.record name)
  unfold filter run
  rw [h.enabled, h.schema, hvisit]

theorem mem_lookups_foldl_visit {names : List String} {progress : Progress} {lookup : Lookup}
    (h : lookup ∈ progress.lookups) : lookup ∈ (names.foldl engine.visit progress).lookups := by
  induction names generalizing progress with
  | nil => exact h
  | cons name names ih =>
    apply ih
    rw [lookups_visit]
    exact List.mem_append_left _ h

theorem foldl_visit_eq_of_covers (h : SourcesRelated Backend.Covers other engine)
    {names : List String} {progress : Progress}
    (holds : ∀ lookup ∈ (names.foldl engine.visit progress).lookups, ¬ engine.Fails lookup) :
    names.foldl other.visit progress = names.foldl engine.visit progress := by
  induction names generalizing progress with
  | nil => rfl
  | cons name names ih =>
    have hvisit : other.visit progress name = engine.visit progress name := by
      apply visit_eq_of_covers h
      intro lookup hlookup
      apply holds lookup
      rw [List.foldl_cons]
      apply mem_lookups_foldl_visit
      rw [lookups_visit]
      exact List.mem_append_right _ hlookup
    rw [List.foldl_cons, List.foldl_cons, hvisit]
    exact ih holds

theorem filter_eq_of_covers (h : SourcesRelated Backend.Covers other engine)
    (holds : ∀ lookup ∈ (engine.filter record).lookups, ¬ engine.Fails lookup) :
    other.filter record = engine.filter record := by
  unfold filter run at holds ⊢
  rw [h.enabled, h.schema]
  split
  · rename_i enabled
    rw [if_pos enabled] at holds
    rw [foldl_visit_eq_of_covers h holds]
  · rfl

/-! ## Where a failure can show -/

/-- A run as it stands after the turns of some candidates. -/
def after (engine : Engine) (record : Record) (visited : List String) : Progress :=
  visited.foldl engine.visit ⟨record, []⟩

/-- The names that a failure bears on: those derived from a candidate for which a look-up fails when
its turn comes, and those derived from a candidate under such a name. -/
inductive Reached (engine : Engine) (record : Record) : String → Prop
  | failed {visited later : List String} {field name : String} {lookup : Lookup}
      (turn : engine.schema.candidates record = visited ++ field :: later)
      (asked : lookup ∈ engine.lookupsAt (engine.after record visited).record field)
      (fails : engine.Fails lookup) (derived : name ∈ engine.schema.derivedNames field) :
      Reached engine record name
  | onward {field name : String} (candidate : field ∈ engine.schema.candidates record)
      (reached : Reached engine record field) (derived : name ∈ engine.schema.derivedNames field) :
      Reached engine record name

/-- Two runs of a record that hold the same under every name that no failure bears on, and that have
looked up the same as long as none bears on a candidate. -/
structure InStep (engine : Engine) (record : Record) (p q : Progress) : Prop where
  value : ∀ name, ¬ engine.Reached record name → q.record.get? name = p.record.get? name
  lookups : (∀ field ∈ engine.schema.candidates record, ¬ engine.Reached record field) →
    q.lookups = p.lookups

/-- A candidate that no failure bears on leads to the same look-ups in both runs. -/
theorem InStep.lookupsAt (h : SourcesRelated Backend.Covers other engine) {p q : Progress}
    (inStep : engine.InStep record p q) {field : String} (hfield : ¬ engine.Reached record field) :
    other.lookupsAt q.record field = engine.lookupsAt p.record field := by
  rw [h.lookupsAt]
  exact engine.lookupsAt_congr (inStep.value field hfield)

theorem InStep.visit (h : SourcesRelated Backend.Covers other engine)
    {visited later : List String} {field : String}
    (turn : engine.schema.candidates record = visited ++ field :: later) {q : Progress}
    (inStep : engine.InStep record (engine.after record visited) q) :
    engine.InStep record (engine.visit (engine.after record visited) field) (other.visit q field) := by
  have hfield : field ∈ engine.schema.candidates record := by
    rw [turn]
    exact List.mem_append_right _ List.mem_cons_self
  constructor
  · intro name hname
    rw [record_visit, record_visit]
    by_cases hderived : name ∈ engine.schema.derivedNames field
    · -- The name is not reached, so neither is the field, and no look-up fails at its turn.
      have hvalue : q.record.get? field = (engine.after record visited).record.get? field :=
        inStep.value field fun reached => hname (.onward hfield reached hderived)
      have hrow : other.derivedFields q.record field =
          engine.derivedFields (engine.after record visited).record field := by
        rw [other.derivedFields_congr hvalue]
        exact derivedFields_eq_of_covers h fun lookup asked fails =>
          hname (.failed turn asked fails hderived)
      rw [hrow]
      exact Record.get?_putAll_congr (inStep.value name hname) _
    · have hother : name ∉ other.schema.derivedNames field := h.schema ▸ hderived
      have hleft := get?_writeDerived_of_notMem hother q.record
      have hright := get?_writeDerived_of_notMem hderived (engine.after record visited).record
      exact (hleft.trans (inStep.value name hname)).trans hright.symm
  · intro unreached
    rw [lookups_visit, lookups_visit, inStep.lookups unreached,
      inStep.lookupsAt h (unreached field hfield)]

theorem InStep.foldl_visit (h : SourcesRelated Backend.Covers other engine)
    {visited names later : List String}
    (turns : engine.schema.candidates record = visited ++ (names ++ later)) {q : Progress}
    (inStep : engine.InStep record (engine.after record visited) q) :
    engine.InStep record (engine.after record (visited ++ names)) (names.foldl other.visit q) := by
  induction names generalizing visited q with
  | nil => simpa using inStep
  | cons name names ih =>
    have hnext : engine.visit (engine.after record visited) name =
        engine.after record (visited ++ [name]) := by
      rw [after, after, List.foldl_append]
      rfl
    have hstep := inStep.visit h turns
    rw [hnext] at hstep
    have hsplit : visited ++ name :: names = (visited ++ [name]) ++ names := by simp
    rw [hsplit]
    exact ih (by simpa using turns) hstep

theorem inStep_after (h : SourcesRelated Backend.Covers other engine) {visited later : List String}
    (turns : engine.schema.candidates record = visited ++ later) :
    engine.InStep record (engine.after record visited) (other.after record visited) := by
  have hstart : engine.InStep record (engine.after record []) ⟨record, []⟩ :=
    ⟨fun _ _ => rfl, fun _ => rfl⟩
  have turns : engine.schema.candidates record = [] ++ (visited ++ later) := turns
  exact hstart.foldl_visit h turns

theorem inStep_filter (h : SourcesRelated Backend.Covers other engine) (record : Record) :
    engine.InStep record ⟨(engine.filter record).record, (engine.filter record).lookups⟩
      ⟨(other.filter record).record, (other.filter record).lookups⟩ := by
  unfold filter run
  rw [h.enabled, h.schema]
  split
  · exact inStep_after h (List.append_nil _).symm
  · exact ⟨fun _ _ => rfl, fun _ => rfl⟩

/-- Where no field stands under a name derived from another candidate, no failure bears on a
candidate. -/
theorem not_reached_of_untangled
    (untangled : engine.schema = .legacy → engine.schema.Untangled record) {field : String}
    (hfield : field ∈ engine.schema.candidates record) : ¬ engine.Reached record field := by
  have notDerived {other : String} (hother : other ∈ engine.schema.candidates record) :
      field ∉ engine.schema.derivedNames other :=
    engine.schema.notMem_derivedNames_of_untangled untangled hother hfield
  intro reached
  cases reached with
  | failed turn _ _ derived => exact notDerived (by simp [turn]) derived
  | onward candidate _ derived => exact notDerived candidate derived

/-- What a failure leaves of one visit as it is: the look-ups, and every field whose name is not
derived from the field that is visited. -/
theorem visit_of_covers (h : SourcesRelated Backend.Covers other engine) (progress : Progress)
    (field : String) :
    (other.visit progress field).lookups = (engine.visit progress field).lookups ∧
      ∀ name, name ∉ engine.schema.derivedNames field →
        (other.visit progress field).record.get? name =
          (engine.visit progress field).record.get? name := by
  constructor
  · rw [lookups_visit, lookups_visit, h.lookupsAt]
  · intro name hname
    have hother : name ∉ other.schema.derivedNames field := h.schema ▸ hname
    rw [record_visit, record_visit]
    exact (get?_writeDerived_of_notMem hother _).trans (get?_writeDerived_of_notMem hname _).symm

end Engine

namespace Session

open Engine

variable {session : Session} {other : Engine}

theorem filterAll_of_excuses (h : SourcesRelated Backend.Excuses other session.engine)
    (elapsed otherElapsed : Lookup → UInt64) (records : List Record) :
    ({ session with engine := other }.filterAll otherElapsed records).1 =
        (session.filterAll elapsed records).1 ∧
      ({ session with engine := other }.filterAll otherElapsed records).2.timer.count =
        (session.filterAll elapsed records).2.timer.count := by
  have hfilter : other.filter = session.engine.filter := funext (filter_eq_of_excuses h)
  constructor
  · rw [fst_filterAll, fst_filterAll, hfilter]
  · rw [count_filterAll, count_filterAll, hfilter]

/-- A failure is a look-up without an answer: sources that answer nothing where those of a session fail
leave the same records after the same look-ups, all of them counted.  Sources that know something there
write other fields, at each turn, under names derived from the candidate only.  So a record for which no
look-up fails comes out as it does in any case, and of any other record the fields that are neither
derived from a candidate for which a look-up fails nor, in turn, from such a field; what the session
looks up changes only where a candidate is such a field. -/
theorem failures_contained (session : Session) (other : Engine) :
    (SourcesRelated Backend.Excuses other session.engine →
      ∀ (elapsed otherElapsed : Lookup → UInt64) (records : List Record),
        ({ session with engine := other }.filterAll otherElapsed records).1 =
            (session.filterAll elapsed records).1 ∧
          ({ session with engine := other }.filterAll otherElapsed records).2.timer.count =
            (session.filterAll elapsed records).2.timer.count) ∧
    (SourcesRelated Backend.Covers other session.engine →
      (∀ progress field,
        (other.visit progress field).lookups = (session.engine.visit progress field).lookups ∧
          ∀ name, name ∉ session.engine.schema.derivedNames field →
            (other.visit progress field).record.get? name =
              (session.engine.visit progress field).record.get? name) ∧
      ∀ record,
        ((∀ lookup ∈ (session.engine.filter record).lookups, ¬ session.engine.Fails lookup) →
          other.filter record = session.engine.filter record) ∧
        (∀ name, ¬ session.engine.Reached record name →
          (other.filter record).record.get? name =
            (session.engine.filter record).record.get? name) ∧
        (∀ visited field later,
          session.engine.schema.candidates record = visited ++ field :: later →
          ¬ session.engine.Reached record field →
            other.lookupsAt (other.after record visited).record field =
              session.engine.lookupsAt (session.engine.after record visited).record field) ∧
        ((session.engine.schema = .legacy → session.engine.schema.Untangled record) →
          (∀ field ∈ session.engine.schema.candidates record,
            ¬ session.engine.Reached record field) ∧
          (other.filter record).lookups = (session.engine.filter record).lookups)) := by
  refine ⟨fun h => filterAll_of_excuses h, fun h => ⟨visit_of_covers h, fun record => ?_⟩⟩
  have inStep := inStep_filter h record
  refine ⟨filter_eq_of_covers h, inStep.value, ?_, ?_⟩
  · intro visited field later turn unreached
    exact (inStep_after h turn).lookupsAt h unreached
  · intro untangled
    have unreached : ∀ field ∈ session.engine.schema.candidates record,
        ¬ session.engine.Reached record field :=
      fun _ hfield => not_reached_of_untangled untangled hfield
    exact ⟨unreached, inStep.lookups unreached⟩

/-- The sample source with an answer for the address at which that one fails. -/
def patchedBackend {α : Type} (answer : α) (missed : Option α) : Backend α where
  name := "patched"
  lookup address :=
    if address = .v4 0x09090909 then .ok missed else (sampleBackend answer).lookup address

theorem patchedBackend_covers {α : Type} (answer : α) (missed : Option α) :
    (patchedBackend answer missed).Covers (sampleBackend answer) := by
  intro address found hfound
  by_cases hfails : address = .v4 0x09090909
  · subst hfails
    cases hfound
  · simp only [patchedBackend, if_neg hfails, hfound]

theorem patchedBackend_excuses {α : Type} (answer : α) :
    (patchedBackend answer none).Excuses (sampleBackend answer) where
  covers := patchedBackend_covers answer none
  nothing address fault hfault := by
    by_cases hfails : address = .v4 0x09090909
    · simp only [patchedBackend, if_pos hfails]
    · simp only [sampleBackend, if_neg hfails] at hfault
      split at hfault <;> cases hfault

/-- The sample engine with patched sources. -/
def patched (schema : Schema) (location : Option Location) (info : Option AsInfo) : Engine :=
  { sample schema with
    city := .ofBackend (patchedBackend sampleLocation location)
    asn := .ofBackend (patchedBackend (AsInfo.ofNumber 15169 "GOOGLE") info) }

/-- A record with an address at which the sample sources fail between two others. -/
def failingRecord : Record :=
  Record.empty.putAll
    [("gateway", .string "10.0.0.1"), ("proxy", .string "9.9.9.9"), ("client", .string "8.8.8.8")]

/-- A record at which they do not fail. -/
def calmRecord : Record := Record.empty.putAll [("client", .string "8.8.8.8")]

theorem failures_contained_sample :
    SourcesRelated Backend.Excuses (patched .legacy none none) (sample .legacy) ∧
      SourcesRelated Backend.Covers (patched .legacy (some sampleLocation) none) (sample .legacy) ∧
      Schema.legacy.Untangled failingRecord ∧
      ((start (patched .legacy none none)).filterAll (fun _ => 2)
        [failingRecord, calmRecord]).2.timer.count = 3 ∧
      (patched .legacy (some sampleLocation) none).filter calmRecord =
        (sample .legacy).filter calmRecord ∧
      ((patched .legacy (some sampleLocation) none).filter failingRecord).record.get? "client" =
        ((sample .legacy).filter failingRecord).record.get? "client" ∧
      ((patched .legacy (some sampleLocation) none).filter failingRecord).lookups =
        [⟨.location, .v4 0x09090909⟩, ⟨.location, .v4 0x08080808⟩] := by
  have excuses : SourcesRelated Backend.Excuses (patched .legacy none none) (sample .legacy) :=
    ⟨.some (patchedBackend_excuses _), .some (patchedBackend_excuses _), rfl, rfl⟩
  have covers :
      SourcesRelated Backend.Covers (patched .legacy (some sampleLocation) none) (sample .legacy) :=
    ⟨.some (patchedBackend_covers _ _), .some (patchedBackend_covers _ _), rfl, rfl⟩
  have untangled : Schema.legacy.Untangled failingRecord := by decide
  have calm : ∀ lookup ∈ ((sample .legacy).filter calmRecord).lookups,
      ¬ (sample .legacy).Fails lookup := by
    have hlookups : ((sample .legacy).filter calmRecord).lookups =
        [⟨.location, .v4 0x08080808⟩] := by decide
    intro lookup hlookup fails
    rw [hlookups] at hlookup
    obtain rfl := List.mem_singleton.1 hlookup
    obtain ⟨backend, fault, hbackend, hfault⟩ := fails
    cases hbackend
    cases hfault
  have failures := failures_contained (start (sample .legacy))
  have hcount := (failures (patched .legacy none none)).1 excuses (fun _ => 1) (fun _ => 2)
    [failingRecord, calmRecord]
  have hruns := ((failures (patched .legacy (some sampleLocation) none)).2 covers).2
  obtain ⟨-, hvalue, -, hlookups⟩ := hruns failingRecord
  obtain ⟨unreached, hsame⟩ := hlookups fun _ => untangled
  refine ⟨excuses, covers, untangled, hcount.2.trans (by decide), (hruns calmRecord).1 calm,
    hvalue "client" (unreached "client" (by decide)), hsame.trans (by decide)⟩

end Session

end GeoTag
