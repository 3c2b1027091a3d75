import GeoTag.Database.Reader
import GeoTag.Proofs.LocalizedNames
import GeoTag.Proofs.RangeScan
import GeoTag.Proofs.StackedTables

/-!
# The names that sources show

A source of locations is a database of either vendor or a range table, and a table may stand around any
other source (`LocationSource`).  What a source is told of a place may lack any name or have an empty
one (`PlaceNames`).  It answers exactly where it is told something, and its answer shows each name it is
told and the placeholder for the others (`LocationSource.rel_answer?`).  Sources of autonomous systems
answer where they are told a number (`SystemSource.rel_answer?`).
-/

namespace GeoTag

/-! ## What is shown -/

/-- A name is shown as it is, and the placeholder in place of one that is empty or missing. -/
inductive Shows : Option String → String → Prop where
  /-- A name. -/
  | name {name : String} (filled : name ≠ "") : Shows (some name) name
  /-- No name in its place. -/
  | empty : Shows (some "") notAvailable
  /-- No name at all. -/
  | missing : Shows none notAvailable

theorem Shows.ne_empty {name : Option String} {shown : String} (h : Shows name shown) :
    shown ≠ "" := by
  cases h with
  | name filled => exact filled
  | empty => decide
  | missing => decide

theorem shows_orNotAvailable (name : Option String) : Shows name (orNotAvailable name) := by
  cases name with
  | none => exact .missing
  | some name =>
    by_cases h : name = ""
    · rw [h]
      exact .empty
    · rw [orNotAvailable_eq, Option.filter_some, if_pos (decide_eq_true h)]
      exact .name h

/-- What a source is told of the names of a place. -/
structure PlaceNames where
  /-- The code of the country. -/
  countryCode : Option String
  /-- The name of the country. -/
  country : Option String
  /-- The name of the city. -/
  city : Option String
  /-- The region. -/
  region : Option String
  /-- The name of the time zone. -/
  timeZone : Option String
deriving DecidableEq

/-- The location shows the names. -/
structure PlaceNames.ShownIn (names : PlaceNames) (location : Location) : Prop where
  countryCode : Shows names.countryCode location.countryCode
  country : Shows names.country location.country
  city : Shows names.city location.city
  region : Shows names.region location.region
  timeZone : Shows names.timeZone location.timeZone

/-- What a source is told of an autonomous system. -/
structure SystemNames where
  /-- The number of the system. -/
  number : Nat
  /-- Who runs it. -/
  organization : Option String
deriving DecidableEq

/-- The system is shown with its decimal number and who runs it. -/
structure SystemNames.ShownIn (names : SystemNames) (info : AsInfo) : Prop where
  number : info.number = toString names.number
  organization : Shows names.organization info.organization

theorem SystemNames.shownIn_ofNumber (number : Nat) (organization : Option String) :
    SystemNames.ShownIn ⟨number, organization⟩
      (AsInfo.ofNumber number (orNotAvailable organization)) :=
  ⟨Nat.repr_eq_ofList_toDigits.symm, shows_orNotAvailable organization⟩

/-! ### Answers that go with what is told -/

section Rel

variable {α β γ : Type} {r : α → β → Prop}

theorem rel_map {told : γ → α} {answer : γ → β} (h : ∀ x, r (told x) (answer x))
    (found : Option γ) : Option.Rel r (found.map told) (found.map answer) := by
  cases found with
  | none => exact .none
  | some x => exact .some (h x)

theorem rel_bind {told : γ → Option α} {answer : γ → Option β}
    (h : ∀ x, Option.Rel r (told x) (answer x)) (found : Option γ) :
    Option.Rel r (found.bind told) (found.bind answer) := by
  cases found with
  | none => exact .none
  | some x => exact h x

theorem rel_or {told moreTold : Option α} {answer moreAnswer : Option β}
    (first : Option.Rel r told answer) (second : Option.Rel r moreTold moreAnswer) :
    Option.Rel r (told.or moreTold) (answer.or moreAnswer) := by
  cases first with
  | some h => exact .some h
  | none => exact second

theorem exists_of_rel_some {told : Option α} {answer : β}
    (h : Option.Rel r told (some answer)) : ∃ x, told = some x ∧ r x answer := by
  cases h with
  | some h => exact ⟨_, rfl, h⟩

variable {source : Backend β} {address : Address} {told : Option α}

theorem Backend.exists_told_of_lookup (rel : Option.Rel r told (source.answer? address)) {found : β}
    (h : source.lookup address = .ok (some found)) : ∃ x, told = some x ∧ r x found := by
  rw [answer?_of_ok h] at rel
  exact exists_of_rel_some rel

theorem Backend.exists_lookup_of_told (rel : Option.Rel r told (source.answer? address)) {x : α}
    (h : told = some x) : ∃ found, source.lookup address = .ok (some found) := by
  cases hanswer : source.answer? address with
  | none =>
    rw [h, hanswer] at rel
    cases rel
  | some found => exact ⟨found, answer?_eq_some_iff.1 hanswer⟩

end Rel

/-! ## Records and lines -/

namespace MaxMind

theorem shows_localized (names : Option Names) (locale : String) :
    Shows (names.bind fun names => firstName? names (languages locale)) (localized names locale) := by
  cases names with
  | none => exact .missing
  | some names => exact shows_orNotAvailable _

/-- The names in a city record, those in several languages as they are found for a locale. -/
def City.placeNames (city : City) (locale : String) : PlaceNames where
  countryCode := city.country.code
  country := city.country.names.bind fun names => firstName? names (languages locale)
  city := city.names.bind fun names => firstName? names (languages locale)
  region := city.regionNames.bind fun names => firstName? names (languages locale)
  timeZone := city.timeZone

theorem City.shownIn_location (city : City) (locale : String) :
    (city.placeNames locale).ShownIn (city.location locale) where
  countryCode := shows_orNotAvailable _
  country := shows_localized _ _
  city := shows_localized _ _
  region := shows_localized _ _
  timeZone := shows_orNotAvailable _

/-- What an ASN record says, if it has a number. -/
def System.names? (system : System) : Option SystemNames :=
  system.number.map fun number => ⟨number, system.organization⟩

theorem System.rel_info (system : System) :
    Option.Rel SystemNames.ShownIn system.names? system.info :=
  rel_map (fun number => SystemNames.shownIn_ofNumber number system.organization) system.number

end MaxMind

namespace IpInfo

/-- The names in a record: the texts under the keys for them. -/
def placeNames (record : Json) : PlaceNames where
  countryCode := member? "country" record
  country := member? "country_name" record
  city := member? "city" record
  region := member? "region" record
  timeZone := member? "timezone" record

theorem shownIn_location (record : Json) : (placeNames record).ShownIn (location record) where
  countryCode := shows_orNotAvailable _
  country := shows_orNotAvailable _
  city := shows_orNotAvailable _
  region := shows_orNotAvailable _
  timeZone := shows_orNotAvailable _

/-- What a record says of an autonomous system, if it has a number with or without the mark. -/
def systemNames? (record : Json) : Option SystemNames :=
  ((member? "asn" record).bind fun text => number? (unmarked text.toList)).map fun number =>
    ⟨number, (member? "name" record).or (member? "as_name" record)⟩

theorem rel_info (record : Json) : Option.Rel SystemNames.ShownIn (systemNames? record) (info record) :=
  rel_map (fun number => SystemNames.shownIn_ofNumber number _) _

end IpInfo

namespace RangeTable

/-- The names in the last four of the six columns of a line. -/
def lineNames? (line : List Char) : Option PlaceNames :=
  match (Text.splitOn ',' (Text.trim line)).map Text.trim with
  | [_, _, code, country, region, city] =>
    some ⟨some (String.ofList code), some (String.ofList country), some (String.ofList city),
      some (String.ofList region), none⟩
  | _ => none

theorem shows_nameIn (cs : List Char) : Shows (some (String.ofList cs)) (nameIn cs) := by
  rw [← column_eq_nameIn]
  exact shows_orNotAvailable _

theorem exists_lineNames?_of_entry? {line : List Char} {entry : Entry} (h : entry? line = some entry) :
    ∃ names, lineNames? line = some names ∧ names.ShownIn entry.location := by
  unfold entry? at h
  split at h
  · cases h
  · cases h
  · split at h
    next first last code country region city hcolumns =>
      split at h
      · rw [lineNames?, hcolumns]
        refine ⟨_, rfl, ?_⟩
        rw [← Option.some.inj h]
        exact ⟨shows_nameIn code, shows_nameIn country, shows_nameIn city, shows_nameIn region,
          .missing⟩
      · cases h
    · cases h

/-- The names in the first line of a text that holds an address. -/
def placeNames? (text : String) (address : Address) : Option PlaceNames :=
  ((lines text).find? fun line => entry? line |>.any fun entry => entry.holds address).bind lineNames?

theorem rel_scan (text : String) (address : Address) :
    Option.Rel PlaceNames.ShownIn (placeNames? text address) (scan text address) := by
  rw [placeNames?, scan, List.find?_filterMap]
  cases hline : (lines text).find? fun line => entry? line |>.any fun entry => entry.holds address with
  | none => exact .none
  | some line =>
    have hholds := List.find?_some hline
    obtain ⟨entry, hentry, -⟩ := (Option.any_eq_true ..).1 hholds
    obtain ⟨names, hnames, hshown⟩ := exists_lineNames?_of_entry? hentry
    simp only [Option.bind_some, hentry, hnames, Option.map_some]
    exact .some hshown

end RangeTable

/-! ## Sources -/

/-- The record for an address, if there is one and it can be read. -/
def Database.value? {α : Type} (record : Address → Except DatabaseFault (Option α))
    (address : Address) : Option α :=
  (record address).toOption.join

theorem Backend.answer?_ofRecords {α β : Type} (name : String)
    (record : Address → Except DatabaseFault (Option α)) (make : α → Option β) (address : Address) :
    (Backend.ofRecords name record make).answer? address = (Database.value? record address).bind make := by
  unfold Backend.answer? Database.value? Backend.ofRecords
  cases h : record address with
  | error cause => simp [h, Except.toOption]
  | ok found => simp [h, Except.toOption]

/-- A range table and the text it was read from. -/
structure ReadTable where
  /-- The path of the text. -/
  path : String
  /-- The text. -/
  text : String
  /-- The table. -/
  table : RangeTable
  parsed : RangeTable.parse path text = .ok table

/-- The sources of locations. -/
inductive LocationSource where
  /-- A city database, with names for a locale. -/
  | maxMind (db : Database.View) (label locale : String)
  /-- A location database of flat records. -/
  | ipInfo (db : Database.View) (label : String)
  /-- A range table. -/
  | table (read : ReadTable)
  /-- A range table around nothing. -/
  | around (read : ReadTable)
  /-- A range table around another source. -/
  | aroundSource (inner : LocationSource) (read : ReadTable)

/-- The sources of autonomous systems. -/
inductive SystemSource where
  /-- An ASN database. -/
  | maxMind (db : Database.View) (label : String)
  /-- An ASN database of flat records. -/
  | ipInfo (db : Database.View) (label : String)

namespace LocationSource

/-- The source as it is looked up in. -/
def backend : LocationSource → Backend Location
  | .maxMind db label locale => MaxMind.cityBackend db label locale
  | .ipInfo db label => IpInfo.cityBackend db label
  | .table read => read.table.backend
  | .around read => .withFallback none read.table
  | .aroundSource inner read => .withFallback (some inner.backend) read.table

/-- What a source is told of the names of the place of an address: the record of the database, or the
line of the first table, from the inside out, that has one. -/
def placeNames? : LocationSource → Address → Option PlaceNames
  | .maxMind db _ locale, address =>
    (Database.value? db.city address).map fun city => city.placeNames locale
  | .ipInfo db _, address => (Database.value? db.json address).map IpInfo.placeNames
  | .table read, address => RangeTable.placeNames? read.text address
  | .around read, address => RangeTable.placeNames? read.text address
  | .aroundSource inner read, address =>
    (inner.placeNames? address).or (RangeTable.placeNames? read.text address)

theorem rel_find? (read : ReadTable) (address : Address) :
    Option.Rel PlaceNames.ShownIn (RangeTable.placeNames? read.text address)
      (read.table.find? address) := by
  rw [RangeTable.find?_eq_scan read.parsed]
  exact RangeTable.rel_scan read.text address

/-- A source answers a location exactly where it is told of a place, and the location shows the names it
is told. -/
theorem rel_answer? (source : LocationSource) (address : Address) :
    Option.Rel PlaceNames.ShownIn (source.placeNames? address) (source.backend.answer? address) := by
  induction source with
  | maxMind db label locale =>
    rw [backend, MaxMind.cityBackend, Backend.answer?_ofRecords, placeNames?, Option.map_eq_bind]
    exact rel_bind (fun city => .some (city.shownIn_location locale)) _
  | ipInfo db label =>
    rw [backend, IpInfo.cityBackend, Backend.answer?_ofRecords, placeNames?, Option.map_eq_bind]
    exact rel_bind (fun record => .some (IpInfo.shownIn_location record)) _
  | table read =>
    rw [backend, Backend.answer?_backend]
    exact rel_find? read address
  | around read =>
    rw [backend, Backend.answer?_withFallback]
    exact rel_find? read address
  | aroundSource inner read ih =>
    rw [backend, Backend.answer?_withFallback]
    exact rel_or ih (rel_find? read address)

end LocationSource

namespace SystemSource

/-- The source as it is looked up in. -/
def backend : SystemSource → Backend AsInfo
  | .maxMind db label => MaxMind.asBackend db label
  | .ipInfo db label => IpInfo.asBackend db label

/-- What a source is told of the autonomous system of an address, if its number is known. -/
def systemNames? : SystemSource → Address → Option SystemNames
  | .maxMind db _, address => (Database.value? db.system address).bind MaxMind.System.names?
  | .ipInfo db _, address => (Database.value? db.json address).bind IpInfo.systemNames?

theorem rel_answer? (source : SystemSource) (address : Address) :
    Option.Rel SystemNames.ShownIn (source.systemNames? address) (source.backend.answer? address) := by
  cases source with
  | maxMind db label =>
    rw [backend, MaxMind.asBackend, Backend.answer?_ofRecords]
    exact rel_bind MaxMind.System.rel_info _
  | ipInfo db label =>
    rw [backend, IpInfo.asBackend, Backend.answer?_ofRecords]
    exact rel_bind IpInfo.rel_info _

end SystemSource

end GeoTag
