import GeoTag.Proofs.LookupCount
import GeoTag.Settings.Sources

/-!
# Which settings open an engine

A file opens as a database when a reader parses its bytes as one, whichever the vendor
(`Vendor.openCity_iff`), and a file loads as a table when it is text that parses as one.  Settings always describe an engine.
It has a source of locations exactly when a database or a table opens, and one of autonomous systems
exactly when a database opens; without either, or with settings that are switched off or not valid, it
leaves every record and the timer of its session alone (`Settings.engine_opens`).
-/

namespace GeoTag

/-! ## Files -/

namespace FileSystem

variable {fs : FileSystem} {path : String}

theorem read_eq_ok_iff {bytes : ByteArray} :
    fs.read path = .ok bytes ↔ fs.find path = .ok (.file bytes) := by
  unfold read
  split <;> simp_all

theorem readText_eq_ok_iff {text : String} :
    fs.readText path = .ok text ↔
      ∃ bytes, fs.find path = .ok (.file bytes) ∧ String.fromUTF8? bytes = some text := by
  simp only [← read_eq_ok_iff]
  unfold readText
  cases fs.read path with
  | error fault => simp
  | ok bytes => cases h : String.fromUTF8? bytes <;> simp [h]

end FileSystem

/-- A file whose bytes are a database to a reader stands at the path. -/
def DatabaseAt (reader : Database.Reader) (fs : FileSystem) (path : String) : Prop :=
  ∃ bytes db, fs.find path = .ok (.file bytes) ∧ reader.parse bytes = .ok db

/-- A file whose text is a range table stands at the path. -/
def TableAt (fs : FileSystem) (path : String) : Prop :=
  ∃ bytes text table, fs.find path = .ok (.file bytes) ∧ String.fromUTF8? bytes = some text ∧
    RangeTable.parse path text = .ok table

theorem Database.Reader.exists_load_iff (reader : Database.Reader) (fs : FileSystem) (path : String) :
    (∃ db, reader.load fs path = .ok db) ↔ DatabaseAt reader fs path := by
  unfold DatabaseAt
  simp only [← FileSystem.read_eq_ok_iff]
  unfold load
  cases fs.read path with
  | error fault => simp
  | ok bytes => simp

theorem RangeTable.exists_load_iff (fs : FileSystem) (path : String) :
    (∃ table, RangeTable.load fs path = .ok table) ↔ TableAt fs path := by
  have key : ∀ table, RangeTable.load fs path = .ok table ↔
      ∃ text, fs.readText path = .ok text ∧ RangeTable.parse path text = .ok table := by
    intro table
    unfold load
    cases fs.readText path with
    | error fault => simp
    | ok text => cases h : parse path text <;> simp [h]
  simp only [key, FileSystem.readText_eq_ok_iff]
  constructor
  · rintro ⟨table, text, ⟨bytes, hfile, htext⟩, hparse⟩
    exact ⟨bytes, text, table, hfile, htext, hparse⟩
  · rintro ⟨bytes, text, table, hfile, htext, hparse⟩
    exact ⟨table, text, ⟨bytes, hfile, htext⟩, hparse⟩

namespace Vendor

theorem openWith_iff {α : Type} (reader : Database.Reader) (fs : FileSystem) (path : String)
    (backend : Database.View → String → Backend α) :
    (∃ source, openWith reader fs path backend = .ok source) ↔ DatabaseAt reader fs path := by
  rw [← reader.exists_load_iff]
  unfold openWith
  cases reader.load fs path with
  | error cause => simp
  | ok db => simp

/-- Any database opens as one of locations, whatever its values are. -/
theorem openCity_iff (reader : Database.Reader) (fs : FileSystem) (vendor : Vendor)
    (path locale : String) :
    (∃ source, vendor.openCity fs path locale reader = .ok source) ↔ DatabaseAt reader fs path :=
  openWith_iff reader fs path _

theorem openAs_iff (reader : Database.Reader) (fs : FileSystem) (vendor : Vendor) (path : String) :
    (∃ source, vendor.openAs fs path reader = .ok source) ↔ DatabaseAt reader fs path :=
  openWith_iff reader fs path _

end Vendor

/-! ## Sources -/

theorem isSome_toOption_iff {ε α : Type} {result : Except ε α} :
    result.toOption.isSome = true ↔ ∃ value, result = .ok value := by
  cases result <;> simp [Except.toOption]

namespace Settings

variable {reader : Database.Reader} {fs : FileSystem} {settings : Settings}

/-- The settings name a location database that opens or a range table that loads. -/
def CityUsable (reader : Database.Reader) (fs : FileSystem) (settings : Settings) : Prop :=
  settings.cityEnabled = true ∧
    ((¬ Text.Blank settings.cityPath.toList ∧
        ∃ source,
          settings.vendor.openCity fs settings.cityPath settings.locale reader = .ok source) ∨
      ∃ path, settings.fallbackPath = some path ∧ ¬ Text.Blank path.toList ∧ TableAt fs path)

/-- The settings name a database of autonomous systems that opens. -/
def AsUsable (reader : Database.Reader) (fs : FileSystem) (settings : Settings) : Prop :=
  settings.asEnabled = true ∧ ¬ Text.Blank settings.asPath.toList ∧
    ∃ source, settings.vendor.openAs fs settings.asPath reader = .ok source

section Paths

variable {α : Type} (f : String → Option α)

theorem isSome_bind_usable?_iff (path : String) :
    ((usable? path).bind f).isSome = true ↔ ¬ Text.Blank path.toList ∧ (f path).isSome = true := by
  unfold usable?
  by_cases h : Text.Blank path.toList <;> simp [h]

theorem isSome_bind_wanted_iff (wanted : Bool) (path? : Option String) :
    ((if wanted = true then path? else none).bind f).isSome = true ↔
      wanted = true ∧ (path?.bind f).isSome = true := by
  cases wanted <;> simp

end Paths

theorem isSome_cityBackend?_iff :
    (settings.cityBackend? fs reader).isSome = true ↔
      settings.cityEnabled = true ∧ ¬ Text.Blank settings.cityPath.toList ∧
        ∃ source,
          settings.vendor.openCity fs settings.cityPath settings.locale reader = .ok source := by
  rw [cityBackend?, city?, isSome_bind_wanted_iff, isSome_bind_usable?_iff, isSome_toOption_iff]

theorem isSome_table?_iff :
    (settings.table? fs).isSome = true ↔
      settings.cityEnabled = true ∧
        ∃ path, settings.fallbackPath = some path ∧ ¬ Text.Blank path.toList ∧ TableAt fs path := by
  rw [table?, fallback?, isSome_bind_wanted_iff]
  cases settings.fallbackPath with
  | none => simp
  | some path =>
    rw [Option.bind_some, isSome_bind_usable?_iff, isSome_toOption_iff, RangeTable.exists_load_iff]
    simp only [Option.some.injEq, exists_eq_left']

theorem isEnabled_cityResolver_iff :
    (settings.cityResolver fs reader).isEnabled = true ↔ settings.CityUsable reader fs := by
  have hsome : (settings.cityResolver fs reader).isEnabled = true ↔
      (settings.cityBackend? fs reader).isSome = true ∨ (settings.table? fs).isSome = true := by
    unfold cityResolver
    cases settings.cityBackend? fs reader <;> cases settings.table? fs <;>
      simp [Resolver.isEnabled, Resolver.ofBackend, Resolver.disabled]
  rw [hsome, isSome_cityBackend?_iff, isSome_table?_iff, ← and_or_left]
  exact Iff.rfl

theorem isEnabled_asResolver_iff :
    (settings.asResolver fs reader).isEnabled = true ↔ settings.AsUsable reader fs := by
  show (settings.asBackend? fs reader).isSome = true ↔ _
  rw [asBackend?, as?, isSome_bind_wanted_iff, isSome_bind_usable?_iff, isSome_toOption_iff, AsUsable]

/-! ## Engines -/

/-- An ASCII letter or digit, a hyphen or an underscore. -/
def TagLetter (c : Char) : Prop :=
  ('a' ≤ c ∧ c ≤ 'z') ∨ ('A' ≤ c ∧ c ≤ 'Z') ∨ ('0' ≤ c ∧ c ≤ '9') ∨ c = '-' ∨ c = '_'

theorem isTagChar_iff (c : Char) : isTagChar c = true ↔ TagLetter c := by
  have between (a b : Char) :
      (decide (c.val ≥ a.val) && decide (c.val ≤ b.val)) = true ↔ a ≤ c ∧ c ≤ b := by
    rw [Bool.and_eq_true, decide_eq_true_iff, decide_eq_true_iff]
    exact Iff.rfl
  have hupper : c.isUpper = true ↔ 'A' ≤ c ∧ c ≤ 'Z' := decide_eq_true_iff
  have hlower : c.isLower = true ↔ 'a' ≤ c ∧ c ≤ 'z' := between 'a' 'z'
  have hdigit : c.isDigit = true ↔ '0' ≤ c ∧ c ≤ '9' := between '0' '9'
  have hcases : isTagChar c = true ↔
      (((c.isUpper = true ∨ c.isLower = true) ∨ c.isDigit = true) ∨ c = '-') ∨ c = '_' := by
    show (((c.isUpper || c.isLower) || c.isDigit) || decide _ || decide _) = true ↔ _
    simp only [Bool.or_eq_true, decide_eq_true_eq]
  rw [hcases, hlower, hupper, hdigit, TagLetter]
  grind

/-- The language of the settings is a tag. -/
def TagLocale (settings : Settings) : Prop :=
  settings.locale ≠ "" ∧ ∀ c ∈ settings.locale.toList, TagLetter c

theorem valid_iff : settings.Valid ↔ settings.TagLocale := by
  simp [Valid, TagLocale, isTagChar_iff]

theorem enabled_engine_iff :
    (settings.engine fs reader).enabled = true ↔
      settings.enabled = true ∧ settings.Valid ∧
        (settings.CityUsable reader fs ∨ settings.AsUsable reader fs) := by
  unfold engine
  split
  · rename_i h
    simp [engineWith, isEnabled_cityResolver_iff, isEnabled_asResolver_iff, h.1, h.2]
  · rename_i h
    simp only [Bool.false_eq_true, false_iff]
    exact fun enabled => h ⟨enabled.1, enabled.2.1⟩

theorem engine_of_valid (enabled : settings.enabled = true) (valid : settings.Valid) :
    settings.engine fs reader =
      settings.engineWith (settings.cityResolver fs reader) (settings.asResolver fs reader) := by
  rw [engine, if_pos ⟨enabled, valid⟩]

end Settings

namespace Session

variable {session : Session}

/-- A session whose engine is disabled leaves all records and its timer alone. -/
theorem filterAll_of_disabled (disabled : session.engine.enabled = false)
    (elapsed : Lookup → UInt64) (records : List Record) :
    session.filterAll elapsed records =
      (records.map fun record => ⟨false, record, []⟩, session) := by
  have hfilter : ∀ record, session.filter elapsed record = (⟨false, record, []⟩, session) := by
    intro record
    unfold Session.filter Engine.filter
    rw [disabled]
    rfl
  induction records with
  | nil => rfl
  | cons record records ih =>
    rw [filterAll, hfilter]
    dsimp only
    rw [ih]
    rfl

theorem applied_of_enabled (enabled : session.engine.enabled = true) {elapsed : Lookup → UInt64}
    {records : List Record} {filtered : Filtered}
    (h : filtered ∈ (session.filterAll elapsed records).1) : filtered.applied = true := by
  obtain ⟨record, -, rfl⟩ := exists_filter_of_mem_filterAll h
  rw [Engine.filter, if_pos enabled]

end Session

namespace Settings

/-- Settings always describe an engine, whatever reads the databases.  It is enabled exactly when they are,
when their language is a tag, and when they name something to ask that opens; each kind of source is there
exactly when what is named for it opens, whatever becomes of the other.  A database opens for either vendor
alike.  A disabled engine leaves all records and the timer alone, and an enabled one applies to every
record. -/
theorem engine_opens (reader : Database.Reader) (fs : FileSystem) (settings : Settings) :
    ((settings.engine fs reader).enabled = true ↔
      settings.enabled = true ∧ settings.TagLocale ∧
        (settings.CityUsable reader fs ∨ settings.AsUsable reader fs)) ∧
    (settings.enabled = true → settings.TagLocale →
      ((settings.engine fs reader).city.isEnabled = true ↔ settings.CityUsable reader fs) ∧
        ((settings.engine fs reader).asn.isEnabled = true ↔ settings.AsUsable reader fs)) ∧
    (∀ (vendor : Vendor) (path locale : String),
      ((∃ source, vendor.openCity fs path locale reader = .ok source) ↔ DatabaseAt reader fs path) ∧
        ((∃ source, vendor.openAs fs path reader = .ok source) ↔ DatabaseAt reader fs path)) ∧
    ∀ (timer : Latency.Timer) (elapsed : Lookup → UInt64) (records : List Record),
      ((settings.engine fs reader).enabled = false →
        (Session.mk (settings.engine fs reader) timer).filterAll elapsed records =
          (records.map fun record => ⟨false, record, []⟩, ⟨settings.engine fs reader, timer⟩)) ∧
      ((settings.engine fs reader).enabled = true →
        ∀ filtered ∈ ((Session.mk (settings.engine fs reader) timer).filterAll elapsed records).1,
          filtered.applied = true) := by
  refine ⟨?_, ?_, ?_, ?_⟩
  · rw [enabled_engine_iff, valid_iff]
  · intro enabled tag
    rw [engine_of_valid enabled (valid_iff.2 tag)]
    exact ⟨isEnabled_cityResolver_iff, isEnabled_asResolver_iff⟩
  · exact fun vendor path locale =>
      ⟨vendor.openCity_iff reader fs path locale, vendor.openAs_iff reader fs path⟩
  · exact fun timer elapsed records => ⟨fun disabled => Session.filterAll_of_disabled disabled _ _,
      fun enabled _ h => Session.applied_of_enabled enabled h⟩

/-- A file that is no database, and a range table. -/
def brokenFiles : FileSystem :=
  .ofAnswers
    [("city.mmdb", .ok (.file "no database".toUTF8)),
      ("ranges.csv", .ok (.file "1.1.1.0,1.1.1.255,AU,Australia,Queensland,Brisbane".toUTF8))]

/-- Settings that name this file, perhaps a table, and a database that is not there. -/
def brokenSettings (fallbackPath : Option String) : Settings :=
  { default with
    enabled := true
    cityPath := "city.mmdb"
    asPath := "asn.mmdb"
    fallbackPath }

/-- The table alone makes an engine, and without it there is none. -/
theorem engine_opens_broken :
    (brokenSettings (some "ranges.csv")).CityUsable Database.reader brokenFiles ∧
      (∀ filtered ∈ ((Session.start ((brokenSettings (some "ranges.csv")).engine brokenFiles)).filterAll
        (fun _ => 1) Session.sampleRecords).1, filtered.applied = true) ∧
      ¬ (brokenSettings none).CityUsable Database.reader brokenFiles ∧
      ((Session.start ((brokenSettings none).engine brokenFiles)).filterAll
        (fun _ => 1) Session.sampleRecords).2.timer.count = 0 := by
  have hopen : ((brokenSettings (some "ranges.csv")).engine brokenFiles).enabled = true := by
    decide +kernel
  have hclosed : ((brokenSettings none).engine brokenFiles).enabled = false := by decide +kernel
  obtain ⟨withTable, hsources, -, hruns⟩ :=
    engine_opens Database.reader brokenFiles (brokenSettings (some "ranges.csv"))
  obtain ⟨withoutTable, -, -, hidle⟩ := engine_opens Database.reader brokenFiles (brokenSettings none)
  obtain ⟨-, tag, -⟩ := withTable.1 hopen
  refine ⟨(hsources rfl tag).1.1 (by decide +kernel), (hruns _ _ _).2 hopen, ?_, ?_⟩
  · intro usable
    rw [withoutTable.2 ⟨rfl, tag, Or.inl usable⟩] at hclosed
    cases hclosed
  · rw [Session.start, (hidle _ _ _).1 hclosed]
    rfl

end Settings

end GeoTag
