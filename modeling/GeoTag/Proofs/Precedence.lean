import GeoTag.CommandLine.Layers
import GeoTag.Proofs.SettingValues

/-!
# Where settings come from

A setting has the value of the first of its sources that says anything (`FirstOf`): of what the command line
says about it, and at last of the document or the defaults below (`Options.sourcesOf`).  The file name of a
database is that of the vendor that comes out, not of the one below.  A run has exactly the settings that come
out so with a language tag, and otherwise a fault that tells what is wrong (`Options.settings_iff`).
-/

namespace GeoTag

/-- The value is what the first source says that says anything. -/
inductive FirstOf {α : Type} : List (Option α) → α → Prop
  | here {x : α} {sources : List (Option α)} : FirstOf (some x :: sources) x
  | later {x : α} {sources : List (Option α)} : FirstOf sources x → FirstOf (none :: sources) x

theorem FirstOf.unique {α : Type} {sources : List (Option α)} {x y : α} (h : FirstOf sources x)
    (h' : FirstOf sources y) : x = y := by
  induction h with
  | here =>
    cases h'
    rfl
  | later _ ih =>
    cases h' with
    | later h' => exact ih h'

theorem firstOf_map {α β : Type} (f : β → α) (source : Option β) (x : β) :
    FirstOf [source.map f, some (f x)] (f (source.getD x)) := by
  cases source with
  | none => exact .later .here
  | some y => exact .here

namespace CommandLine

namespace Options

open Settings (Key)

variable (fs : FileSystem) (options : Options) (surrounding : Option String)

/-- What a flag says about the setting that it turns off. -/
def turnedOff (flag : Bool) : Option Json := if flag then some (.bool false) else none

/-- What is said about the path of a database: by an option of its own, and by the directories that may hold a
file of this name. -/
def databaseSources (explicit : Option String) (file : String) : List (Option Json) :=
  [explicit.map .string, options.directory.map fun directory => .string (Path.join directory file),
    surrounding.map fun directory => .string (Path.join directory file)]

/-- What is said about a setting above the document, what counts most first. -/
def sourcesOf (vendor : Vendor) : Key → List (Option Json)
  | .vendor => [options.vendor.map fun vendor => .string vendor.toText]
  | .locale => [options.locale.map .string]
  | .fallbackPath => [options.fallback.map .string]
  | .enforceSchema => [turnedOff options.legacy]
  | .legacyTimeZone => [turnedOff options.noLegacyTimeZone]
  | .cityPath => options.databaseSources surrounding options.cityPath vendor.cityFile
  | .asPath => options.databaseSources surrounding options.asPath vendor.asFile
  | .enabled | .cityEnabled | .asEnabled => []

/-- Each setting comes from the first of its sources, and at last from the settings below. -/
def Layered (below settings : Settings) : Prop :=
  ∀ key, FirstOf (options.sourcesOf surrounding settings.vendor key ++ [some (below.valueOf key)])
    (settings.valueOf key)

/-! ## Layers -/

theorem firstOf_turnedOff (flag old : Bool) :
    FirstOf [turnedOff flag, some (.bool old)] (.bool (old && !flag)) := by
  cases flag with
  | false =>
    rw [Bool.not_false, Bool.and_true]
    exact .later .here
  | true =>
    rw [Bool.not_true, Bool.and_false]
    exact .here

theorem firstOf_locate (explicit : Option String) (file old : String) :
    FirstOf (options.databaseSources surrounding explicit file ++ [some (.string old)])
      (.string (locate explicit (options.directory.or surrounding) file old)) := by
  rw [databaseSources]
  cases explicit with
  | some path => exact .here
  | none =>
    cases options.directory with
    | some directory => exact .later .here
    | none =>
      cases surrounding with
      | some directory => exact .later (.later .here)
      | none => exact .later (.later (.later .here))

/-- The overlay has the vendor that decides the file names. -/
theorem layered_overlay (below : Settings) :
    options.Layered surrounding below (options.overlay surrounding below) := by
  intro key
  cases key with
  | enabled | cityEnabled | asEnabled => exact .here
  | vendor => exact firstOf_map _ options.vendor below.vendor
  | locale => exact firstOf_map _ options.locale below.locale
  | enforceSchema => exact firstOf_turnedOff options.legacy below.enforceSchema
  | legacyTimeZone => exact firstOf_turnedOff options.noLegacyTimeZone below.legacyTimeZone
  | cityPath => exact firstOf_locate options surrounding options.cityPath _ below.cityPath
  | asPath => exact firstOf_locate options surrounding options.asPath _ below.asPath
  | fallbackPath =>
    rw [overlay, Settings.valueOf, sourcesOf]
    cases options.fallback with
    | some path => exact .here
    | none => exact .later .here

/-- There is one way only to come out.  The vendor comes first, since the file names depend on it. -/
theorem layered_iff {below settings : Settings} :
    options.Layered surrounding below settings ↔ settings = options.overlay surrounding below := by
  refine ⟨fun h => ?_, fun h => h ▸ layered_overlay options surrounding below⟩
  have hoverlay := layered_overlay options surrounding below
  have hvendor : settings.vendor = (options.overlay surrounding below).vendor :=
    Vendor.toText_inj.1 (Json.string.inj ((h .vendor).unique (hoverlay .vendor)))
  refine Settings.ext_valueOf fun key => ?_
  have hkey := h key
  rw [hvendor] at hkey
  exact hkey.unique (hoverlay key)

/-- The vendor of the command line names the file in the directory, and the directory of the command line is
before that of the surroundings. -/
example :
    ({ Options.empty with vendor := some .ipInfo, cityPath := some "city", directory := some "/db" } :
      Options).overlay (some "/env") Settings.default =
        { Settings.default with vendor := .ipInfo, cityPath := "city", asPath := "/db/asn.mmdb" } := by
  decide +kernel

/-! ## The settings below -/

/-- What cannot be loaded from a path, and why: a file that is missing or no text, a faulty document, or one
without a language tag. -/
inductive Unloadable (fs : FileSystem) (path : String) : Settings.LoadFault → Prop
  | file {fault : IoFault} : fs.readText path = .error fault → Unloadable fs path (.io fault)
  | document {text : String} {fault : Settings.DocumentFault} : fs.readText path = .ok text →
      Settings.decode text = .error fault → Unloadable fs path (.document fault)
  | locale {text : String} {settings : Settings} : fs.readText path = .ok text →
      Settings.decode text = .ok settings → ¬ settings.TagLocale → Unloadable fs path (.invalid settings)

/-- What lies below the command line: the defaults, switched on, or the document that it names. -/
inductive Below : Settings → Prop
  | defaults : options.config = none → Below { Settings.default with enabled := true }
  | document {path text : String} {settings : Settings} : options.config = some path →
      fs.readText path = .ok text → Settings.decode text = .ok settings → settings.TagLocale →
      Below settings

variable {fs options surrounding} {below settings : Settings}

theorem load_eq_ok_iff {path : String} :
    Settings.load fs path = .ok settings ↔
      ∃ text, fs.readText path = .ok text ∧ Settings.decode text = .ok settings ∧ settings.TagLocale := by
  rw [Settings.load]
  cases fs.readText path with
  | error fault => simp
  | ok text => simp [Settings.parse_eq_ok_iff]

theorem load_eq_error_iff {path : String} {cause : Settings.LoadFault} :
    Settings.load fs path = .error cause ↔ Unloadable fs path cause := by
  rw [Settings.load]
  constructor
  · intro h
    cases hread : fs.readText path with
    | error fault =>
      rw [hread] at h
      cases h
      exact .file hread
    | ok text =>
      rw [hread] at h
      obtain ⟨fault, hdecode, rfl⟩ | ⟨found, hdecode, hlocale, rfl⟩ := Settings.parse_eq_error_iff.1 h
      · exact .document hread hdecode
      · exact .locale hread hdecode hlocale
  · intro h
    cases h with
    | file hread => rw [hread]
    | document hread hdecode =>
      rw [hread]
      exact Settings.parse_eq_error_iff.2 (.inl ⟨_, hdecode, rfl⟩)
    | locale hread hdecode hlocale =>
      rw [hread]
      exact Settings.parse_eq_error_iff.2 (.inr ⟨_, hdecode, hlocale, rfl⟩)

theorem mapError_eq_ok_iff {ε ε' α : Type} {f : ε → ε'} {result : Except ε α} {x : α} :
    result.mapError f = .ok x ↔ result = .ok x := by
  cases result with
  | error cause => exact ⟨nofun, nofun⟩
  | ok y =>
    rw [Except.ok.injEq]
    exact ⟨Except.ok.inj, fun h => congrArg Except.ok h⟩

theorem mapError_eq_error_iff {ε ε' α : Type} {f : ε → ε'} {result : Except ε α} {e : ε'} :
    result.mapError f = .error e ↔ ∃ cause, result = .error cause ∧ e = f cause := by
  cases result with
  | error cause =>
    constructor
    · intro h
      cases h
      exact ⟨cause, rfl, rfl⟩
    · rintro ⟨cause', h, rfl⟩
      cases h
      rfl
  | ok y => exact ⟨nofun, nofun⟩

theorem base_of_none (h : options.config = none) :
    options.base fs = .ok { Settings.default with enabled := true } := by
  rw [base, h]

theorem base_of_some {path : String} (h : options.config = some path) :
    options.base fs = (Settings.load fs path).mapError (.cannotLoad path) := by
  rw [base, h]
  dsimp only
  cases Settings.load fs path <;> rfl

theorem base_eq_ok_iff : options.base fs = .ok below ↔ Below fs options below := by
  constructor
  · intro h
    cases hconfig : options.config with
    | none =>
      rw [base_of_none hconfig] at h
      cases h
      exact .defaults hconfig
    | some path =>
      rw [base_of_some hconfig, mapError_eq_ok_iff, load_eq_ok_iff] at h
      obtain ⟨text, hread, hdecode, tag⟩ := h
      exact .document hconfig hread hdecode tag
  · intro h
    cases h with
    | defaults hconfig => exact base_of_none hconfig
    | document hconfig hread hdecode tag =>
      rw [base_of_some hconfig, mapError_eq_ok_iff, load_eq_ok_iff]
      exact ⟨_, hread, hdecode, tag⟩

theorem base_eq_error_iff {fault : SetupFault} :
    options.base fs = .error fault ↔
      ∃ path cause, options.config = some path ∧ Unloadable fs path cause ∧
        fault = .cannotLoad path cause := by
  cases hconfig : options.config with
  | none => simp [base_of_none hconfig]
  | some path => simp [base_of_some hconfig, mapError_eq_error_iff, load_eq_error_iff]

/-- What comes of the settings below: those with the command line on top, once they are checked. -/
theorem settings_of_base (hbase : options.base fs = .ok below) :
    options.settings fs surrounding = (options.overlay surrounding below).checked.mapError .invalid := by
  rw [Options.settings, hbase]
  dsimp only
  cases (options.overlay surrounding below).checked <;> rfl

theorem settings_of_base_error {fault : SetupFault} (hbase : options.base fs = .error fault) :
    options.settings fs surrounding = .error fault := by
  rw [Options.settings, hbase]

/-- A run has exactly the settings in which each comes from the first of its sources, if their language is a tag.
It has none where the document cannot be loaded or where the language that comes out is no tag, and the fault
tells which. -/
theorem settings_iff (fs : FileSystem) (options : Options) (surrounding : Option String) :
    (∀ settings, options.settings fs surrounding = .ok settings ↔
      ∃ below, Below fs options below ∧ options.Layered surrounding below settings ∧
        settings.TagLocale) ∧
    ∀ fault, options.settings fs surrounding = .error fault ↔
      (∃ path cause, options.config = some path ∧ Unloadable fs path cause ∧
        fault = .cannotLoad path cause) ∨
      ∃ below settings, Below fs options below ∧ options.Layered surrounding below settings ∧
        ¬ settings.TagLocale ∧ fault = .invalid (.invalid settings) := by
  simp only [← base_eq_ok_iff, ← base_eq_error_iff, layered_iff]
  cases hbase : options.base fs with
  | error fault => simp [settings_of_base_error hbase]
  | ok below =>
    simp only [settings_of_base hbase, mapError_eq_ok_iff, mapError_eq_error_iff,
      Settings.checked_eq_ok_iff, Settings.checked_eq_error_iff, Except.ok.injEq]
    refine ⟨fun settings => ?_, fun fault => ?_⟩
    · constructor
      · rintro ⟨rfl, tag⟩
        exact ⟨below, rfl, rfl, tag⟩
      · rintro ⟨below', rfl, rfl, tag⟩
        exact ⟨rfl, tag⟩
    · constructor
      · rintro ⟨cause, ⟨htag, rfl⟩, rfl⟩
        exact .inr ⟨below, _, rfl, rfl, htag, rfl⟩
      · rintro (h | ⟨below', settings, rfl, rfl, htag, rfl⟩)
        · cases h
        · exact ⟨_, ⟨htag, rfl⟩, rfl⟩

end Options

end CommandLine

end GeoTag
