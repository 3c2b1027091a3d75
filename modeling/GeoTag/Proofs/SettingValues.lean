import GeoTag.Proofs.Opening
import GeoTag.Settings.Document

/-!
# Settings by their values

Settings are the same when each of them has the same value (`Settings.ext_valueOf`).  `Settings.adopt` puts
one setting in the place of another; whoever adopts every setting has the settings adopted, in whatever order
they come (`Settings.adoptAll_eq`).  What is read of a text counts if its language is a tag
(`Settings.parse_eq_ok_iff`).
-/

namespace GeoTag

namespace Vendor

theorem ofTag?_toText (vendor : Vendor) : ofTag? vendor.toText = some vendor := by
  cases vendor <;> rfl

theorem toText_inj {vendor vendor' : Vendor} : vendor.toText = vendor'.toText ↔ vendor = vendor' := by
  refine ⟨fun h => ?_, congrArg toText⟩
  rw [← Option.some_inj, ← ofTag?_toText, h, ofTag?_toText]

end Vendor

namespace Settings

namespace Key

theorem mem_all (key : Key) : key ∈ all := by
  cases key <;> decide

theorem nodup_all : all.Nodup := by
  decide

theorem ofName?_name (key : Key) : ofName? key.name = some key := by
  cases key <;> rfl

theorem name_of_ofName? {name : String} {key : Key} (h : ofName? name = some key) : key.name = name :=
  of_decide_eq_true (List.find?_some (p := fun key : Key => decide (key.name = name)) h)

theorem ofName?_eq_none_iff {name : String} : ofName? name = none ↔ ∀ key : Key, key.name ≠ name := by
  constructor
  · rintro h key rfl
    rw [ofName?_name] at h
    cases h
  · intro h
    cases hkey : ofName? name with
    | none => rfl
    | some key => exact absurd (name_of_ofName? hkey) (h key)

end Key

variable {settings below : Settings}

theorem fallbackPath_inj {path path' : Option String}
    (h : (path.map Json.string).getD .null = (path'.map Json.string).getD .null) : path = path' := by
  cases path <;> cases path' <;> simp_all

/-- Settings are nothing but the values of each of them. -/
theorem ext_valueOf (h : ∀ key, settings.valueOf key = below.valueOf key) : settings = below := by
  have henabled := Json.bool.inj (h .enabled)
  have hschema := Json.bool.inj (h .enforceSchema)
  have hvendor := Vendor.toText_inj.1 (Json.string.inj (h .vendor))
  have hcity := Json.string.inj (h .cityPath)
  have has := Json.string.inj (h .asPath)
  have hfallback := fallbackPath_inj (h .fallbackPath)
  have hcityEnabled := Json.bool.inj (h .cityEnabled)
  have hasEnabled := Json.bool.inj (h .asEnabled)
  have hlocale := Json.string.inj (h .locale)
  have hzone := Json.bool.inj (h .legacyTimeZone)
  cases settings
  cases below
  simp only at *
  subst_vars
  rfl

/-! ## Adopting settings -/

/-- The settings with one of them as it is in others. -/
def adopt (below settings : Settings) : Key → Settings
  | .enabled => { below with enabled := settings.enabled }
  | .enforceSchema => { below with enforceSchema := settings.enforceSchema }
  | .vendor => { below with vendor := settings.vendor }
  | .cityPath => { below with cityPath := settings.cityPath }
  | .asPath => { below with asPath := settings.asPath }
  | .fallbackPath => { below with fallbackPath := settings.fallbackPath }
  | .cityEnabled => { below with cityEnabled := settings.cityEnabled }
  | .asEnabled => { below with asEnabled := settings.asEnabled }
  | .locale => { below with locale := settings.locale }
  | .legacyTimeZone => { below with legacyTimeZone := settings.legacyTimeZone }

theorem valueOf_adopt (below settings : Settings) (key key' : Key) :
    (below.adopt settings key).valueOf key' = (if key' = key then settings else below).valueOf key' := by
  cases key <;> cases key' <;> rfl

/-- The settings with some of them as they are in others. -/
def adoptAll (below settings : Settings) (keys : List Key) : Settings :=
  keys.foldl (fun found key => found.adopt settings key) below

theorem adoptAll_append (below settings : Settings) (keys keys' : List Key) :
    below.adoptAll settings (keys ++ keys') = (below.adoptAll settings keys).adoptAll settings keys' :=
  List.foldl_append

theorem valueOf_adoptAll (below settings : Settings) (keys : List Key) (key : Key) :
    (below.adoptAll settings keys).valueOf key = (if key ∈ keys then settings else below).valueOf key := by
  induction keys generalizing below with
  | nil => rfl
  | cons first keys ih =>
    rw [adoptAll, List.foldl_cons, ← adoptAll, ih]
    by_cases hmem : key ∈ keys
    · rw [if_pos hmem, if_pos (List.mem_cons_of_mem first hmem)]
    · rw [if_neg hmem, valueOf_adopt]
      simp only [List.mem_cons, hmem, or_false]

/-- Nothing is left of the settings below once every setting is adopted. -/
theorem adoptAll_eq {keys : List Key} (h : ∀ key, key ∈ keys) (below settings : Settings) :
    below.adoptAll settings keys = settings := by
  refine ext_valueOf fun key => ?_
  rw [valueOf_adoptAll, if_pos (h key)]

/-! ## Settings that are checked -/

theorem checked_eq_ok_iff {found : Settings} :
    found.checked = .ok settings ↔ found = settings ∧ settings.TagLocale := by
  rw [checked, ← valid_iff]
  split
  · rename_i hvalid
    rw [Except.ok.injEq]
    exact ⟨fun h => ⟨h, h ▸ hvalid⟩, And.left⟩
  · rename_i hvalid
    exact ⟨nofun, fun ⟨h, hvalid'⟩ => absurd (h ▸ hvalid') hvalid⟩

theorem checked_eq_error_iff {fault : LoadFault} :
    settings.checked = .error fault ↔ ¬ settings.TagLocale ∧ fault = .invalid settings := by
  rw [checked, ← valid_iff]
  split
  · rename_i hvalid
    exact ⟨nofun, fun h => absurd hvalid h.1⟩
  · rename_i hvalid
    rw [Except.error.injEq, eq_comm]
    exact ⟨fun h => ⟨hvalid, h⟩, And.right⟩

theorem parse_eq_ok_iff {text : String} :
    parse text = .ok settings ↔ decode text = .ok settings ∧ settings.TagLocale := by
  rw [parse]
  cases decode text with
  | error fault => exact ⟨nofun, nofun⟩
  | ok found =>
    rw [Except.ok.injEq]
    exact checked_eq_ok_iff

theorem parse_eq_error_iff {text : String} {fault : LoadFault} :
    parse text = .error fault ↔ (∃ cause, decode text = .error cause ∧ fault = .document cause) ∨
      ∃ found, decode text = .ok found ∧ ¬ found.TagLocale ∧ fault = .invalid found := by
  rw [parse]
  cases decode text with
  | error cause => simp [eq_comm]
  | ok found => simp [checked_eq_error_iff]

end Settings

end GeoTag
