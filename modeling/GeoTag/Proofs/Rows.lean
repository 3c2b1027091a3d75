import GeoTag.Policy
import GeoTag.Proofs.Writing

/-!
# The rows of a policy, spelled out

`Policy.legacyRow`, `Policy.strictRow` and `Policy.systemRow` are the fields of a location and of an
autonomous system with their names in full and in order; `locationFields_legacy`,
`locationFields_strict` and `asFields_strict` say that a policy writes these.  A name is shown
exactly when it is `Showable`: not all blank, and no spelling of the placeholder.
-/

namespace GeoTag

/-! ## Names worth showing -/

/-- Some character of the name is not blank, and the name is no spelling of the placeholder. -/
def Showable (name : String) : Prop :=
  (∃ c ∈ name.toList, Text.isBlank c = false) ∧ name ∉ ["N/A", "N/a", "n/A", "n/a"]

instance (name : String) : Decidable (Showable name) :=
  inferInstanceAs (Decidable ((∃ c ∈ name.toList, Text.isBlank c = false) ∧
    name ∉ ["N/A", "N/a", "n/A", "n/a"]))

theorem toNat_toLower (c : Char) :
    c.toLower.toNat = if 65 ≤ c.toNat ∧ c.toNat ≤ 90 then c.toNat + 32 else c.toNat := by
  unfold Char.toLower
  by_cases h : c.val ≥ 'A'.val ∧ c.val ≤ 'Z'.val
  · have hn : 65 ≤ c.toNat ∧ c.toNat ≤ 90 := h
    rw [dif_pos h, if_pos hn]
    show (c.val + 32).toNat = c.toNat + 32
    rw [UInt32.toNat_add]
    show (c.toNat + 32) % 4294967296 = c.toNat + 32
    omega
  · have hn : ¬ (65 ≤ c.toNat ∧ c.toNat ≤ 90) := h
    rw [dif_neg h, if_neg hn]

/-- A small letter is the lower case of itself and of its capital only. -/
theorem toLower_eq_letter_iff {small capital : Char} (hs : 97 ≤ small.toNat ∧ small.toNat ≤ 122)
    (hc : capital.toNat + 32 = small.toNat) (c : Char) :
    c.toLower = small ↔ c = capital ∨ c = small := by
  rw [← Char.toNat_inj, ← Char.toNat_inj, ← Char.toNat_inj, toNat_toLower]
  split <;> omega

theorem toLower_eq_slash_iff (c : Char) : c.toLower = '/' ↔ c = '/' := by
  have hslash : '/'.toNat = 47 := rfl
  rw [← Char.toNat_inj, ← Char.toNat_inj, toNat_toLower, hslash]
  split <;> omega

theorem map_toLower_eq_placeholder_iff (name : String) :
    name.toList.map Char.toLower = notAvailable.toList.map Char.toLower ↔
      name ∈ ["N/A", "N/a", "n/A", "n/a"] := by
  have hn (c : Char) : c.toLower = 'n' ↔ c = 'N' ∨ c = 'n' :=
    toLower_eq_letter_iff (by decide) (by decide) c
  have ha (c : Char) : c.toLower = 'a' ↔ c = 'A' ∨ c = 'a' :=
    toLower_eq_letter_iff (by decide) (by decide) c
  have hlower : notAvailable.toList.map Char.toLower = ['n', '/', 'a'] := by decide
  have hchars : ∀ s : String, name = s ↔ name.toList = s.toList := fun s => String.toList_inj.symm
  simp only [List.mem_cons, List.not_mem_nil, or_false, hchars]
  rw [hlower]
  rcases hname : name.toList with _ | ⟨a, _ | ⟨b, _ | ⟨c, _ | ⟨d, rest⟩⟩⟩⟩ <;>
    simp [hn, ha, toLower_eq_slash_iff]
  grind

theorem validName_iff_showable (name : String) : validName name = true ↔ Showable name := by
  unfold validName Showable
  rw [Bool.and_eq_true, Bool.not_eq_true', decide_eq_false_iff_not, decide_eq_true_eq, Ne,
    map_toLower_eq_placeholder_iff]
  simp [Text.Blank]

namespace Policy

/-! ## Rows -/

/-- The fields of a location in the legacy schema. -/
def legacyRow (timeZone : Bool) (stem : String) (location : Location) :
    List (String × FieldValue) :=
  [(stem ++ "_geolocation", .string location.coordinates),
    (stem ++ "_country_code", .string location.countryCode),
    (stem ++ "_city_name", .string location.city),
    (stem ++ "_region", .string location.region),
    (stem ++ "_country", .string location.country)] ++
  if timeZone then [(stem ++ "_timezone", .string location.timeZone)] else []

/-- The fields of a location in the strict schema. -/
def strictRow (stem : String) (location : Location) : List (String × FieldValue) :=
  [(stem ++ "_geo_coordinates", .string location.coordinates),
    (stem ++ "_geo_country_iso", .string location.countryCode),
    (stem ++ "_geo_city", .string location.city),
    (stem ++ "_geo_region", .string location.region)] ++
  (if Showable location.country then [(stem ++ "_geo_country", .string location.country)] else []) ++
  [(stem ++ "_geo_timezone", .string location.timeZone)] ++
  if Showable location.city ∧ Showable location.countryCode then
    [(stem ++ "_geo_name", .string (location.city ++ ", " ++ location.countryCode))]
  else []

/-- The fields of an autonomous system. -/
def systemRow (stem : String) (info : AsInfo) : List (String × FieldValue) :=
  [(stem ++ "_as_organization", .string info.organization),
    (stem ++ "_as_number", .string info.number)]

variable {policy : Policy}

theorem locationFields_legacy (legacy : policy.schema = .legacy) (stem : String)
    (location : Location) :
    policy.locationFields stem location = legacyRow policy.legacyTimeZone stem location := by
  simp only [locationFields, writesCountry, writesTimeZone, legacy, Schema.suffixes, legacyRow]
  simp

theorem writesPlace_iff (location : Location) :
    writesPlace location = true ↔ Showable location.city ∧ Showable location.countryCode := by
  rw [writesPlace, ← validName_iff_showable, ← validName_iff_showable]
  simp [validNames]

theorem writesCountry_strict_iff (strict : policy.schema = .strict) (location : Location) :
    policy.writesCountry location = true ↔ Showable location.country := by
  rw [writesCountry, strict, ← validName_iff_showable]
  simp [validNames]

theorem locationFields_strict (strict : policy.schema = .strict) (stem : String)
    (location : Location) : policy.locationFields stem location = strictRow stem location := by
  have timeZone : policy.writesTimeZone = true := by rw [writesTimeZone, strict]
  simp only [locationFields, writesCountry_strict_iff strict, timeZone]
  rw [strict]
  simp only [Schema.suffixes, writesPlace_iff, placeName, strictRow, if_true]

theorem asFields_strict (strict : policy.schema = .strict) (stem : String) (info : AsInfo) :
    policy.asFields stem info = systemRow stem info := by
  simp only [asFields, strict, Schema.suffixes]
  rfl

/-! ## Names of a row -/

/-- A field left out leaves out its name. -/
theorem names_ite_sublist (c : Prop) [Decidable c] (f : String × FieldValue) :
    (Keyed.names (if c then [f] else [])).Sublist [f.1] := by
  split
  · exact List.Sublist.refl _
  · exact List.nil_sublist _

theorem names_legacyRow (timeZone : Bool) (stem : String) (location : Location) :
    (Keyed.names (legacyRow timeZone stem location)).Sublist
      ((Schema.suffixes .legacy).ofLocation.map fun suffix => stem ++ suffix) := by
  rw [legacyRow, Keyed.names_append]
  exact (List.Sublist.refl _).append (names_ite_sublist _ _)

theorem names_strictRow (stem : String) (location : Location) :
    (Keyed.names (strictRow stem location)).Sublist
      ((Schema.suffixes .strict).ofLocation.map fun suffix => stem ++ suffix) := by
  rw [strictRow, Keyed.names_append, Keyed.names_append, Keyed.names_append]
  exact (((List.Sublist.refl _).append (names_ite_sublist _ _)).append (List.Sublist.refl _)).append
    (names_ite_sublist _ _)

theorem names_systemRow (stem : String) (info : AsInfo) :
    (Keyed.names (systemRow stem info)).Sublist
      ((Schema.suffixes .strict).ofAs.map fun suffix => stem ++ suffix) :=
  List.Sublist.refl _

end Policy

end GeoTag
