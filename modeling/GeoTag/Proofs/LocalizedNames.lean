import GeoTag.Database.MaxMind

/-!
# Names in the languages of a locale

A name is looked for under the locale, its language and English (`MaxMind.languages`).  The name that is
shown is the first one under these keys.  That is the first name that is not empty
(`MaxMind.usableName?`) unless an empty name stands before it, which hides it: then the placeholder is
shown (`MaxMind.localized_eq_usableName?_iff`).
-/

namespace GeoTag

/-- A name is shown as it is unless it is missing or empty. -/
theorem orNotAvailable_eq (name : Option String) :
    orNotAvailable name = (name.filter fun s => s ≠ "").getD notAvailable := by
  cases name with
  | none => rfl
  | some s =>
    by_cases h : s = "" <;> simp [orNotAvailable, Option.filter_some, h]

namespace MaxMind

/-- The keys under which a name is looked for in a locale, the preferred one first. -/
def languages (locale : String) : List String := [locale, language locale, lastLanguage]

/-- The name under the first of the keys that has one. -/
def firstName? (names : Names) (keys : List String) : Option String :=
  keys.findSome? fun key => Keyed.get? key names

/-- The name under the first of the keys that has one that is not empty. -/
def usableName? (names : Names) (keys : List String) : Option String :=
  keys.findSome? fun key => (Keyed.get? key names).filter fun name => name ≠ ""

/-- A locale is its language and, from the first separator on, whatever follows. -/
theorem exists_language_append (locale : String) :
    ∃ rest, locale.toList = (language locale).toList ++ rest ∧
      (∀ c ∈ (language locale).toList, c ≠ '-' ∧ c ≠ '_') ∧ ∀ c ∈ rest.head?, c = '-' ∨ c = '_' := by
  refine ⟨locale.toList.dropWhile fun c => c ≠ '-' ∧ c ≠ '_', ?_, ?_, ?_⟩
  · rw [language, String.toList_ofList, List.takeWhile_append_dropWhile]
  · intro c hc
    rw [language, String.toList_ofList] at hc
    simpa using List.all_eq_true.1 List.all_takeWhile c hc
  · intro c hc
    have hstop := List.head?_dropWhile_not (fun c => decide (c ≠ '-' ∧ c ≠ '_')) locale.toList
    rw [Option.mem_def] at hc
    rw [hc] at hstop
    grind

variable {names : Names} {keys : List String}

theorem usableName?_eq_none_of_firstName? (h : firstName? names keys = none) :
    usableName? names keys = none := by
  rw [firstName?, List.findSome?_eq_none_iff] at h
  rw [usableName?, List.findSome?_eq_none_iff]
  intro key hkey
  rw [h key hkey, Option.filter_none]

/-- A first name that is not empty is the first one that is not. -/
theorem usableName?_of_firstName? {name : String} (h : firstName? names keys = some name)
    (hne : name ≠ "") : usableName? names keys = some name := by
  obtain ⟨before, key, behind, hkeys, hname, hbefore⟩ := List.findSome?_eq_some_iff.1 h
  refine List.findSome?_eq_some_iff.2 ⟨before, key, behind, hkeys, ?_, fun other hother => ?_⟩
  · rw [hname]
    simpa using hne
  · rw [hbefore other hother, Option.filter_none]

theorem localized_eq (names : Names) (locale : String) :
    localized (some names) locale =
      ((firstName? names (languages locale)).filter fun s => s ≠ "").getD notAvailable :=
  orNotAvailable_eq (firstName? names (languages locale))

/-- The name that is shown for a locale is the first name under the locale, its language and English that
is not empty, or the placeholder if there is none.  Only where the first name under these keys is empty
and hides such a name is the placeholder shown in its place. -/
theorem localized_eq_usableName?_iff (names : Names) (locale : String) :
    (localized (some names) locale = (usableName? names (languages locale)).getD notAvailable ↔
        ∀ name, firstName? names (languages locale) = some "" →
          usableName? names (languages locale) = some name → name = notAvailable) ∧
      (firstName? names (languages locale) = some "" →
        localized (some names) locale = notAvailable) ∧
      localized none locale = notAvailable ∧
      ∃ rest, locale.toList = (language locale).toList ++ rest ∧
        (∀ c ∈ (language locale).toList, c ≠ '-' ∧ c ≠ '_') ∧
        ∀ c ∈ rest.head?, c = '-' ∨ c = '_' := by
  have hempty : firstName? names (languages locale) = some "" →
      localized (some names) locale = notAvailable := by
    intro h
    rw [localized_eq, h]
    rfl
  refine ⟨⟨?_, ?_⟩, hempty, rfl, exists_language_append locale⟩
  · intro h name hfirst husable
    rw [hempty hfirst, husable] at h
    exact h.symm
  · intro h
    cases hfirst : firstName? names (languages locale) with
    | none =>
      rw [localized_eq, hfirst, usableName?_eq_none_of_firstName? hfirst]
      rfl
    | some name =>
      by_cases hne : name = ""
      · subst hne
        rw [hempty hfirst]
        cases husable : usableName? names (languages locale) with
        | none => rfl
        | some name => exact (h name hfirst husable).symm
      · rw [localized_eq, hfirst, usableName?_of_firstName? hfirst hne, Option.filter_some,
          if_pos (decide_eq_true hne)]

/-- An empty German name hides the English one. -/
theorem localized_ne_usableName? :
    localized (some [("de", ""), ("en", "Munich")]) "de" = "N/A" ∧
      usableName? [("de", ""), ("en", "Munich")] (languages "de") = some "Munich" := by
  decide

end MaxMind

end GeoTag
