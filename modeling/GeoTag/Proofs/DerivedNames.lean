import GeoTag.Schema
import GeoTag.Proofs.Writing

/-!
# Derived names never meet

No suffix of a schema ends in another one (`eq_of_suffix`), so the name and the suffix behind a
derived name can both be read off it (`append_suffix_inj`).  Two candidate fields therefore share no
derived name (`eq_of_mem_derivedNames`), and one field has as many derived names as the schema has
suffixes (`nodup_derivedNames`).  In the strict schema no derived name is itself looked at
(`not_isCandidate_of_mem_derivedNames`); in the legacy schema any of them may be.  `derivedNames_apart`
says this of the candidates of a record.
-/

namespace GeoTag

namespace Schema

/-! ## Suffixes -/

theorem eq_of_suffix (schema : Schema) {s t : String} (hs : s ∈ schema.allSuffixes)
    (ht : t ∈ schema.allSuffixes) (h : s.toList <:+ t.toList) : s = t := by
  have key : ∀ s ∈ schema.allSuffixes, ∀ t ∈ schema.allSuffixes, s.toList <:+ t.toList → s = t := by
    cases schema <;> decide
  exact key s hs t ht h

theorem nodup_allSuffixes (schema : Schema) : schema.allSuffixes.Nodup := by
  cases schema <;> decide

/-- A name with a suffix of the schema behind it splits in one way only. -/
theorem append_suffix_inj (schema : Schema) {f g s t : String} (hs : s ∈ schema.allSuffixes)
    (ht : t ∈ schema.allSuffixes) (h : f ++ s = g ++ t) : f = g ∧ s = t := by
  have hlist : f.toList ++ s.toList = g.toList ++ t.toList := by
    rw [← String.toList_append, ← String.toList_append, h]
  have hst : s = t := by
    rcases List.append_eq_append_iff.1 hlist with ⟨as, -, hsuffix⟩ | ⟨bs, -, hsuffix⟩
    · exact (schema.eq_of_suffix ht hs ⟨as, hsuffix.symm⟩).symm
    · exact schema.eq_of_suffix hs ht ⟨bs, hsuffix.symm⟩
  subst hst
  exact ⟨String.toList_injective (List.append_cancel_right hlist), rfl⟩

/-! ## Candidates and their stems -/

theorem mem_candidates_iff (schema : Schema) (record : Record) (name : String) :
    name ∈ schema.candidates record ↔ name ∈ record.names ∧ schema.isCandidate name = true :=
  List.mem_filter

theorem mappedStem?_eq_some_iff (name stem : String) :
    mappedStem? name = some stem ↔ (name, stem) ∈ mapping :=
  Keyed.get?_eq_some_iff (by decide) name stem

theorem not_isInternal_of_mem_mapping {name stem : String} (h : (name, stem) ∈ mapping) :
    isInternal name = false := by
  have key : ∀ p ∈ mapping, isInternal p.1 = false := by decide
  exact key (name, stem) h

/-- The strict schema looks at the well-known fields and at no other. -/
theorem isCandidate_strict_iff (name : String) :
    strict.isCandidate name = true ↔ ∃ stem, (name, stem) ∈ mapping := by
  simp only [isCandidate, Bool.and_eq_true, Option.isSome_iff_exists, mappedStem?_eq_some_iff]
  constructor
  · exact And.right
  · rintro ⟨stem, h⟩
    exact ⟨by rw [not_isInternal_of_mem_mapping h]; rfl, stem, h⟩

theorem stem_strict_of_mem_mapping {name stem : String} (h : (name, stem) ∈ mapping) :
    strict.stem name = stem := by
  rw [Schema.stem, (mappedStem?_eq_some_iff name stem).2 h, Option.getD_some]

theorem stem_inj (schema : Schema) {f g : String} (hf : schema.isCandidate f = true)
    (hg : schema.isCandidate g = true) (h : schema.stem f = schema.stem g) : f = g := by
  cases schema with
  | legacy => exact h
  | strict =>
    obtain ⟨p, hp⟩ := (isCandidate_strict_iff f).1 hf
    obtain ⟨q, hq⟩ := (isCandidate_strict_iff g).1 hg
    rw [stem_strict_of_mem_mapping hp, stem_strict_of_mem_mapping hq] at h
    have key : ∀ a ∈ mapping, ∀ b ∈ mapping, a.2 = b.2 → a.1 = b.1 := by decide
    exact key (f, p) hp (g, q) hq h

/-! ## Derived names -/

theorem mem_derivedNames_iff (schema : Schema) (name derived : String) :
    derived ∈ schema.derivedNames name ↔
      ∃ suffix ∈ schema.allSuffixes, schema.stem name ++ suffix = derived :=
  List.mem_map

theorem nodup_derivedNames (schema : Schema) (name : String) : (schema.derivedNames name).Nodup := by
  refine List.Pairwise.map _ ?_ (List.Pairwise.and_mem.1 schema.nodup_allSuffixes)
  rintro s t ⟨hs, ht, hne⟩ h
  exact hne (schema.append_suffix_inj hs ht h).2

/-- The field behind a derived name is the only candidate that it is derived from. -/
theorem eq_of_mem_derivedNames (schema : Schema) {f g derived : String}
    (hf : schema.isCandidate f = true) (hg : schema.isCandidate g = true)
    (h₁ : derived ∈ schema.derivedNames f) (h₂ : derived ∈ schema.derivedNames g) : f = g := by
  obtain ⟨s, hs, rfl⟩ := (schema.mem_derivedNames_iff f derived).1 h₁
  obtain ⟨t, ht, h⟩ := (schema.mem_derivedNames_iff g _).1 h₂
  exact schema.stem_inj hf hg (schema.append_suffix_inj ht hs h).1.symm

theorem not_isCandidate_of_mem_derivedNames {f derived : String}
    (hf : strict.isCandidate f = true) (h : derived ∈ strict.derivedNames f) :
    strict.isCandidate derived = false := by
  obtain ⟨p, hp⟩ := (isCandidate_strict_iff f).1 hf
  have key : ∀ a ∈ mapping, ∀ d ∈ strict.derivedNames a.1, strict.isCandidate d = false := by decide
  exact key (f, p) hp derived h

theorem notMem_derivedNames_self (schema : Schema) {name : String}
    (hname : schema.isCandidate name = true) : name ∉ schema.derivedNames name := by
  intro hmem
  cases schema with
  | strict =>
    rw [not_isCandidate_of_mem_derivedNames hname hmem] at hname
    cases hname
  | legacy =>
    -- The stem is the name itself, so the suffix behind it would be empty.
    obtain ⟨suffix, hsuffix, heq⟩ := (legacy.mem_derivedNames_iff name name).1 hmem
    have hempty : suffix.toList = [] := by
      have hlist : name.toList ++ suffix.toList = name.toList := by
        rw [← String.toList_append]
        exact congrArg String.toList heq
      exact List.append_right_eq_self.1 hlist
    have key : ∀ s ∈ legacy.allSuffixes, s.toList ≠ [] := by decide
    exact key suffix hsuffix hempty

/-- No name is derived from two candidates of a record or twice from one of them, and in the strict schema
no record has a derived name of one among its candidates. -/
theorem derivedNames_apart (schema : Schema) (record : Record) :
    (∀ f ∈ schema.candidates record, ∀ g ∈ schema.candidates record, f ≠ g →
      ∀ s ∈ schema.allSuffixes, ∀ t ∈ schema.allSuffixes,
        schema.stem f ++ s ≠ schema.stem g ++ t) ∧
    (∀ f ∈ schema.candidates record, (schema.derivedNames f).Nodup) ∧
    (schema = .strict → ∀ f ∈ schema.candidates record, ∀ derived ∈ schema.derivedNames f,
      ∀ other : Record, derived ∉ schema.candidates other) := by
  have hcandidate : ∀ f ∈ schema.candidates record, schema.isCandidate f = true :=
    fun f hf => ((schema.mem_candidates_iff record f).1 hf).2
  refine ⟨?_, fun f _ => schema.nodup_derivedNames f, ?_⟩
  · intro f hf g hg hne s hs t ht h
    exact hne (schema.stem_inj (hcandidate f hf) (hcandidate g hg) (schema.append_suffix_inj hs ht h).1)
  · rintro rfl f hf derived hderived other hother
    have hnot := not_isCandidate_of_mem_derivedNames (hcandidate f hf) hderived
    rw [((strict.mem_candidates_iff other derived).1 hother).2] at hnot
    cases hnot

/-- A record in which one name is another one with a suffix of the legacy schema behind it. -/
def nestedNames : Record :=
  ⟨[("host_ip", .bool true), ("host_ip_country", .bool true), ("source_ip", .bool true)], by decide⟩

theorem derivedNames_apart_nested :
    "host_ip" ∈ legacy.candidates nestedNames ∧ "host_ip_country" ∈ legacy.candidates nestedNames ∧
      legacy.stem "host_ip" ++ "_country_code" ≠ legacy.stem "host_ip_country" ++ "_region" ∧
      (legacy.derivedNames "host_ip_country").Nodup ∧
      strict.stem "host_ip" ++ "_geo_city" ≠ strict.stem "source_ip" ++ "_geo_city" ∧
      "host_geo_city" ∉ strict.candidates nestedNames := by
  obtain ⟨hapart, hnodup, -⟩ := derivedNames_apart legacy nestedNames
  obtain ⟨hstrict, -, hinert⟩ := derivedNames_apart strict nestedNames
  have hshort : "host_ip" ∈ legacy.candidates nestedNames := by decide
  have hlong : "host_ip_country" ∈ legacy.candidates nestedNames := by decide
  refine ⟨hshort, hlong, ?_, hnodup _ hlong, ?_, ?_⟩
  · exact hapart _ hshort _ hlong (by decide) _ (by decide) _ (by decide)
  · exact hstrict _ (by decide) _ (by decide) (by decide) _ (by decide) _ (by decide)
  · exact hinert rfl "host_ip" (by decide) _ (by decide) nestedNames

end Schema

end GeoTag
