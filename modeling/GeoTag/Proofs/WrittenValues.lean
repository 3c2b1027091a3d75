import GeoTag.Proofs.FieldJson
import GeoTag.Proofs.Idempotence
import GeoTag.Proofs.JsonShape

/-!
# The values a run writes

Every field of an enriched record holds what it held before or a value that was written for an address
(`Engine.mem_fields_filter_of`).  Derived fields hold texts and truth values only (`FieldValue.Plain`),
so what is true of plain values and of the values of a record is true of the values of the enriched
record (`Engine.mem_fields_filter`).
-/

namespace GeoTag

namespace FieldValue

/-- A text or a truth value, as derived fields are. -/
def Plain : FieldValue → Prop
  | .string _ => True
  | .bool _ => True
  | _ => False

theorem Plain.proper {value : FieldValue} (h : value.Plain) : value.Proper := by
  cases value with
  | string s => trivial
  | bool b => trivial
  | _ => exact h.elim

theorem Plain.regular {value : FieldValue} (h : value.Plain) (limit : Nat) :
    Json.Regular limit value.toJson := by
  cases value with
  | string s => exact ⟨Nat.zero_le limit, trivial⟩
  | bool b => exact ⟨Nat.zero_le limit, trivial⟩
  | _ => exact h.elim

theorem Plain.numbers {value : FieldValue} (h : value.Plain) : value.toJson.numbers = [] := by
  cases value with
  | string s => rfl
  | bool b => rfl
  | _ => exact h.elim

end FieldValue

namespace Policy

variable {stem : String} {f : String × FieldValue}

theorem plain_of_mem_legacyRow {timeZone : Bool} {location : Location}
    (h : f ∈ legacyRow timeZone stem location) : f.2.Plain := by
  simp only [legacyRow, List.mem_append, List.mem_ite_nil_right, List.mem_cons, List.not_mem_nil,
    or_false] at h
  rcases h with (rfl | rfl | rfl | rfl | rfl) | ⟨-, rfl⟩ <;> trivial

theorem plain_of_mem_strictRow {location : Location} (h : f ∈ strictRow stem location) :
    f.2.Plain := by
  simp only [strictRow, List.mem_append, List.mem_ite_nil_right, List.mem_cons, List.not_mem_nil,
    or_false] at h
  rcases h with (((rfl | rfl | rfl | rfl) | ⟨-, rfl⟩) | rfl) | ⟨-, rfl⟩ <;> trivial

theorem plain_of_mem_systemRow {info : AsInfo} (h : f ∈ systemRow stem info) : f.2.Plain := by
  simp only [systemRow, List.mem_cons, List.not_mem_nil, or_false] at h
  rcases h with rfl | rfl <;> trivial

end Policy

theorem Record.mem_fields_putAll {record : Record} {fs : List (String × FieldValue)}
    {f : String × FieldValue} (h : f ∈ (record.putAll fs).fields) :
    f ∈ record.fields ∨ ∃ g ∈ fs, f.2 = g.2 := by
  induction fs generalizing record with
  | nil => exact Or.inl h
  | cons g fs ih =>
    rcases ih h with hput | ⟨other, hother, hvalue⟩
    · rcases Keyed.mem_put hput with hvalue | hold
      · exact Or.inr ⟨g, List.mem_cons_self, hvalue⟩
      · exact Or.inl hold
    · exact Or.inr ⟨other, List.mem_cons_of_mem g hother, hvalue⟩

namespace Engine

variable {engine : Engine}

theorem plain_of_mem_addressFields {stem : String} {address : Address} {f : String × FieldValue}
    (h : f ∈ engine.addressFields stem address) : f.2.Plain := by
  unfold addressFields at h
  split at h
  · rw [List.mem_singleton.1 h]
    trivial
  · split at h
    · obtain ⟨location, -, hmem⟩ := List.mem_flatMap.1 h
      exact Policy.plain_of_mem_legacyRow hmem
    · rcases List.mem_append.1 h with h | h
      · obtain ⟨location, -, hmem⟩ := List.mem_flatMap.1 h
        exact Policy.plain_of_mem_strictRow hmem
      · obtain ⟨info, -, hmem⟩ := List.mem_flatMap.1 h
        exact Policy.plain_of_mem_systemRow hmem

section Written

variable {P : FieldValue → Prop}
  (written : ∀ stem address, ∀ f ∈ engine.addressFields stem address, P f.2)
include written

theorem of_mem_derivedFields {record : Record} {name : String} {f : String × FieldValue}
    (h : f ∈ engine.derivedFields record name) : P f.2 := by
  obtain ⟨address, haddress⟩ := exists_address?_of_mem_derivedFields h
  rw [derivedFields_of_address? haddress] at h
  exact written _ address f h

theorem mem_fields_foldl_writeDerived {names : List String} {record : Record}
    {f : String × FieldValue} (h : f ∈ (names.foldl engine.writeDerived record).fields) :
    f ∈ record.fields ∨ P f.2 := by
  induction names generalizing record with
  | nil => exact Or.inl h
  | cons name names ih =>
    rcases ih h with hvisited | hwritten
    · rcases Record.mem_fields_putAll hvisited with hold | ⟨g, hg, hvalue⟩
      · exact Or.inl hold
      · exact Or.inr (hvalue ▸ of_mem_derivedFields written hg)
    · exact Or.inr hwritten

/-- What is true of the values written for any address is true of every value that a run writes. -/
theorem mem_fields_filter_of {record : Record} {f : String × FieldValue}
    (h : f ∈ (engine.filter record).record.fields) : f ∈ record.fields ∨ P f.2 := by
  by_cases enabled : engine.enabled = true
  · rw [record_filter_of_enabled enabled] at h
    exact mem_fields_foldl_writeDerived written h
  · rw [record_filter_of_disabled enabled] at h
    exact Or.inl h

end Written

/-- A run writes texts and truth values only. -/
theorem mem_fields_filter {record : Record} {f : String × FieldValue}
    (h : f ∈ (engine.filter record).record.fields) : f ∈ record.fields ∨ f.2.Plain :=
  mem_fields_filter_of (fun _ _ _ hf => plain_of_mem_addressFields hf) h

end Engine

theorem Record.Proper.filter {record : Record} (h : record.Proper) (engine : Engine) :
    (engine.filter record).record.Proper := by
  intro f hf
  rcases Engine.mem_fields_filter hf with hold | hplain
  · exact h f hold
  · exact hplain.proper

end GeoTag
