import GeoTag.Proofs.Turns

/-!
# What a run overwrites

A run never removes a field and never moves one, but it writes over a field that has a derived name.
So the fields of a record all keep their values exactly when whatever the record leads to repeats what
stands in it (`keptIn_filter_iff_restates`); a field whose name is derived from no candidate keeps its
value in any case.
-/

namespace GeoTag

/-- Every field of the one record stands in the other, with its value. -/
def Record.KeptIn (record other : Record) : Prop :=
  ∀ name value, record.get? name = some value → other.get? name = some value

namespace Engine

variable {engine : Engine} {record : Record}

/-- Where a field derived from the record falls on a field of the record, it repeats its value. -/
def Restates (engine : Engine) (record : Record) : Prop :=
  ∀ field ∈ engine.schema.candidates record, ∀ name value,
    (name, value) ∈ engine.derivedFields record field →
      ∀ held, record.get? name = some held → value = held

theorem exists_get?_of_mem_candidates {name : String}
    (h : name ∈ engine.schema.candidates record) : ∃ value, record.get? name = some value :=
  Option.ne_none_iff_exists'.1
    ((record.get?_ne_none_iff name).2 ((engine.schema.mem_candidates_iff record name).1 h).1)

theorem Restates.undisturbed (restates : engine.Restates record) : engine.Undisturbed record := by
  intro field hfield name hname value hrow derived
  obtain ⟨held, hheld⟩ := exists_get?_of_mem_candidates hname
  have heq : value = held := restates field hfield name value hrow held hheld
  rw [heq, Record.put_eq_self hheld]

theorem Restates.keptIn_filter (enabled : engine.enabled = true)
    (restates : engine.Restates record) : record.KeptIn (engine.filter record).record := by
  intro name value hget
  rw [record_filter_of_enabled enabled, get?_foldl_writeDerived_of_undisturbed restates.undisturbed
    (engine.turns_candidates record) (fun _ h => h) (fun _ => rfl)]
  by_cases hmem : name ∈ Keyed.names (engine.allDerivedFields record)
  · obtain ⟨written, hwritten⟩ := Keyed.mem_names_iff.1 hmem
    obtain ⟨field, hfield, hrow⟩ := (engine.mem_allDerivedFields_iff record _).1 hwritten
    rw [← restates field hfield name written hrow value hget]
    exact Record.get?_putAll_of_mem (engine.nodup_names_allDerivedFields record) hwritten record
  · exact (Record.get?_putAll_of_notMem hmem record).trans hget

/-- A candidate that ends with the value it began with had that value at its turn. -/
theorem get?_at_turn_of_kept {visited later : List String} {name : String}
    (turns : engine.Turns (visited ++ name :: later))
    (kept : ((visited ++ name :: later).foldl engine.writeDerived record).get? name =
      record.get? name) :
    (visited.foldl engine.writeDerived record).get? name = record.get? name := by
  by_cases h : ∃ other ∈ visited, name ∈ engine.schema.derivedNames other
  · obtain ⟨other, hother, hderived⟩ := h
    rw [← kept]
    exact (get?_foldl_writeDerived_of_visited turns hother hderived record).symm
  · apply get?_foldl_writeDerived_of_notMem
    intro other hother hderived
    exact h ⟨other, hother, hderived⟩

theorem restates_of_keptIn_filter (enabled : engine.enabled = true)
    (kept : record.KeptIn (engine.filter record).record) : engine.Restates record := by
  intro field hfield name value hrow held hheld
  obtain ⟨start, hstart⟩ := exists_get?_of_mem_candidates hfield
  obtain ⟨visited, later, hsplit⟩ := List.append_of_mem hfield
  -- The field is itself kept, so its turn finds what the record held and writes the row of the record.
  have hkept := (kept field start hstart).trans hstart.symm
  rw [record_filter_of_enabled enabled, hsplit] at hkept
  have turns := engine.turns_candidates record
  rw [hsplit] at turns
  have hturn := get?_at_turn_of_kept turns hkept
  have hderived : name ∈ engine.schema.derivedNames field :=
    mem_derivedNames_of_mem_names (Keyed.mem_names_iff.2 ⟨value, hrow⟩)
  have hwritten : (engine.filter record).record.get? name = some value := by
    have hlist : engine.schema.candidates record = (visited ++ [field]) ++ later := by
      rw [hsplit, List.append_assoc, List.singleton_append]
    rw [get?_filter_of_visited enabled hlist (by simp) hderived, List.foldl_append]
    refine Record.get?_putAll_of_mem (engine.nodup_names_derivedFields _ field) ?_ _
    rwa [engine.derivedFields_congr hturn]
  exact Option.some.inj (hwritten.symm.trans (kept name held hheld))

theorem keptIn_filter_iff_restates (engine : Engine) (record : Record) :
    record.KeptIn (engine.filter record).record ↔
      (engine.enabled = true → engine.Restates record) := by
  by_cases enabled : engine.enabled = true
  · exact ⟨fun kept _ => restates_of_keptIn_filter enabled kept,
      fun restates => (restates enabled).keptIn_filter enabled⟩
  · rw [record_filter_of_disabled enabled]
    exact ⟨fun _ h => absurd h enabled, fun _ _ _ h => h⟩

theorem names_filter_prefix (engine : Engine) (record : Record) :
    record.names <+: (engine.filter record).record.names := by
  by_cases enabled : engine.enabled = true
  · rw [record_filter_of_enabled enabled]
    exact names_foldl_writeDerived_prefix _ record
  · simp [record_filter_of_disabled enabled]

theorem get?_filter_of_underived {name : String}
    (h : ∀ field ∈ engine.schema.candidates record, name ∉ engine.schema.derivedNames field) :
    (engine.filter record).record.get? name = record.get? name := by
  by_cases enabled : engine.enabled = true
  · rw [record_filter_of_enabled enabled]
    exact get?_foldl_writeDerived_of_notMem h record
  · rw [record_filter_of_disabled enabled]

/-- The fields of a record are all there after a run, in their old places.  They all keep their
values exactly when the engine is disabled or the record leads to nothing else under their names, and
those keep them in any case whose names are derived from no candidate. -/
theorem filter_keeps_iff (engine : Engine) (record : Record) :
    record.names <+: (engine.filter record).record.names ∧
      (∀ name ∈ record.names,
        (∀ field ∈ engine.schema.candidates record, name ∉ engine.schema.derivedNames field) →
          (engine.filter record).record.get? name = record.get? name) ∧
      (record.KeptIn (engine.filter record).record ↔
        (engine.enabled = true → engine.Restates record)) :=
  ⟨engine.names_filter_prefix record, fun _ _ h => get?_filter_of_underived h,
    engine.keptIn_filter_iff_restates record⟩

/-- A record with a reserved address and a field under the name of its marker. -/
def markedRecord : Record :=
  Record.empty.putAll [("host_ip", .string "10.0.0.1"), ("host_reserved_ip", .string "no")]

theorem not_restates_markedRecord : ¬ (sample .strict).Restates markedRecord := by
  intro restates
  have haddress : markedRecord.address? "host_ip" = some (.v4 0x0A000001) := by decide
  have hrow : ("host_reserved_ip", FieldValue.bool true) ∈
      (sample .strict).derivedFields markedRecord "host_ip" := by
    rw [derivedFields_of_address? haddress, addressFields, if_pos (by decide)]
    exact List.mem_singleton.2 rfl
  have hcandidate : "host_ip" ∈ (sample .strict).schema.candidates markedRecord := by decide
  cases restates "host_ip" hcandidate "host_reserved_ip" (.bool true) hrow (.string "no") rfl

/-- The marker takes the place of what the record held under its name. -/
theorem not_keptIn_filter_markedRecord :
    ¬ markedRecord.KeptIn ((sample .strict).filter markedRecord).record := by
  rw [keptIn_filter_iff_restates]
  exact fun restates => not_restates_markedRecord (restates rfl)

theorem filter_keeps_iff_sample :
    "host_ip" ∈ markedRecord.names ∧
      (∀ field ∈ (sample .strict).schema.candidates markedRecord,
        "host_ip" ∉ (sample .strict).schema.derivedNames field) ∧
      ((sample .strict).filter markedRecord).record.get? "host_ip" =
        some (.string "10.0.0.1") := by
  have held : "host_ip" ∈ markedRecord.names := by decide
  have underived : ∀ field ∈ (sample .strict).schema.candidates markedRecord,
      "host_ip" ∉ (sample .strict).schema.derivedNames field := by decide
  have keeps := filter_keeps_iff (sample .strict) markedRecord
  exact ⟨held, underived, keeps.2.1 "host_ip" held underived⟩

end Engine

end GeoTag
