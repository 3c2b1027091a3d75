import GeoTag.Proofs.LookupCount

/-!
# Fields that are not looked at

Two records may differ in the fields that a schema does not look at (`Schema.AgreeOn`).  Every visit
reads a field that they agree on, so it writes the same fields into both and looks up the same
(`Engine.writeDerived_differAsBefore`).  After a run the records differ only in fields that are not
looked at and that the run wrote into neither (`Engine.filter_agreeOn`).
-/

namespace GeoTag

namespace Schema

variable {schema : Schema}

/-- The records have the same names in the same order and the same values in the fields that the schema
looks at. -/
structure AgreeOn (schema : Schema) (a b : Record) : Prop where
  names : a.names = b.names
  value : ∀ name, schema.isCandidate name = true → a.get? name = b.get? name

theorem AgreeOn.candidates {a b : Record} (h : schema.AgreeOn a b) :
    schema.candidates a = schema.candidates b := by
  rw [Schema.candidates, Schema.candidates, h.names]

/-- Two records on their way from two others: they have the same names in the same order, and a field
has one value in both or is not looked at and stands in each as it did at the start. -/
structure DifferAsBefore (schema : Schema) (a₀ b₀ a b : Record) : Prop where
  names : a.names = b.names
  value : ∀ name, a.get? name = b.get? name ∨
    schema.isCandidate name = false ∧ a.get? name = a₀.get? name ∧ b.get? name = b₀.get? name

theorem AgreeOn.differAsBefore {a b : Record} (h : schema.AgreeOn a b) :
    schema.DifferAsBefore a b a b where
  names := h.names
  value name := by
    cases hname : schema.isCandidate name with
    | true => exact Or.inl (h.value name hname)
    | false => exact Or.inr ⟨rfl, rfl, rfl⟩

variable {a₀ b₀ a b : Record}

theorem DifferAsBefore.get?_eq (h : schema.DifferAsBefore a₀ b₀ a b) {name : String}
    (hname : schema.isCandidate name = true) : a.get? name = b.get? name := by
  rcases h.value name with heq | ⟨hunseen, -⟩
  · exact heq
  · rw [hname] at hunseen
    cases hunseen

theorem DifferAsBefore.put (h : schema.DifferAsBefore a₀ b₀ a b) (name : String)
    (value : FieldValue) : schema.DifferAsBefore a₀ b₀ (a.put name value) (b.put name value) where
  names := by rw [Record.names_put, Record.names_put, h.names]
  value other := by
    rw [Record.get?_put, Record.get?_put]
    by_cases hother : other = name
    · rw [if_pos hother, if_pos hother]
      exact Or.inl rfl
    · rw [if_neg hother, if_neg hother]
      exact h.value other

theorem DifferAsBefore.putAll (h : schema.DifferAsBefore a₀ b₀ a b)
    (fs : List (String × FieldValue)) :
    schema.DifferAsBefore a₀ b₀ (a.putAll fs) (b.putAll fs) := by
  induction fs generalizing a b with
  | nil => exact h
  | cons f fs ih => exact ih (h.put f.1 f.2)

end Schema

namespace Engine

variable {a₀ b₀ a b : Record}

theorem writeDerived_differAsBefore (engine : Engine)
    (h : engine.schema.DifferAsBefore a₀ b₀ a b) {name : String}
    (hname : engine.schema.isCandidate name = true) :
    engine.schema.DifferAsBefore a₀ b₀ (engine.writeDerived a name) (engine.writeDerived b name) := by
  rw [writeDerived, writeDerived, engine.derivedFields_congr (h.get?_eq hname)]
  exact h.putAll _

theorem run_agreeOn (engine : Engine) (h : engine.schema.AgreeOn a b) :
    engine.schema.DifferAsBefore a b (engine.run a).record (engine.run b).record ∧
      (engine.run a).lookups = (engine.run b).lookups := by
  rw [run, run, h.candidates]
  refine foldl_visit_rel (fun name hname c d hcd => ?_) h.differAsBefore rfl
  have hcandidate := ((engine.schema.mem_candidates_iff b name).1 hname).2
  exact ⟨engine.writeDerived_differAsBefore hcd hcandidate,
    engine.lookupsAt_congr (hcd.get?_eq hcandidate)⟩

/-- What a field holds that is not looked at has no part in a run.  Records that agree on the fields
that are looked at come out after the same look-ups, with the same names in the same order, and a field
in which they differ is one that is not looked at and that each of them has kept as it was. -/
theorem filter_agreeOn (engine : Engine) {a b : Record} (h : engine.schema.AgreeOn a b) :
    (engine.filter a).applied = (engine.filter b).applied ∧
      (engine.filter a).lookups = (engine.filter b).lookups ∧
      (engine.filter a).record.names = (engine.filter b).record.names ∧
      ∀ name, (engine.filter a).record.get? name = (engine.filter b).record.get? name ∨
        engine.schema.isCandidate name = false ∧
          (engine.filter a).record.get? name = a.get? name ∧
          (engine.filter b).record.get? name = b.get? name := by
  unfold filter
  split
  · obtain ⟨hrecord, hlookups⟩ := engine.run_agreeOn h
    exact ⟨rfl, hlookups, hrecord.names, hrecord.value⟩
  · exact ⟨rfl, rfl, h.differAsBefore.names, h.differAsBefore.value⟩

/-- A record with two internal fields, one of them under the name of the marker of another field. -/
def loggedRecord : Record :=
  Record.empty.putAll
    [("gl2_source", .string "5.5.1.1"), ("client", .string "8.8.8.8"), ("gl2", .string "10.0.0.1"),
      ("gl2_reserved_ip", .string "no")]

/-- The same record with other internal fields. -/
def relabelledRecord : Record :=
  loggedRecord.putAll [("gl2_source", .integer 7), ("gl2_reserved_ip", .string "yes")]

theorem filter_agreeOn_logged :
    Schema.legacy.AgreeOn loggedRecord relabelledRecord ∧
      ((sample .legacy).filter relabelledRecord).lookups = [⟨.location, .v4 0x08080808⟩] := by
  have agree : Schema.legacy.AgreeOn loggedRecord relabelledRecord := by
    refine ⟨by decide, fun name hname => (Record.get?_putAll_of_notMem ?_ loggedRecord).symm⟩
    have hinternal : ∀ other ∈ ["gl2_source", "gl2_reserved_ip"],
        Schema.legacy.isCandidate other = false := by decide
    intro hmem
    rw [hinternal name hmem] at hname
    cases hname
  refine ⟨agree, ?_⟩
  rw [← (filter_agreeOn (sample .legacy) agree).2.1]
  decide

end Engine

end GeoTag
