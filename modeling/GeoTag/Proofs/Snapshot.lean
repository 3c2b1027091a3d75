import GeoTag.Proofs.Derivation

/-!
# Runs that a snapshot decides

The names of the candidates are fixed before a run, but each value is read when its turn comes.  If
no derived field falls on a candidate (`Engine.Separate`) the two moments cannot be told apart: the
run writes, in one row, what the candidates lead to in the record as it was
(`record_filter_of_separate`).  The names of that row are distinct
(`nodup_names_allDerivedFields`).  The strict schema keeps every record separate
(`separate_of_strict`).
-/

namespace GeoTag

theorem Record.nodup_candidates (record : Record) (schema : Schema) :
    (schema.candidates record).Nodup :=
  record.nodup.filter _

namespace Engine

/-- The fields derived from the candidates of a record as it stands, one candidate after the
other. -/
def allDerivedFields (engine : Engine) (record : Record) : List (String × FieldValue) :=
  (engine.schema.candidates record).flatMap (engine.derivedFields record)

/-- No field derived from one of the names falls on one of the names. -/
def Separate (engine : Engine) (record : Record) (names : List String) : Prop :=
  ∀ f ∈ names, ∀ g ∈ names, g ∉ Keyed.names (engine.derivedFields record f)

/-- The fields of the first name are on no later one, so a later visit reads what stood there before. -/
theorem Separate.get?_writeDerived {engine : Engine} {f g : String} {names : List String}
    {record : Record} (h : engine.Separate record (f :: names)) (hg : g ∈ names) :
    (engine.writeDerived record f).get? g = record.get? g :=
  Record.get?_putAll_of_notMem (h f List.mem_cons_self g (List.mem_cons_of_mem f hg)) record

theorem Separate.writeDerived {engine : Engine} {f : String} {names : List String}
    {record : Record} (h : engine.Separate record (f :: names)) :
    engine.Separate (engine.writeDerived record f) names := by
  intro a ha b hb
  rw [engine.derivedFields_congr (h.get?_writeDerived ha)]
  exact h a (List.mem_cons_of_mem f ha) b (List.mem_cons_of_mem f hb)

theorem foldl_writeDerived_of_separate (engine : Engine) {names : List String} {record : Record}
    (h : engine.Separate record names) :
    names.foldl engine.writeDerived record =
      record.putAll (names.flatMap (engine.derivedFields record)) := by
  induction names generalizing record with
  | nil => rfl
  | cons f names ih =>
    have keep : names.map (engine.derivedFields (engine.writeDerived record f)) =
        names.map (engine.derivedFields record) :=
      List.map_congr_left fun g hg => engine.derivedFields_congr (h.get?_writeDerived hg)
    rw [List.foldl_cons, ih h.writeDerived, List.flatMap_def, keep, ← List.flatMap_def,
      List.flatMap_cons, Record.putAll_append, Engine.writeDerived]

theorem record_filter_of_separate {engine : Engine} (enabled : engine.enabled = true)
    {record : Record} (h : engine.Separate record (engine.schema.candidates record)) :
    (engine.filter record).record = record.putAll (engine.allDerivedFields record) := by
  rw [record_filter_of_enabled enabled]
  exact engine.foldl_writeDerived_of_separate h

theorem mem_allDerivedFields_iff (engine : Engine) (record : Record) (f : String × FieldValue) :
    f ∈ engine.allDerivedFields record ↔
      ∃ name ∈ engine.schema.candidates record, f ∈ engine.derivedFields record name :=
  List.mem_flatMap

/-- Candidates in the order of their turns: none has two. -/
structure Turns (engine : Engine) (names : List String) : Prop where
  nodup : names.Nodup
  candidate : ∀ name ∈ names, engine.schema.isCandidate name = true

theorem turns_candidates (engine : Engine) (record : Record) :
    engine.Turns (engine.schema.candidates record) where
  nodup := record.nodup_candidates engine.schema
  candidate name hname := ((engine.schema.mem_candidates_iff record name).1 hname).2

/-- No name is derived at two turns. -/
theorem Turns.nodup_names_flatMap {engine : Engine} {names : List String}
    (turns : engine.Turns names) (record : Record) :
    (Keyed.names (names.flatMap (engine.derivedFields record))).Nodup := by
  unfold Keyed.names
  rw [List.map_flatMap, List.Nodup, List.pairwise_flatMap]
  refine ⟨fun name _ => engine.nodup_names_derivedFields record name, ?_⟩
  refine List.Pairwise.imp_of_mem ?_ turns.nodup
  intro f g hf hg hne x hx y hy hxy
  subst hxy
  exact hne (engine.schema.eq_of_mem_derivedNames (turns.candidate f hf) (turns.candidate g hg)
    (mem_derivedNames_of_mem_names hx) (mem_derivedNames_of_mem_names hy))

theorem nodup_names_allDerivedFields (engine : Engine) (record : Record) :
    (Keyed.names (engine.allDerivedFields record)).Nodup :=
  (engine.turns_candidates record).nodup_names_flatMap record

theorem separate_of_strict {engine : Engine} (strict : engine.schema = .strict) (record : Record) :
    engine.Separate record (engine.schema.candidates record) := by
  intro f hf g hg hmem
  have hfc := ((engine.schema.mem_candidates_iff record f).1 hf).2
  have hgc := ((engine.schema.mem_candidates_iff record g).1 hg).2
  have hderived := mem_derivedNames_of_mem_names hmem
  rw [strict] at hfc hgc hderived
  rw [Schema.not_isCandidate_of_mem_derivedNames hfc hderived] at hgc
  cases hgc

end Engine

end GeoTag
