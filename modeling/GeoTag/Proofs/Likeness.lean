import GeoTag.Proofs.FieldJson
import GeoTag.Proofs.LookupCount

/-!
# Records alike

Two records are alike (`Record.Alike`) when they make the same JSON object and hold the same addresses
under the same names.  Every visit of a run keeps two records alike and looks up the same in both,
because what it writes depends on the addresses alone (`Engine.filter_alike`).  A record is alike to the
record of its own JSON object, so enriching it before or after going through JSON is the same
(`Engine.toMembers_filter_ofMembers`).
-/

namespace GeoTag

namespace Record

/-- The records make the same JSON object and hold the same addresses. -/
structure Alike (a b : Record) : Prop where
  members : a.toMembers = b.toMembers
  address : ∀ name, a.address? name = b.address? name

theorem address?_eq_of_proper {record : Record} (proper : record.Proper) (name : String) :
    record.address? name = (Keyed.get? name record.toMembers).bind Json.address? := by
  rw [get?_toMembers, address?]
  cases h : record.get? name with
  | none => rfl
  | some value =>
    have hmem : (name, value) ∈ record.fields := (Keyed.get?_eq_some_iff record.nodup name value).1 h
    exact (FieldValue.address?_toJson (proper (name, value) hmem)).symm

theorem alike_of_toMembers_eq {a b : Record} (ha : a.Proper) (hb : b.Proper)
    (h : a.toMembers = b.toMembers) : a.Alike b where
  members := h
  address name := by rw [address?_eq_of_proper ha, address?_eq_of_proper hb, h]

theorem alike_ofMembers_toMembers {record : Record} (proper : record.Proper) :
    record.Alike (ofMembers record.toMembers) :=
  alike_of_toMembers_eq proper (proper_ofMembers record.nodup_names_toMembers)
    (toMembers_ofMembers record.nodup_names_toMembers).symm

variable {a b : Record}

theorem Alike.names (h : a.Alike b) : a.names = b.names := by
  rw [← a.names_toMembers, h.members, b.names_toMembers]

theorem Alike.put (h : a.Alike b) (name : String) (value : FieldValue) :
    (a.put name value).Alike (b.put name value) where
  members := by rw [toMembers_put, toMembers_put, h.members]
  address other := by
    have hother := h.address other
    unfold address? at hother ⊢
    rw [get?_put, get?_put]
    split
    · rfl
    · exact hother

theorem Alike.putAll (h : a.Alike b) (fs : List (String × FieldValue)) :
    (a.putAll fs).Alike (b.putAll fs) := by
  induction fs generalizing a b with
  | nil => exact h
  | cons f fs ih => exact ih (h.put f.1 f.2)

end Record

namespace Engine

variable {a b : Record}

/-- What a field leads to is decided by the address in it. -/
theorem writeDerived_alike (engine : Engine) (h : a.Alike b) (name : String) :
    (engine.writeDerived a name).Alike (engine.writeDerived b name) := by
  have hrow : engine.derivedFields a name = engine.derivedFields b name := by
    unfold derivedFields
    rw [h.address name]
  rw [writeDerived, writeDerived, hrow]
  exact h.putAll _

theorem lookupsAt_alike (engine : Engine) (h : a.Alike b) (name : String) :
    engine.lookupsAt a name = engine.lookupsAt b name := by
  unfold lookupsAt
  rw [h.address name]

theorem run_alike (engine : Engine) (h : a.Alike b) :
    (engine.run a).record.Alike (engine.run b).record ∧
      (engine.run a).lookups = (engine.run b).lookups := by
  have hcandidates : engine.schema.candidates a = engine.schema.candidates b := by
    rw [Schema.candidates, Schema.candidates, h.names]
  rw [run, run, hcandidates]
  refine foldl_visit_rel (fun name _ a b hab => ?_) h rfl
  exact ⟨engine.writeDerived_alike hab name, engine.lookupsAt_alike hab name⟩

/-- Records alike come out alike, after the same look-ups. -/
theorem filter_alike (engine : Engine) (h : a.Alike b) :
    (engine.filter a).record.Alike (engine.filter b).record ∧
      (engine.filter a).applied = (engine.filter b).applied ∧
      (engine.filter a).lookups = (engine.filter b).lookups := by
  obtain ⟨hrecord, hlookups⟩ := engine.run_alike h
  unfold filter
  split
  · exact ⟨hrecord, rfl, hlookups⟩
  · exact ⟨h, rfl, rfl⟩

/-- Going through JSON before a run changes neither the JSON object that comes out of the run nor
whether the engine applies nor what it looks up.  Any two records that make one JSON object, such as
one with a typed address and one with its text, come out the same in this sense. -/
theorem toMembers_filter_ofMembers (engine : Engine) {record : Record} (proper : record.Proper) :
    ((engine.filter record).record.toMembers =
        (engine.filter (.ofMembers record.toMembers)).record.toMembers ∧
      (engine.filter record).applied = (engine.filter (.ofMembers record.toMembers)).applied ∧
      (engine.filter record).lookups = (engine.filter (.ofMembers record.toMembers)).lookups) ∧
    ∀ other : Record, other.Proper → other.toMembers = record.toMembers →
      (engine.filter other).record.toMembers = (engine.filter record).record.toMembers ∧
      (engine.filter other).applied = (engine.filter record).applied ∧
      (engine.filter other).lookups = (engine.filter record).lookups := by
  constructor
  · obtain ⟨halike, hrest⟩ := engine.filter_alike (Record.alike_ofMembers_toMembers proper)
    exact ⟨halike.members, hrest⟩
  · intro other hother hmembers
    obtain ⟨halike, hrest⟩ :=
      engine.filter_alike (Record.alike_of_toMembers_eq hother proper hmembers)
    exact ⟨halike.members, hrest⟩

/-- A record with a typed address under the name of a city that another typed address leads to, and
with a float that is no number. -/
def typedRecord : Record :=
  Record.empty.putAll
    [("client", .address (.v4 0x08080808)), ("client_city_name", .address (.v4 0x0A000001)),
      ("ratio", .float (0 / 0)), ("tags", .other (.array [.null]))]

theorem toMembers_filter_ofMembers_sample :
    typedRecord.Proper ∧
      ((sample .legacy).filter typedRecord).record.toMembers =
        ((sample .legacy).filter (.ofMembers typedRecord.toMembers)).record.toMembers ∧
      ((sample .legacy).filter (.ofMembers typedRecord.toMembers)).lookups =
        [⟨.location, .v4 0x08080808⟩] := by
  have proper : typedRecord.Proper := by
    intro f hf
    have hfields : f ∈ [("client", FieldValue.address (.v4 0x08080808)),
        ("client_city_name", .address (.v4 0x0A000001)), ("ratio", .float (0 / 0)),
        ("tags", .other (.array [.null]))] := hf
    simp only [List.mem_cons, List.not_mem_nil, or_false] at hfields
    rcases hfields with rfl | rfl | rfl | rfl <;> trivial
  obtain ⟨⟨hmembers, -, hlookups⟩, -⟩ := toMembers_filter_ofMembers (sample .legacy) proper
  refine ⟨proper, hmembers, ?_⟩
  rw [← hlookups]
  decide

end Engine

end GeoTag
