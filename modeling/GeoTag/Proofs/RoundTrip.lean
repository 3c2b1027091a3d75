import GeoTag.Proofs.ContentEquality
import GeoTag.Proofs.FilledNames

/-!
# Records from objects and back

An object is the object of its record.  A record is the record of its object up to the fields that no
object leads to (`FieldValue.Foreign`): typed addresses, floats that are not finite, and values of a kind
of their own that stand under the kind for all others.  `Record.round_trip` says so for
identical fields and for fields that are equal by content.
-/

namespace GeoTag

/-! ## Fields that no object leads to -/

namespace FieldValue

/-- The field is not made from a JSON value. -/
inductive Foreign : FieldValue → Prop
  /-- A typed address. -/
  | address (address : Address) : Foreign (.address address)
  /-- An infinity or no number. -/
  | float {f : Float} : f.isFinite = false → Foreign (.float f)
  /-- A text that is not kept as one. -/
  | string (s : String) : Foreign (.other (.string s))
  /-- A truth value that is not kept as one. -/
  | bool (b : Bool) : Foreign (.other (.bool b))
  /-- An integer of 64 bits with a sign that is not kept as one. -/
  | integer {i : Int} {fits : Json.Number.Fits i} : i < 0x8000000000000000 →
      Foreign (.other (.number (.integer i fits)))
  /-- A float that is not kept as one. -/
  | number (f : Float) (finite : f.isFinite = true) : Foreign (.other (.number (.float f finite)))

theorem isFinite_of_not_foreign {f : Float} (h : ¬ Foreign (.float f)) : f.isFinite = true := by
  cases hfinite : f.isFinite with
  | true => rfl
  | false => exact absurd (.float hfinite) h

theorem toJson_float_of_not_isFinite {f : Float} (h : f.isFinite = false) :
    toJson (.float f) = .null := by
  have hnone : Json.Number.ofFloat? f = none := dif_neg (Bool.eq_false_iff.1 h)
  rw [toJson, hnone]
  rfl

/-- A foreign field comes back as a field of another kind. -/
theorem Foreign.changed {value : FieldValue} (h : value.Foreign) :
    ofJson value.toJson ≠ value ∧ (ofJson value.toJson).same value = false := by
  cases h with
  | float hinfinite =>
    rw [toJson_float_of_not_isFinite hinfinite]
    exact ⟨fun hsame => (by cases hsame), rfl⟩
  | integer hsmall =>
    rw [toJson, ofJson_integer, if_pos hsmall]
    exact ⟨fun hsame => (by cases hsame), rfl⟩
  | _ => exact ⟨fun hsame => (by cases hsame), rfl⟩

/-- Any other field comes back as it is. -/
theorem ofJson_toJson {value : FieldValue} (h : ¬ value.Foreign) : ofJson value.toJson = value := by
  cases value with
  | string s => rfl
  | bool b => rfl
  | address a => exact absurd (.address a) h
  | integer i =>
    have hsmall : i.toInt < 0x8000000000000000 := i.toInt_lt
    rw [toJson, numberOfInt64, ofJson_integer, if_pos hsmall, Int64.ofInt_toInt]
  | float f =>
    have hsome : Json.Number.ofFloat? f = some (.float f (isFinite_of_not_foreign h)) :=
      dif_pos (isFinite_of_not_foreign h)
    rw [toJson, hsome]
    rfl
  | other inner =>
    cases inner with
    | string s => exact absurd (.string s) h
    | bool b => exact absurd (.bool b) h
    | number n =>
      cases n with
      | integer i fits =>
        have hlarge : ¬ i < 0x8000000000000000 := fun hsmall => h (.integer hsmall)
        rw [toJson, ofJson_integer, if_neg hlarge]
      | float f finite => exact absurd (.number f finite) h
    | _ => rfl

/-- A field whose JSON value has no name twice is equal to itself, unless it is no number. -/
theorem same_self {value : FieldValue} (h : ¬ value.Foreign) (distinct : value.toJson.Distinct) :
    value.same value = true := by
  cases value with
  | float f => exact Floating.beq_self_of_isFinite (isFinite_of_not_foreign h)
  | other inner => exact inner.same_self distinct
  | _ => exact decide_eq_true rfl

theorem ofJson_toJson_eq_iff (value : FieldValue) : ofJson value.toJson = value ↔ ¬ value.Foreign :=
  ⟨fun h hforeign => hforeign.changed.1 h, ofJson_toJson⟩

theorem not_foreign_ofJson (value : Json) : ¬ (ofJson value).Foreign := by
  rw [← ofJson_toJson_eq_iff, toJson_ofJson]

theorem same_ofJson_toJson_iff {value : FieldValue} (distinct : value.toJson.Distinct) :
    (ofJson value.toJson).same value = true ↔ ¬ value.Foreign := by
  constructor
  · intro h hforeign
    exact Bool.false_ne_true (hforeign.changed.2.symm.trans h)
  · intro h
    rw [ofJson_toJson h]
    exact same_self h distinct

end FieldValue

/-! ## Records -/

namespace Record

/-- Two records have equal fields, one by one and in order. -/
def SameFields (a b : Record) : Prop :=
  List.Forall₂ (fun f g => f.1 = g.1 ∧ f.2.same g.2 = true) a.fields b.fields

theorem fields_ofMembers_toMembers (record : Record) :
    (ofMembers record.toMembers).fields =
      record.fields.map fun f => (f.1, FieldValue.ofJson f.2.toJson) := by
  rw [fields_ofMembers record.nodup_names_toMembers, toMembers, List.map_map]
  rfl

theorem distinct_toJson_of_mem {record : Record} (h : record.toJson.Distinct) {f : String × FieldValue}
    (hf : f ∈ record.fields) : f.2.toJson.Distinct :=
  record.distinct_toJson_iff.1 h f hf

/-- The members of an object are the members of its record, in the same order.  A record is the record of
its members exactly when none of its fields is foreign, whether its fields have to be identical or, as long
as no object in it has a name twice, equal by content. -/
theorem round_trip :
    (∀ members : List (String × Json), (Keyed.names members).Nodup →
      (ofMembers members).toMembers = members) ∧
    ∀ record : Record,
      ((ofMembers record.toMembers).fields = record.fields ↔ ∀ f ∈ record.fields, ¬ f.2.Foreign) ∧
      (record.toJson.Distinct →
        ((ofMembers record.toMembers).SameFields record ↔
          ∀ f ∈ record.fields, ¬ f.2.Foreign)) := by
  refine ⟨fun members => toMembers_ofMembers, fun record => ⟨?_, fun distinct => ?_⟩⟩
  · rw [fields_ofMembers_toMembers]
    nth_rewrite 2 [← List.map_id record.fields]
    rw [List.map_inj_left]
    refine forall₂_congr fun f _ => ?_
    rw [← FieldValue.ofJson_toJson_eq_iff, id, Prod.ext_iff, and_iff_right rfl]
  · rw [SameFields, fields_ofMembers_toMembers, List.forall₂_map_left_iff, List.forall₂_same]
    refine forall₂_congr fun f hf => ?_
    rw [FieldValue.same_ofJson_toJson_iff (distinct_toJson_of_mem distinct hf), and_iff_right rfl]

/-- Members with integers at the ends of their ranges, a negative zero and a nested object. -/
def limitMembers : List (String × Json) :=
  [("z", .number (.integer (-0x8000000000000000) (by decide))),
    ("y", .number (.integer 0x7fffffffffffffff (by decide))),
    ("x", .number (.integer 0x8000000000000000 (by decide))),
    ("w", .object [("b", .array [.number (.integer 0xffffffffffffffff (by decide)), .null]),
      ("a", .bool true)]),
    ("v", .number (.float (Float.ofBits 0x8000000000000000) (by decide +kernel)))]

/-- A record with a typed address behind a text. -/
def typedRecord : Record :=
  ⟨[("name", .string "a"), ("ip", .address (.v4 0x0a000001))], by decide⟩

theorem round_trip_limits :
    (Keyed.names limitMembers).Nodup ∧ (ofMembers limitMembers).toMembers = limitMembers ∧
      (ofMembers limitMembers).toJson.Distinct ∧
      (ofMembers (ofMembers limitMembers).toMembers).SameFields (ofMembers limitMembers) ∧
      typedRecord.toJson.Distinct ∧
      ¬ (ofMembers typedRecord.toMembers).SameFields typedRecord := by
  have distinct : (Keyed.names limitMembers).Nodup := by decide
  have hmembers := round_trip.1 limitMembers distinct
  have hlimits : (ofMembers limitMembers).toJson.Distinct := by
    rw [toJson, hmembers]
    simp [limitMembers, Json.Distinct, Json.DistinctMembers, Json.DistinctItems, Keyed.names]
  have htyped : typedRecord.toJson.Distinct := by
    simp [typedRecord, toJson, toMembers, FieldValue.toJson, Json.Distinct, Json.DistinctMembers,
      Keyed.names]
  refine ⟨distinct, hmembers, hlimits, ?_, htyped, ?_⟩
  · refine ((round_trip.2 _).2 hlimits).2 fun f hf => ?_
    rw [fields_ofMembers distinct] at hf
    obtain ⟨member, -, rfl⟩ := List.mem_map.1 hf
    exact FieldValue.not_foreign_ofJson member.2
  · intro hsame
    exact ((round_trip.2 _).2 htyped).1 hsame _ (List.mem_of_getElem? (i := 1) rfl) (.address _)

end Record

end GeoTag
