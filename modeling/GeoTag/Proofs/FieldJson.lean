import GeoTag.Proofs.FieldText
import GeoTag.Proofs.Writing

/-!
# Fields and their JSON values

A JSON value seen as a field and then as a JSON value again is the same value (`toJson_ofJson`), and so
is a row of members with distinct names (`Record.toMembers_ofMembers`).  The other way round a field may
change its kind: a typed address becomes its text.  An address survives that (`address?_toJson`), as long
as no field holds, under the kind for all other JSON values, a value that has a kind of its own
(`FieldValue.Proper`).
-/

namespace GeoTag

/-- The address that a JSON value spells. -/
def Json.address? (value : Json) : Option Address := value.string?.bind Address.ofText?

theorem Address.ofText?_toText (address : Address) : ofText? address.toText = some address := by
  have empty : Text.Blank "".toList := fun _ h => absurd h List.not_mem_nil
  have hread := ofText?_of_ofLiteral? empty empty address.ofLiteral?_render
    address.two_le_length_render address.length_render_le
  simpa [toText] using hread

namespace FieldValue

/-! ## One value -/

theorem ofJson_integer (i : Int) (fits : Json.Number.Fits i) :
    ofJson (.number (.integer i fits)) =
      if i < 0x8000000000000000 then .integer (Int64.ofInt i)
      else .other (.number (.integer i fits)) := rfl

theorem toJson_ofJson (value : Json) : (ofJson value).toJson = value := by
  cases value with
  | number n =>
    cases n with
    | integer i fits =>
      rw [ofJson_integer]
      split
      · rename_i hsmall
        have hkept : (Int64.ofInt i).toInt = i := Int64.toInt_ofInt_of_le fits.1 hsmall
        simp only [toJson, numberOfInt64, hkept]
      · rfl
    | float f finite => simp [ofJson, toJson, Json.Number.ofFloat?, finite]
  | _ => rfl

/-- A field of the kind for other JSON values holds `null`, an array, an object or an integer that
needs all 64 bits, as fields made from JSON values do. -/
def Proper : FieldValue → Prop
  | .other .null => True
  | .other (.array _) => True
  | .other (.object _) => True
  | .other (.number (.integer i _)) => 0x8000000000000000 ≤ i
  | .other _ => False
  | _ => True

theorem proper_ofJson (value : Json) : (ofJson value).Proper := by
  cases value with
  | number n =>
    cases n with
    | integer i fits =>
      rw [ofJson_integer]
      split
      · trivial
      · rename_i hlarge
        exact Int.not_lt.1 hlarge
    | float f finite => trivial
  | _ => trivial

/-- The address in a field is the one that its JSON value spells. -/
theorem address?_toJson {value : FieldValue} (proper : value.Proper) :
    value.toJson.address? = value.address? := by
  cases value with
  | string s => rfl
  | address a => exact a.ofText?_toText
  | float f =>
    show ((Json.Number.ofFloat? f).map Json.number |>.getD .null).address? = none
    cases Json.Number.ofFloat? f <;> rfl
  | other inner =>
    cases inner with
    | string s => exact proper.elim
    | _ => rfl
  | _ => rfl

end FieldValue

/-! ## Rows -/

namespace Keyed

variable {α : Type}

theorem foldl_put_of_nodup {pairs entries : List (String × α)}
    (h : (names (entries ++ pairs)).Nodup) :
    pairs.foldl (fun entries p => put p.1 p.2 entries) entries = entries ++ pairs := by
  induction pairs generalizing entries with
  | nil => exact (List.append_nil entries).symm
  | cons p pairs ih =>
    have hnew : p.1 ∉ names entries := by
      rw [names_append] at h
      exact fun hold => (List.nodup_append.1 h).2.2 p.1 hold p.1 List.mem_cons_self rfl
    rw [List.foldl_cons, put_of_notMem hnew, ih]
    · rw [List.append_assoc, List.singleton_append]
    · rwa [List.append_assoc, List.singleton_append]

/-- Pairs with distinct names stay as they are. -/
theorem ofList_eq_self {pairs : List (String × α)} (h : (names pairs).Nodup) :
    ofList pairs = pairs := by
  have hempty : (names ([] ++ pairs)).Nodup := h
  exact foldl_put_of_nodup hempty

theorem names_mapValues {β : Type} (f : α → β) (entries : List (String × α)) :
    names (entries.map fun e => (e.1, f e.2)) = names entries := by
  simp [names]

theorem get?_mapValues {β : Type} (f : α → β) (name : String) (entries : List (String × α)) :
    get? name (entries.map fun e => (e.1, f e.2)) = (get? name entries).map f := by
  induction entries with
  | nil => rfl
  | cons e entries ih =>
    by_cases h : e.1 = name
    · simp [get?, h]
    · simpa [get?, h] using ih

theorem put_mapValues {β : Type} (f : α → β) (name : String) (value : α)
    (entries : List (String × α)) :
    put name (f value) (entries.map fun e => (e.1, f e.2)) =
      (put name value entries).map fun e => (e.1, f e.2) := by
  induction entries with
  | nil => rfl
  | cons e entries ih =>
    by_cases h : e.1 = name
    · simp [put, h]
    · simpa [put, h] using ih

end Keyed

namespace Record

theorem names_toMembers (record : Record) : Keyed.names record.toMembers = record.names :=
  Keyed.names_mapValues _ _

theorem nodup_names_toMembers (record : Record) : (Keyed.names record.toMembers).Nodup := by
  rw [names_toMembers]
  exact record.nodup

theorem get?_toMembers (record : Record) (name : String) :
    Keyed.get? name record.toMembers = (record.get? name).map FieldValue.toJson :=
  Keyed.get?_mapValues _ _ _

theorem toMembers_put (record : Record) (name : String) (value : FieldValue) :
    (record.put name value).toMembers = Keyed.put name value.toJson record.toMembers :=
  (Keyed.put_mapValues _ _ _ _).symm

theorem fields_ofMembers {members : List (String × Json)} (h : (Keyed.names members).Nodup) :
    (ofMembers members).fields = members.map fun m => (m.1, FieldValue.ofJson m.2) := by
  apply Keyed.ofList_eq_self
  rwa [Keyed.names_mapValues]

/-- Members with distinct names are the members of their record. -/
theorem toMembers_ofMembers {members : List (String × Json)} (h : (Keyed.names members).Nodup) :
    (ofMembers members).toMembers = members := by
  rw [toMembers, fields_ofMembers h, List.map_map]
  simp [Function.comp_def, FieldValue.toJson_ofJson]

/-- Every field holds a value under the kind that JSON values of its sort have. -/
def Proper (record : Record) : Prop := ∀ f ∈ record.fields, f.2.Proper

theorem proper_ofMembers {members : List (String × Json)} (h : (Keyed.names members).Nodup) :
    (ofMembers members).Proper := by
  intro f hf
  rw [fields_ofMembers h] at hf
  obtain ⟨m, -, rfl⟩ := List.mem_map.1 hf
  exact FieldValue.proper_ofJson m.2

end Record

end GeoTag
