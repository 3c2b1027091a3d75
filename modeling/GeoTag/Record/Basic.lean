import GeoTag.Json.Reader
import GeoTag.Record.Value

/-!
# Records

A `Record` is a row of named fields with distinct names in order of first insertion.  `Record.put`
writes a field, `Record.get?` reads one; `Record.parse` and `Record.toText` convert from and to the
text of a JSON object.
-/

namespace GeoTag

/-- Named fields with distinct names, in order of first insertion. -/
structure Record where
  /-- The fields, in order. -/
  fields : List (String × FieldValue)
  /-- No name occurs twice. -/
  nodup : (Keyed.names fields).Nodup

namespace Record

/-- The record without fields. -/
def empty : Record := ⟨[], List.nodup_nil⟩

/-- The names of the fields, in order. -/
def names (record : Record) : List String := Keyed.names record.fields

/-- The value of a field. -/
def get? (record : Record) (name : String) : Option FieldValue := Keyed.get? name record.fields

/-- Writes a field, at the place of the name or at the end. -/
def put (record : Record) (name : String) (value : FieldValue) : Record :=
  ⟨Keyed.put name value record.fields, Keyed.nodup_names_put name value record.nodup⟩

/-- Writes fields one after the other. -/
def putAll (record : Record) (fields : List (String × FieldValue)) : Record :=
  fields.foldl (fun r f => r.put f.1 f.2) record

/-- The number of fields. -/
def size (record : Record) : Nat := record.fields.length

/-- The record has no field. -/
def isEmpty (record : Record) : Bool := record.fields.isEmpty

/-- The record of the members of a JSON object. -/
def ofMembers (members : List (String × Json)) : Record :=
  ⟨Keyed.ofList (members.map fun m => (m.1, FieldValue.ofJson m.2)), Keyed.nodup_names_ofList _⟩

/-- The members of the JSON object of a record. -/
def toMembers (record : Record) : List (String × Json) :=
  record.fields.map fun f => (f.1, f.2.toJson)

/-- The JSON object of a record. -/
def toJson (record : Record) : Json := .object record.toMembers

/-- The compact text of the JSON object of a record. -/
def toText (record : Record) : String := record.toJson.toText

/-- Equality: as many fields, and an equal one under each name. -/
def same (a b : Record) : Bool :=
  a.size = b.size && a.fields.all fun f =>
    match b.get? f.1 with
    | some value => f.2.same value
    | none => false

/-- Why a text is no record. -/
inductive Fault where
  /-- The text is no JSON value. -/
  | malformed
  /-- The text is a JSON value, but no object. -/
  | notAnObject
deriving DecidableEq, Repr

/-- The record of the text of a JSON object. -/
def parse (s : String) : Except Fault Record :=
  match Json.parse? s with
  | none => .error .malformed
  | some (.object members) => .ok (ofMembers members)
  | some _ => .error .notAnObject

theorem names_put (record : Record) (name : String) (value : FieldValue) :
    (record.put name value).names =
      if name ∈ record.names then record.names else record.names ++ [name] :=
  Keyed.names_put name value record.fields

theorem get?_put (record : Record) (name other : String) (value : FieldValue) :
    (record.put name value).get? other = if other = name then some value else record.get? other :=
  Keyed.get?_put name other value record.fields

theorem get?_eq_none_iff (record : Record) (name : String) :
    record.get? name = none ↔ name ∉ record.names :=
  Keyed.get?_eq_none_iff name record.fields

theorem putAll_append (record : Record) (fs gs : List (String × FieldValue)) :
    record.putAll (fs ++ gs) = (record.putAll fs).putAll gs :=
  List.foldl_append

end Record

end GeoTag
