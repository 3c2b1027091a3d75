import GeoTag.Database.Value

/-!
# Records of a database

A record is a map with known keys, or an array of the values of all its members in order.  A
`Member` says how the value under a key is read into a record in the making.  Unknown keys are
passed over; a known key that comes twice is a mismatch, and so is a required member that never
comes.
-/

namespace GeoTag

namespace Database

/-- A member of records of a type. -/
structure Member (σ : Type) where
  /-- The key of the member. -/
  name : String
  /-- A map without the member is a mismatch. -/
  required : Bool
  /-- Reads the value of the member into a record. -/
  load : σ → Scan σ

namespace Member

variable {σ α : Type}

/-- A member that may be missing and is kept. -/
def kept (name : String) (value : Scan α) (put : σ → α → σ) : Member σ :=
  ⟨name, false, fun record => return put record (← value)⟩

/-- A member that may be missing, whose value must have the right shape and is not kept. -/
def checked (name : String) (value : Scan α) : Member σ :=
  ⟨name, false, fun record => return (fun _ => record) (← value)⟩

/-- The member, which must not be missing. -/
def needed (member : Member σ) : Member σ := { member with required := true }

/-- Reads a key and finds its member: by name, or by its place among the members. -/
def ofKey (members : List (Member σ)) : Scan (Option (Member σ)) :=
  visit fun
    | .text key => return members.find? fun f => f.name = key
    | .bytes key => return members.find? fun f => String.fromUTF8? key = some f.name
    | .unsigned place => return members[place]?
    | _ => throw .mismatch

/-- Reads the keys and values of a map into a record; the names that have come already are given,
and all that have come are answered. -/
def loadMap (members : List (Member σ)) : Nat → List String → σ → Scan (List String × σ)
  | 0, seen, record => return (seen, record)
  | count + 1, seen, record => do
    match ← ofKey members with
    | none =>
      skip
      loadMap members count seen record
    | some member =>
      if member.name ∈ seen then throw .mismatch
      else loadMap members count (member.name :: seen) (← member.load record)

/-- Reads the items of an array into a record, one for each member. -/
def loadArray : List (Member σ) → Nat → σ → Scan σ
  | [], _, record => return record
  | _ :: _, 0, _ => throw .mismatch
  | member :: members, count + 1, record => do loadArray members count (← member.load record)

end Member

/-- Reads a record with the given members, starting from a record without any. -/
def record {σ : Type} (members : List (Member σ)) (blank : σ) : Scan σ :=
  visit fun
    | .map count => do
      let (seen, record) ← Member.loadMap members count [] blank
      if members.all fun f => !f.required || f.name ∈ seen then return record else throw .mismatch
    | .array count => Member.loadArray members count blank
    | _ => throw .mismatch

end Database

end GeoTag
