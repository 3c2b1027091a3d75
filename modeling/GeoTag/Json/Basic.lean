import GeoTag.Keyed

/-!
# JSON values

A `Json.Number` is an integer of 64 bits, signed or unsigned, or a finite float.  A `Json` object
keeps its members in order of first insertion.  `Json.same` compares values by content: members in
any order, items in order, integers by value and floats as IEEE numbers; an integer never equals a
float.
-/

namespace GeoTag

namespace Json

/-- The integer has 64 bits, with a sign or without one. -/
def Number.Fits (value : Int) : Prop := -0x8000000000000000 ≤ value ∧ value < 0x10000000000000000

instance (value : Int) : Decidable (Number.Fits value) := inferInstanceAs (Decidable (_ ∧ _))

/-- A number of a JSON text. -/
inductive Number where
  /-- An integer of 64 bits, signed or unsigned. -/
  | integer (value : Int) (fits : Number.Fits value)
  /-- A finite float. -/
  | float (value : Float) (finite : value.isFinite = true)
deriving DecidableEq

/-- The number of an integer that fits into 64 bits, signed or unsigned. -/
def Number.ofInt? (value : Int) : Option Number :=
  if h : Number.Fits value then some (.integer value h) else none

/-- The number of a finite float. -/
def Number.ofFloat? (value : Float) : Option Number :=
  if h : value.isFinite = true then some (.float value h) else none

/-- Equality of numbers: integers by value, floats as IEEE numbers. -/
def Number.same : Number → Number → Bool
  | .integer a _, .integer b _ => a = b
  | .float a _, .float b _ => a == b
  | _, _ => false

end Json

/-- A JSON value. -/
inductive Json where
  /-- The value `null`. -/
  | null
  /-- A truth value. -/
  | bool (value : Bool)
  /-- A number. -/
  | number (value : Json.Number)
  /-- A text. -/
  | string (value : String)
  /-- Values in order. -/
  | array (items : List Json)
  /-- Values under names, in order of first insertion. -/
  | object (members : List (String × Json))

namespace Json

/-- The value under a name of an object; any other value has none. -/
def get? (name : String) : Json → Option Json
  | .object members => Keyed.get? name members
  | _ => none

/-- The text of a string. -/
def string? : Json → Option String
  | .string s => some s
  | _ => none

mutual

/-- Equality by content: members in any order, items in order. -/
def same : Json → Json → Bool
  | .null, .null => true
  | .bool a, .bool b => a = b
  | .number a, .number b => a.same b
  | .string a, .string b => a = b
  | .array a, .array b => sameItems a b
  | .object a, .object b => a.length = b.length && sameMembers a b
  | _, _ => false

/-- Equality of items, one by one. -/
def sameItems : List Json → List Json → Bool
  | [], [] => true
  | a :: as, b :: bs => same a b && sameItems as bs
  | _, _ => false

/-- Every member has an equal one under the same name on the other side. -/
def sameMembers : List (String × Json) → List (String × Json) → Bool
  | [], _ => true
  | (name, a) :: rest, other =>
    (match Keyed.get? name other with
      | some b => same a b
      | none => false) && sameMembers rest other

end

mutual

/-- The names of every object, at any depth, are distinct. -/
def Distinct : Json → Prop
  | .array items => DistinctItems items
  | .object members => (Keyed.names members).Nodup ∧ DistinctMembers members
  | _ => True

/-- `Distinct` of each item. -/
def DistinctItems : List Json → Prop
  | [] => True
  | item :: items => Distinct item ∧ DistinctItems items

/-- `Distinct` of each member. -/
def DistinctMembers : List (String × Json) → Prop
  | [] => True
  | (_, value) :: rest => Distinct value ∧ DistinctMembers rest

end

end Json

end GeoTag
