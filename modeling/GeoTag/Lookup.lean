import GeoTag.Address.Block
import GeoTag.Location

/-!
# Looking an address up

A `Backend` answers what it knows about an address, and may fail.  A `Resolver` is a backend or
nothing; it turns a missing backend, a missing answer and a failure all into no answer, and says
whether a backend was asked at all.
-/

namespace GeoTag

/-- How reading a database fails. -/
inductive DatabaseFault where
  /-- The file cannot be read. -/
  | unreadable
  /-- The bytes break the rules of the format. -/
  | invalid
  /-- The bytes keep the rules but hold no value of the wanted shape. -/
  | mismatch
deriving DecidableEq, Repr

/-- A failed look-up. -/
structure LookupFault where
  /-- The address that was looked up. -/
  address : Address
  /-- How the database failed. -/
  cause : DatabaseFault
deriving DecidableEq, Repr

/-- The failure in words. -/
def LookupFault.message (fault : LookupFault) : String :=
  "lookup failed for " ++ fault.address.toText

/-- A named source of data about addresses. -/
structure Backend (α : Type) where
  /-- A short name. -/
  name : String
  /-- What the source knows about an address; nothing is an answer, too. -/
  lookup : Address → Except LookupFault (Option α)

/-- A backend, or nothing to ask. -/
structure Resolver (α : Type) where
  /-- The backend, if there is one. -/
  backend? : Option (Backend α)

/-- What came of resolving an address. -/
structure Answer (α : Type) where
  /-- What was found. -/
  found : Option α
  /-- A backend was asked. -/
  asked : Bool

namespace Resolver

variable {α : Type}

/-- The resolver that never answers. -/
def disabled : Resolver α := ⟨none⟩

/-- The resolver that asks a backend. -/
def ofBackend (backend : Backend α) : Resolver α := ⟨some backend⟩

/-- The resolver has a backend. -/
def isEnabled (resolver : Resolver α) : Bool := resolver.backend?.isSome

/-- The name of the backend, or `disabled`. -/
def name (resolver : Resolver α) : String := (resolver.backend?.map Backend.name).getD "disabled"

/-- Asks the backend, if there is one; a failure is no answer. -/
def resolve (resolver : Resolver α) (address : Address) : Answer α :=
  match resolver.backend? with
  | none => ⟨none, false⟩
  | some backend =>
    match backend.lookup address with
    | .ok found => ⟨found, true⟩
    | .error _ => ⟨none, true⟩

theorem asked_resolve (resolver : Resolver α) (address : Address) :
    (resolver.resolve address).asked = resolver.isEnabled := by
  unfold resolve isEnabled
  cases resolver.backend? with
  | none => rfl
  | some backend => cases h : backend.lookup address <;> simp [h]

end Resolver

end GeoTag
