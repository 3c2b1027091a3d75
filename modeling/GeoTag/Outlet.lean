/-!
# Output on its way

Output is written in portions, which wait in an `Outlet` until there is enough of them: `put?` hands
over what waits when there is no room for a portion, and hands a large portion over at once.  Nothing
can be handed over to nobody; that is when writing fails.  To somebody, what was handed over and what
waits are together the portions written, in order (`Outlet.Carries`).
-/

namespace GeoTag

/-- Output on its way. -/
structure Outlet where
  /-- Somebody takes the output. -/
  taken : Bool
  /-- What was handed over. -/
  handed : List UInt8
  /-- What waits. -/
  waiting : List UInt8
deriving DecidableEq

namespace Outlet

/-- As many bytes can wait. -/
def capacity : Nat := 65536

/-- An outlet before the first portion. -/
def start (taken : Bool) : Outlet := ⟨taken, [], []⟩

/-- Lets bytes wait. -/
def hold (outlet : Outlet) (bytes : List UInt8) : Outlet :=
  { outlet with waiting := outlet.waiting ++ bytes }

/-- Hands bytes over; no bytes can be handed over to nobody, too. -/
def hand? (outlet : Outlet) (bytes : List UInt8) : Option Outlet :=
  if outlet.taken ∨ bytes = [] then some { outlet with handed := outlet.handed ++ bytes } else none

/-- Hands over what waits. -/
def flush? (outlet : Outlet) : Option Outlet :=
  (outlet.hand? outlet.waiting).map fun outlet => { outlet with waiting := [] }

/-- Makes room for as many bytes. -/
def makeRoom? (outlet : Outlet) (size : Nat) : Option Outlet :=
  if outlet.waiting.length + size ≤ capacity then some outlet else outlet.flush?

/-- Writes a portion. -/
def put? (outlet : Outlet) (portion : List UInt8) : Option Outlet :=
  (outlet.makeRoom? portion.length).bind fun outlet =>
    if portion.length < capacity then some (outlet.hold portion) else outlet.hand? portion

/-- Writes portions one after the other. -/
def putAll? (outlet : Outlet) (portions : List (List UInt8)) : Option Outlet :=
  portions.foldlM put? outlet

/-- What was handed over when no more is written: what still waits goes with it, if somebody takes it. -/
def close (outlet : Outlet) : List UInt8 := (outlet.flush?.getD outlet).handed

/-! ## Output that is taken -/

/-- Somebody takes the output, and it is these bytes so far. -/
structure Carries (outlet : Outlet) (bytes : List UInt8) : Prop where
  taken : outlet.taken = true
  all : outlet.handed ++ outlet.waiting = bytes

variable {outlet : Outlet} {bytes : List UInt8}

theorem carries_start : (start true).Carries [] := ⟨rfl, rfl⟩

theorem Carries.flush (h : outlet.Carries bytes) :
    ∃ flushed, outlet.flush? = some flushed ∧ flushed.waiting = [] ∧ flushed.Carries bytes := by
  refine ⟨⟨outlet.taken, outlet.handed ++ outlet.waiting, []⟩, ?_, rfl, h.taken, ?_⟩
  · rw [flush?, hand?, if_pos (Or.inl h.taken)]
    rfl
  · rw [List.append_nil]
    exact h.all

theorem Carries.makeRoom (h : outlet.Carries bytes) (size : Nat) :
    ∃ roomy, outlet.makeRoom? size = some roomy ∧ roomy.Carries bytes ∧
      (capacity ≤ size → roomy.waiting = []) := by
  unfold makeRoom?
  split
  · rename_i hroom
    refine ⟨outlet, rfl, h, fun hlarge => List.eq_nil_of_length_eq_zero ?_⟩
    omega
  · obtain ⟨flushed, hflush, hempty, hcarries⟩ := h.flush
    exact ⟨flushed, hflush, hcarries, fun _ => hempty⟩

/-- A portion comes behind all the others. -/
theorem Carries.put (h : outlet.Carries bytes) (portion : List UInt8) :
    ∃ next, outlet.put? portion = some next ∧ next.Carries (bytes ++ portion) := by
  obtain ⟨roomy, hroomy, hcarries, hempty⟩ := h.makeRoom portion.length
  rw [put?, hroomy, Option.bind_some]
  split
  · refine ⟨roomy.hold portion, rfl, hcarries.taken, ?_⟩
    rw [hold, ← List.append_assoc, hcarries.all]
  · -- Nothing waits in front of a portion that is handed over at once.
    rename_i hlarge
    refine ⟨_, if_pos (Or.inl hcarries.taken), hcarries.taken, ?_⟩
    have hhanded := hcarries.all
    rw [hempty (Nat.le_of_not_lt hlarge), List.append_nil] at hhanded ⊢
    rw [hhanded]

theorem Carries.putAll (h : outlet.Carries bytes) (portions : List (List UInt8)) :
    ∃ next, outlet.putAll? portions = some next ∧ next.Carries (bytes ++ portions.flatten) := by
  induction portions generalizing outlet bytes with
  | nil => exact ⟨outlet, rfl, by rwa [List.flatten_nil, List.append_nil]⟩
  | cons portion portions ih =>
    obtain ⟨next, hput, hnext⟩ := h.put portion
    obtain ⟨last, hputAll, hlast⟩ := ih hnext
    refine ⟨last, ?_, by rwa [List.flatten_cons, ← List.append_assoc]⟩
    rw [putAll?, List.foldlM_cons, hput]
    exact hputAll

theorem Carries.close (h : outlet.Carries bytes) : outlet.close = bytes := by
  obtain ⟨flushed, hflush, hempty, hcarries⟩ := h.flush
  rw [Outlet.close, hflush, Option.getD_some, ← hcarries.all, hempty, List.append_nil]

end Outlet

end GeoTag
