import GeoTag.Engine
import GeoTag.Latency

/-!
# Sessions

A `Session` is an engine at work together with the timer that counts its look-ups: `Session.filter`
enriches a record and takes one sample for each look-up made, whatever came of it.
-/

namespace GeoTag

/-- An engine and its timer. -/
structure Session where
  /-- The engine at work. -/
  engine : Engine
  /-- The look-ups so far. -/
  timer : Latency.Timer

namespace Session

/-- A session before its first record. -/
def start (engine : Engine) : Session := ⟨engine, Latency.Timer.empty⟩

/-- Takes a sample for each look-up. -/
def note (session : Session) (elapsed : Lookup → UInt64) (lookups : List Lookup) : Session :=
  { session with timer := session.timer.recordAll (lookups.map elapsed) }

/-- Enriches a record and notes the look-ups, each with the time it took. -/
def filter (session : Session) (elapsed : Lookup → UInt64) (record : Record) : Filtered × Session :=
  let filtered := session.engine.filter record
  (filtered, session.note elapsed filtered.lookups)

/-- Enriches records one after the other. -/
def filterAll (session : Session) (elapsed : Lookup → UInt64) :
    List Record → List Filtered × Session
  | [] => ([], session)
  | record :: records =>
    let (filtered, session) := session.filter elapsed record
    let (rest, session) := session.filterAll elapsed records
    (filtered :: rest, session)

end Session

end GeoTag
