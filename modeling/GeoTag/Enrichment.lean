import GeoTag.Input
import GeoTag.Outlet
import GeoTag.Session

/-!
# Enriching lines

A line that is the text of a JSON object becomes the compact text of the enriched record; any other
line stays as it is, and a blank one is dropped (`Session.emit`).  `Session.run` does so for the
lines of sources, one after the other, until one of them cannot be read or the output is closed; what
is written waits in an outlet and is handed over behind each source.  Look-ups are timed by a clock,
which belongs to the surroundings: every definition here works in any monad that has one.
-/

namespace GeoTag

/-- The record that a line is the text of. -/
def Line.record? (line : Line) : Option Record :=
  line.text?.bind fun text => (Record.parse text).toOption

/-- The line of bytes with its end. -/
def ended (content : List UInt8) : List UInt8 := content ++ [Line.newline]

/-- The line that a record is written as. -/
def Record.toLine (record : Record) : List UInt8 := ended record.toText.toUTF8.toList

/-- The equal share of each look-up in a time that all of them took. -/
def share (elapsed : Nat) (lookups : List Lookup) : UInt64 :=
  Latency.clip (elapsed / max 1 lookups.length)

/-- How a run ended. -/
inductive Ending where
  /-- All sources were read. -/
  | finished
  /-- A source could not be read. -/
  | failed (fault : InputFault)
  /-- Nobody wants the output. -/
  | closed
deriving DecidableEq, Repr

/-- What a run left. -/
structure Run where
  /-- What was written. -/
  output : List UInt8
  /-- The session afterwards. -/
  session : Session
  /-- How the run ended. -/
  ending : Ending

namespace Session

variable {m : Type → Type} [Monad m]

/-- Enriches a record and times its look-ups. -/
def enrich (clock : m Nat) (session : Session) (record : Record) : m (Record × Session) := do
  let before ← clock
  let filtered := session.engine.filter record
  let after ← clock
  let took := share (after - before) filtered.lookups
  return (filtered.record, session.note (fun _ => took) filtered.lookups)

/-- What is written for a line, in portions. -/
def emit (clock : m Nat) (session : Session) (line : Line) : m (List (List UInt8) × Session) :=
  if line.isBlank then return ([], session)
  else
    match line.record? with
    | none => return ([line.content, [Line.newline]], session)
    | some record => do
      let (record, session) ← session.enrich clock record
      return ([record.toLine], session)

/-- Writes to an outlet what becomes of a line. -/
def deliver (clock : m Nat) (progress : Session × Outlet) (line : Line) :
    m ((Session × Outlet) × Except Ending Bool) := do
  let (portions, session) ← progress.1.emit clock line
  match progress.2.putAll? portions with
  | some outlet => return ((session, outlet), .ok true)
  | none => return ((session, progress.2), .error .closed)

/-- Reads sources one after the other and writes to an outlet what becomes of their lines.  The output
of each source is handed over before the next one is opened.  Where a source cannot be opened or read,
or nobody takes the output, the run is over. -/
def work (clock : m Nat) (fs : FileSystem) : Session → Outlet → Input → List Source → m Run
  | session, outlet, _, [] => return ⟨outlet.close, session, .finished⟩
  | session, outlet, stdin, source :: sources =>
    match source.open? fs stdin with
    | .error fault => return ⟨outlet.close, session, .failed fault⟩
    | .ok input => do
      let ((session, outlet), result) ← input.visit (deliver clock) .failed (session, outlet)
      match result with
      | .error ending => return ⟨outlet.close, session, ending⟩
      | .ok () =>
        match outlet.flush? with
        | none => return ⟨outlet.close, session, .closed⟩
        | some outlet => work clock fs session outlet (source.leaves stdin) sources

/-- Enriches the lines of sources, from an outlet where nothing was written. -/
def run (clock : m Nat) (fs : FileSystem) (outputOpen : Bool) (session : Session) (stdin : Input)
    (sources : List Source) : m Run :=
  session.work clock fs (Outlet.start outputOpen) stdin sources

end Session

end GeoTag
