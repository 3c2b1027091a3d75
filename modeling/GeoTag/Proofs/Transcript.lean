import GeoTag.Proofs.CompactText
import GeoTag.Proofs.Derivation
import GeoTag.Proofs.Utf8
import GeoTag.Proofs.Visits

/-!
# What a run writes

A run over one source writes one line for each line of the source that is not blank, in order, and its
clock has a part in the timer only (`Session.writes_run`).  What it writes for a stream is
`Engine.transcript`: the answers to the lines (`Engine.Answers`), each ended by a newline that is the only
one in its line.  `Engine.transcript_append` says that streams can be enriched one after the other wherever
the first of them ends in a newline.
-/

namespace GeoTag

namespace Line

/-- The lines of a stream that are not blank. -/
def filled (stream : List UInt8) : List Line :=
  (ofStream stream).filter fun line => !line.isBlank

theorem mem_ofStream_of_mem_filled {stream : List UInt8} {line : Line} (h : line ∈ filled stream) :
    line ∈ ofStream stream := (List.mem_filter.1 h).1

theorem record?_eq_some_iff {line : Line} {record : Record} :
    line.record? = some record ↔
      ∃ text members, line.text? = some text ∧ Json.parse? text = some (.object members) ∧
        record = .ofMembers members := by
  unfold record? Record.parse
  cases line.text? with
  | none => simp
  | some text =>
    rw [Option.bind_some]
    cases hparse : Json.parse? text with
    | none => simp [Except.toOption, hparse]
    | some value => cases value <;> simp [Except.toOption, hparse, eq_comm]

end Line

/-- The text of a record holds no control bytes. -/
theorem Record.notMem_toText (record : Record) {byte : UInt8} (h : byte.toNat < 0x20) :
    byte ∉ record.toText.toUTF8.toList := by
  intro hmem
  obtain ⟨c, hc, hcode⟩ := Text.exists_mem_of_mem_utf8 hmem (Nat.lt_trans h (by decide))
  rw [toText, Json.toText, String.toList_ofList] at hc
  have hgraphic : 0x20 ≤ c.toNat := record.toJson.graphic_render c hc
  omega

namespace Engine

/-- What a line leads to: the compact text of the enriched record if the line is the text of a JSON
object, and the content of the line as it is if it is not. -/
inductive Answers (engine : Engine) (line : Line) : List UInt8 → Prop
  /-- The line is the text of a JSON object. -/
  | record {text : String} {members : List (String × Json)} : line.text? = some text →
      Json.parse? text = some (.object members) →
      Answers engine line (engine.filter (.ofMembers members)).record.toText.toUTF8.toList
  /-- The line is not UTF-8, no JSON, or JSON of another kind. -/
  | kept : (∀ text members, line.text? = some text → Json.parse? text ≠ some (.object members)) →
      Answers engine line line.content

/-- The content of the line that is written for a line. -/
def answer (engine : Engine) (line : Line) : List UInt8 :=
  match line.record? with
  | some record => (engine.filter record).record.toText.toUTF8.toList
  | none => line.content

/-- What is written for the lines of a stream. -/
def transcript (engine : Engine) (stream : List UInt8) : List UInt8 :=
  (Line.filled stream).flatMap fun line => ended (engine.answer line)

variable {engine : Engine} {line : Line}

theorem answer_of_record? {record : Record} (h : line.record? = some record) :
    engine.answer line = (engine.filter record).record.toText.toUTF8.toList := by
  rw [answer, h]

theorem answer_of_record?_eq_none (h : line.record? = none) : engine.answer line = line.content := by
  rw [answer, h]

theorem answers_answer (engine : Engine) (line : Line) : engine.Answers line (engine.answer line) := by
  cases h : line.record? with
  | some record =>
    obtain ⟨text, members, htext, hparse, rfl⟩ := Line.record?_eq_some_iff.1 h
    rw [answer_of_record? h]
    exact .record htext hparse
  | none =>
    rw [answer_of_record?_eq_none h]
    refine .kept fun text members htext hparse => ?_
    rw [Line.record?_eq_some_iff.2 ⟨text, members, htext, hparse, rfl⟩] at h
    cases h

/-! ## One line for each line -/

theorem notMem_answer (h : Line.newline ∉ line.content) : Line.newline ∉ engine.answer line := by
  cases hrecord : line.record? with
  | some record =>
    rw [answer_of_record? hrecord]
    exact Record.notMem_toText _ (by decide)
  | none => rwa [answer_of_record?_eq_none hrecord]

/-- What is written for a line. -/
def written (engine : Engine) (line : Line) : List UInt8 :=
  if line.isBlank then [] else ended (engine.answer line)

/-- Nothing is written for blank lines. -/
theorem flatMap_written (engine : Engine) (lines : List Line) :
    lines.flatMap engine.written =
      (lines.filter fun line => !line.isBlank).flatMap fun line => ended (engine.answer line) := by
  induction lines with
  | nil => rfl
  | cons line lines ih =>
    rw [List.flatMap_cons, ih, written]
    by_cases h : line.isBlank = true <;> simp [h]

theorem transcript_eq_flatMap_written (engine : Engine) (stream : List UInt8) :
    engine.transcript stream = (Line.ofStream stream).flatMap engine.written :=
  (engine.flatMap_written (Line.ofStream stream)).symm

/-- The number of a line has no part in what is written for it. -/
theorem transcript_eq_flatMap_content (engine : Engine) (stream : List UInt8) :
    engine.transcript stream =
      ((Line.ofStream stream).map Line.content).flatMap fun content => engine.written ⟨0, content⟩ := by
  rw [transcript_eq_flatMap_written, List.flatMap_map]
  rfl

/-- Behind a complete stream a transcript starts anew. -/
theorem transcript_append {stream : List UInt8} (h : Line.Complete stream) (more : List UInt8) :
    engine.transcript (stream ++ more) = engine.transcript stream ++ engine.transcript more := by
  simp only [transcript_eq_flatMap_content, Line.map_content_ofStream]
  rw [Line.pieces_append h, List.map_append, List.flatMap_append]

end Engine

/-! ## Sources -/

namespace Source

/-- The lines that can be read from a source. -/
def lines (fs : FileSystem) (stdin : Input) (source : Source) : List Line :=
  match source.open? fs stdin with
  | .ok input => input.lines
  | .error _ => []

/-- Why a source cannot be opened or not be read to its end, if it cannot. -/
def fault? (fs : FileSystem) (stdin : Input) (source : Source) : Option InputFault :=
  match source.open? fs stdin with
  | .ok input => input.fault?
  | .error fault => some fault

end Source

/-- What is written for the lines of a source. -/
def Engine.outputOf (engine : Engine) (fs : FileSystem) (stdin : Input) (source : Source) : List UInt8 :=
  (source.lines fs stdin).flatMap engine.written

/-! ## The run -/

namespace Session

variable {m : Type → Type} [Monad m]

/-- The run over one source ends well, leaves the engine as it is and writes the output, whatever its
clock says. -/
def Writes (session : Session) (clock : m Nat) (fs : FileSystem) (stdin : List UInt8) (source : Source)
    (output : List UInt8) : Prop :=
  ∃ timers : m Latency.Timer, session.run clock fs true stdin [source] =
    (fun timer => ⟨output, ⟨session.engine, timer⟩, .finished⟩) <$> timers

/-- What the computation results in depends on the clock by a timer only. -/
def Timed {α : Type} (result : Latency.Timer → α) (computation : m α) : Prop :=
  ∃ timers : m Latency.Timer, computation = result <$> timers

variable [LawfulMonad m]

section Timed

variable {α β : Type} {result : Latency.Timer → α} {computation : m α}

theorem timed_pure (result : Latency.Timer → α) (timer : Latency.Timer) :
    Timed (m := m) result (pure (result timer)) := ⟨pure timer, by rw [map_pure]⟩

theorem Timed.bind {next : Latency.Timer → β} {more : α → m β} (h : Timed result computation)
    (hmore : ∀ timer, Timed next (more (result timer))) : Timed next (computation >>= more) := by
  obtain ⟨first, rfl⟩ := h
  -- What comes next depends on the timer so far.
  obtain ⟨rest, hrest⟩ := Classical.skolem.1 hmore
  refine ⟨first >>= rest, ?_⟩
  rw [bind_map_left, map_bind]
  exact bind_congr hrest

end Timed

theorem timed_emit (clock : m Nat) (engine : Engine) (line : Line) :
    ∃ portions : List (List UInt8), portions.flatten = engine.written line ∧
      ∀ timer, Timed (fun timer => (portions, ⟨engine, timer⟩)) (emit clock ⟨engine, timer⟩ line) := by
  unfold emit Engine.written
  split
  · exact ⟨[], rfl, timed_pure _⟩
  · split
    · rename_i hrecord
      refine ⟨[line.content, [Line.newline]], ?_, timed_pure _⟩
      simp [Engine.answer_of_record?_eq_none hrecord, ended]
    · rename_i record hrecord
      refine ⟨[(engine.filter record).record.toLine], ?_, fun timer =>
        ⟨(fun r => r.2.timer) <$> enrich clock ⟨engine, timer⟩ record, ?_⟩⟩
      · rw [Engine.answer_of_record? hrecord, List.flatten_singleton, Record.toLine]
      · simp only [enrich, note, bind_assoc, map_bind, pure_bind, map_pure]

/-- What becomes of a line comes behind everything written so far. -/
theorem timed_deliver (clock : m Nat) (engine : Engine) {outlet : Outlet} {bytes : List UInt8}
    (h : outlet.Carries bytes) (line : Line) :
    ∃ next : Outlet, next.Carries (bytes ++ engine.written line) ∧
      ∀ timer, Timed (fun timer => ((⟨engine, timer⟩, next), .ok true))
        (deliver clock (⟨engine, timer⟩, outlet) line) := by
  obtain ⟨portions, hportions, hemit⟩ := timed_emit clock engine line
  obtain ⟨next, hput, hnext⟩ := h.putAll portions
  refine ⟨next, hportions ▸ hnext, fun timer => (hemit timer).bind fun timer => ?_⟩
  simp only [hput]
  exact timed_pure _ timer

theorem timed_visit (clock : m Nat) (engine : Engine) (ending : Except Ending Unit)
    {outlet : Outlet} {bytes : List UInt8} (h : outlet.Carries bytes) (lines : List Line) :
    ∃ last : Outlet, last.Carries (bytes ++ lines.flatMap engine.written) ∧
      ∀ timer, Timed (fun timer => ((⟨engine, timer⟩, last), ending))
        (Line.visit (deliver clock) ending (⟨engine, timer⟩, outlet) lines) := by
  induction lines generalizing outlet bytes with
  | nil =>
    refine ⟨outlet, ?_, timed_pure _⟩
    rwa [List.flatMap_nil, List.append_nil]
  | cons line lines ih =>
    obtain ⟨next, hnext, hdeliver⟩ := timed_deliver clock engine h line
    obtain ⟨last, hlast, hvisit⟩ := ih hnext
    refine ⟨last, by rwa [List.flatMap_cons, ← List.append_assoc], fun timer => ?_⟩
    exact (hdeliver timer).bind hvisit

/-- A source that can be read to its end is followed by the others, behind its output. -/
theorem timed_work_of_readable (clock : m Nat) (fs : FileSystem) (engine : Engine) {outlet : Outlet}
    {bytes : List UInt8} (h : outlet.Carries bytes) {stdin : Input} {source : Source}
    (readable : source.fault? fs stdin = none) :
    ∃ next : Outlet, next.Carries (bytes ++ engine.outputOf fs stdin source) ∧
      ∀ {result : Latency.Timer → Run} {sources : List Source},
        (∀ timer, Timed result (work clock fs ⟨engine, timer⟩ next (source.leaves stdin) sources)) →
        ∀ timer, Timed result (work clock fs ⟨engine, timer⟩ outlet stdin (source :: sources)) := by
  unfold Source.fault? at readable
  unfold Engine.outputOf Source.lines
  cases hopen : source.open? fs stdin with
  | error fault =>
    rw [hopen] at readable
    cases readable
  | ok input =>
    rw [hopen] at readable
    obtain ⟨last, hlast, hvisit⟩ := timed_visit clock engine (input.ending .failed) h input.lines
    obtain ⟨flushed, hflush, -, hflushed⟩ := hlast.flush
    refine ⟨flushed, hflushed, fun hrest timer => ?_⟩
    simp only [work, hopen, Input.visit_eq_visit_lines]
    refine (hvisit timer).bind fun timer => ?_
    simp only [Input.ending, readable, hflush]
    exact hrest timer

/-- A source that cannot be opened or read ends the run behind the output for its lines. -/
theorem timed_work_of_fault (clock : m Nat) (fs : FileSystem) (engine : Engine) {outlet : Outlet}
    {bytes : List UInt8} (h : outlet.Carries bytes) {stdin : Input} {source : Source}
    {fault : InputFault} (faulty : source.fault? fs stdin = some fault) (sources : List Source)
    (timer : Latency.Timer) :
    Timed (fun timer => ⟨bytes ++ engine.outputOf fs stdin source, ⟨engine, timer⟩, .failed fault⟩)
      (work clock fs ⟨engine, timer⟩ outlet stdin (source :: sources)) := by
  unfold Source.fault? at faulty
  unfold Engine.outputOf Source.lines
  cases hopen : source.open? fs stdin with
  | error cause =>
    rw [hopen] at faulty
    cases faulty
    simp only [work, hopen, h.close, List.flatMap_nil, List.append_nil]
    exact timed_pure _ timer
  | ok input =>
    rw [hopen] at faulty
    obtain ⟨last, hlast, hvisit⟩ := timed_visit clock engine (input.ending .failed) h input.lines
    simp only [work, hopen, Input.visit_eq_visit_lines]
    refine (hvisit timer).bind fun timer => ?_
    simp only [Input.ending, faulty, hlast.close]
    exact timed_pure _ timer

/-- Behind the last source, everything that was written is handed over. -/
theorem timed_work_nil (clock : m Nat) (fs : FileSystem) (engine : Engine) {outlet : Outlet}
    {bytes : List UInt8} (h : outlet.Carries bytes) (stdin : Input) (timer : Latency.Timer) :
    Timed (fun timer => ⟨bytes, ⟨engine, timer⟩, .finished⟩)
      (work clock fs ⟨engine, timer⟩ outlet stdin []) := by
  simp only [work, h.close]
  exact timed_pure _ timer

theorem writes_run (clock : m Nat) (fs : FileSystem) (session : Session) {stdin stream : List UInt8}
    {source : Source} (opened : source.open? fs stdin = .ok (.stream stream)) :
    session.Writes clock fs stdin source (session.engine.transcript stream) := by
  have readable : source.fault? fs stdin = none := by
    rw [Source.fault?, opened]
    rfl
  have houtput : session.engine.transcript stream = session.engine.outputOf fs stdin source := by
    rw [Engine.outputOf, Source.lines, opened]
    exact session.engine.transcript_eq_flatMap_written stream
  obtain ⟨next, hnext, hwork⟩ :=
    timed_work_of_readable clock fs session.engine Outlet.carries_start readable
  rw [houtput]
  exact hwork (timed_work_nil clock fs session.engine hnext _) session.timer

/-- A run over one source writes one line for each line of the source that is not blank, in order, and
nothing else: the answer to the line, which holds no newline, and a newline.  Where the source is complete,
more lines behind it are answered as they would be alone. -/
theorem run_answers_lines (clock : m Nat) (fs : FileSystem) (session : Session)
    {stdin stream : List UInt8} {source : Source}
    (opened : source.open? fs stdin = .ok (.stream stream)) :
    session.Writes clock fs stdin source (session.engine.transcript stream) ∧
      (∃ answers : List (List UInt8),
        session.engine.transcript stream = answers.flatMap ended ∧
        answers.length = (Line.filled stream).length ∧
        (∀ (k : Nat) (line : Line), (Line.filled stream)[k]? = some line →
          ∃ answer, answers[k]? = some answer ∧ session.engine.Answers line answer) ∧
        ∀ answer ∈ answers, Line.newline ∉ answer) ∧
      (Line.Complete stream → ∀ more : List UInt8,
        session.engine.transcript (stream ++ more) =
          session.engine.transcript stream ++ session.engine.transcript more) := by
  refine ⟨session.writes_run clock fs opened,
    ⟨(Line.filled stream).map session.engine.answer, ?_, List.length_map _, ?_, ?_⟩,
    Engine.transcript_append⟩
  · rw [Engine.transcript, List.flatMap_map]
  · intro k line hline
    refine ⟨session.engine.answer line, ?_, session.engine.answers_answer line⟩
    rw [List.getElem?_map, hline, Option.map_some]
  · intro answer hanswer
    obtain ⟨line, hline, rfl⟩ := List.mem_map.1 hanswer
    exact Engine.notMem_answer (Line.notMem_content (Line.mem_ofStream_of_mem_filled hline))

/-- A line that is not UTF-8 and ends in a carriage return and a newline, a line of one ideographic space,
a record and a bracket without an end. -/
def roughStream : List UInt8 :=
  [0xff, 13, 10, 0xe3, 0x80, 0x80, 10] ++ "\x7b\"host_ip\" : \"10.0.0.1\"\x7d\n[".toUTF8.toList

/-- What is written for these lines: nothing for the blank one, and the last one gets an end. -/
def roughTranscript : List UInt8 :=
  [0xff, 10] ++
    "\x7b\"host_ip\":\"10.0.0.1\",\"host_reserved_ip\":true\x7d\n[\n".toUTF8.toList

theorem run_answers_lines_rough :
    (start (.sample .strict)).Writes (m := Id) (pure 0) (.ofAnswers []) roughStream .stdin
      roughTranscript := by
  have hrun := run_answers_lines (m := Id) (pure 0) (.ofAnswers []) (start (.sample .strict))
    (show Source.stdin.open? (.ofAnswers []) roughStream = .ok (.stream roughStream) from rfl)
  have houtput : (start (.sample .strict)).engine.transcript roughStream = roughTranscript := by
    decide +kernel
  rw [← houtput]
  exact hrun.1

end Session

end GeoTag
