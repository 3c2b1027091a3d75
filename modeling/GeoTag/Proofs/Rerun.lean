import GeoTag.Proofs.Idempotence
import GeoTag.Proofs.Likeness
import GeoTag.Proofs.ReadBack
import GeoTag.Proofs.Transcript
import GeoTag.Proofs.WrittenValues

/-!
# Running on one's own output

In the strict schema a run over the output of a run writes that output again (`Session.run_own_output`).
Every line that is written comes back as the content of one line.  A line that was kept is kept again.  A
line that spells a record is read as a record alike to the one it was written from (`Record.Legible`), and
that one has been enriched already.
-/

namespace GeoTag

/-! ## Records whose text can be read -/

namespace Record

/-- The text of the record can be read: its values are not too deep, the names in them are distinct, and
every number reads back. -/
structure Legible (record : Record) : Prop where
  regular : Json.Regular Json.maxDepth record.toJson
  numbers : ∀ n ∈ record.toJson.numbers, n.ReadsBack

/-- What is read is the record of the same JSON object. -/
theorem parse_toText {record : Record} (h : record.Legible) :
    parse record.toText = .ok (ofMembers record.toMembers) := by
  rw [parse, toText, Json.parse?_toText h.regular h.numbers, toJson]

/-- A record is legible when each of its fields is. -/
theorem legible_iff {record : Record} :
    record.Legible ↔ ∀ f ∈ record.fields, Json.Regular (Json.maxDepth - 1) f.2.toJson ∧
      ∀ n ∈ f.2.toJson.numbers, n.ReadsBack := by
  constructor
  · rintro ⟨hregular, hnumbers⟩ f hf
    have hmem : (f.1, f.2.toJson) ∈ record.toMembers := List.mem_map_of_mem hf
    refine ⟨(Json.regular_object_iff.1 hregular).2 _ hmem, fun n hn => hnumbers n ?_⟩
    exact Json.mem_numbers_object_iff.2 ⟨_, hmem, hn⟩
  · intro h
    constructor
    · refine Json.regular_object_iff.2 ⟨record.nodup_names_toMembers, fun m hm => ?_⟩
      obtain ⟨f, hf, rfl⟩ := List.mem_map.1 hm
      exact (h f hf).1
    · intro n hn
      obtain ⟨m, hm, hmem⟩ := Json.mem_numbers_object_iff.1 hn
      obtain ⟨f, hf, rfl⟩ := List.mem_map.1 hm
      exact (h f hf).2 n hmem

theorem Legible.filter {record : Record} (h : record.Legible) (engine : Engine) :
    (engine.filter record).record.Legible := by
  rw [legible_iff] at h ⊢
  intro f hf
  rcases Engine.mem_fields_filter hf with hold | hplain
  · exact h f hold
  · refine ⟨hplain.regular _, fun n hn => ?_⟩
    rw [hplain.numbers] at hn
    cases hn

/-- A record that has been enriched is not changed by a run over its text. -/
theorem toMembers_filter_reread {engine : Engine} (inert : engine.Inert) {record : Record}
    (proper : record.Proper) :
    (engine.filter (ofMembers (engine.filter record).record.toMembers)).record.toMembers =
      (engine.filter record).record.toMembers := by
  have halike := (engine.filter_alike (alike_ofMembers_toMembers (proper.filter engine))).1
  rw [← halike.members, engine.filter_filter_of_inert inert]

end Record

/-! ## Lines read again -/

namespace Line

/-- The numbers in the JSON object that the line is the text of. -/
def numbers (line : Line) : List Json.Number :=
  match line.text?.bind Json.parse? with
  | some (.object members) => (Json.object members).numbers
  | _ => []

/-- A line that is the text of a JSON object can be read again where its numbers can. -/
theorem legible_of_record? {line : Line} {record : Record} (h : line.record? = some record)
    (hnumbers : ∀ n ∈ line.numbers, n.ReadsBack) : record.Legible ∧ record.Proper := by
  obtain ⟨text, members, htext, hparse, rfl⟩ := record?_eq_some_iff.1 h
  have hregular := Json.regular_of_parse? hparse
  have hnames := (Json.regular_object_iff.1 hregular).1
  have hjson : (Record.ofMembers members).toJson = .object members := by
    rw [Record.toJson, Record.toMembers_ofMembers hnames]
  have hsame : line.numbers = (Json.object members).numbers := by
    rw [numbers, htext, Option.bind_some, hparse]
  exact ⟨⟨hjson ▸ hregular, by rwa [hjson, ← hsame]⟩, Record.proper_ofMembers hnames⟩

/-- The text of a record is no blank line. -/
theorem isBlank_of_toText {line : Line} {record : Record} (h : line.text? = some record.toText) :
    line.isBlank = false := by
  have hmem : '\x7b' ∈ record.toText.toList := by
    rw [Record.toText, Json.toText, String.toList_ofList]
    exact List.mem_cons_self
  rw [isBlank, h, decide_eq_false_iff_not]
  exact fun hblank => absurd (hblank _ hmem) (by decide)

end Line

namespace Engine

variable {engine : Engine} {line other : Line}

/-- A line that was written is written again as it is. -/
theorem written_of_content_eq_answer (inert : engine.Inert)
    (hnumbers : ∀ n ∈ line.numbers, n.ReadsBack) (hfilled : line.isBlank = false)
    (h : other.content = engine.answer line) : engine.written other = ended other.content := by
  cases hrecord : line.record? with
  | none =>
    rw [answer_of_record?_eq_none hrecord] at h
    have hblank : other.isBlank = false := by rwa [Line.isBlank, Line.text?, h]
    have hkept : other.record? = none := by rwa [Line.record?, Line.text?, h]
    rw [written, hblank, answer_of_record?_eq_none hkept]
    rfl
  | some record =>
    obtain ⟨legible, proper⟩ := Line.legible_of_record? hrecord hnumbers
    rw [answer_of_record? hrecord] at h
    have htext := Line.text?_of_utf8 h
    have hreread : other.record? = some (.ofMembers (engine.filter record).record.toMembers) := by
      rw [Line.record?, htext, Option.bind_some, Record.parse_toText (legible.filter engine)]
      rfl
    rw [written, Line.isBlank_of_toText htext, answer_of_record? hreread, h, Record.toText,
      Record.toJson, Record.toMembers_filter_reread inert proper]
    rfl

theorem getLast?_answer_ne (h : line.content.getLast? ≠ some Line.carriageReturn) :
    (engine.answer line).getLast? ≠ some Line.carriageReturn := by
  cases hrecord : line.record? with
  | none => rwa [answer_of_record?_eq_none hrecord]
  | some record =>
    rw [answer_of_record? hrecord]
    exact fun hlast => Record.notMem_toText _ (by decide) (List.mem_of_getLast? hlast)

/-- The transcript of a transcript is that transcript. -/
theorem transcript_transcript (inert : engine.Inert) {stream : List UInt8}
    (uncut : ∀ line ∈ Line.ofStream stream, line.content.getLast? ≠ some Line.carriageReturn)
    (hnumbers : ∀ line ∈ Line.ofStream stream, ∀ n ∈ line.numbers, n.ReadsBack) :
    engine.transcript (engine.transcript stream) = engine.transcript stream := by
  have houtput : engine.transcript stream =
      ((Line.filled stream).map engine.answer).flatMap ended := by
    rw [transcript, List.flatMap_map]
  have hcontents : (Line.ofStream (engine.transcript stream)).map Line.content =
      (Line.filled stream).map engine.answer := by
    rw [houtput]
    apply Line.map_content_ofStream_flatMap_ended
    intro content hcontent
    obtain ⟨line, hline, rfl⟩ := List.mem_map.1 hcontent
    have hmem := Line.mem_ofStream_of_mem_filled hline
    exact ⟨notMem_answer (Line.notMem_content hmem), getLast?_answer_ne (uncut line hmem)⟩
  -- The lines of the second run are the answers of the first, and each is written as it is.
  rw [transcript_eq_flatMap_content, hcontents, houtput, List.flatMap_def, List.flatMap_def]
  congr 1
  apply List.map_congr_left
  intro content hcontent
  obtain ⟨line, hline, rfl⟩ := List.mem_map.1 hcontent
  obtain ⟨hmem, hfilled⟩ := List.mem_filter.1 hline
  exact written_of_content_eq_answer inert (hnumbers line hmem) (by simpa using hfilled) rfl

end Engine

/-! ## The second run -/

namespace Json.Number

/-- The number is an integer of 64 bits, signed or unsigned. -/
def IsInteger : Number → Prop
  | .integer _ _ => True
  | .float _ _ => False

instance : DecidablePred IsInteger
  | .integer _ _ => isTrue trivial
  | .float _ _ => isFalse id

theorem readsBack_of_isInteger {n : Number} (h : n.IsInteger) : n.ReadsBack := by
  cases n with
  | integer value fits => exact readsBack_integer value fits
  | float value finite => exact h.elim

end Json.Number

namespace Session

variable {m : Type → Type} [Monad m] [LawfulMonad m]

/-- In the strict schema a second run with the same engine, over what the first one wrote, writes it once
more, byte for byte.  No line of the source may end in a carriage return of its own, which the second run
would take for a part of the end of the line, and each number in a record is an integer of 64 bits, or a
float whose text is read as the same float. -/
theorem run_own_output (clock : m Nat) (fs : FileSystem) {session : Session}
    (strict : session.engine.schema = .strict) {stdin stream : List UInt8} {source : Source}
    (opened : source.open? fs stdin = .ok (.stream stream))
    (uncut : ∀ line ∈ Line.ofStream stream, line.content.getLast? ≠ some Line.carriageReturn)
    (whole : ∀ line ∈ Line.ofStream stream, ∀ n ∈ line.numbers, n.IsInteger ∨ n.ReadsBack) :
    ∃ output : List UInt8,
      session.Writes clock fs stdin source output ∧
      ∀ (later : m Nat) (again : Session) (files : FileSystem) (input : List UInt8) (own : Source),
        again.engine = session.engine → own.open? files input = .ok (.stream output) →
          again.Writes later files input own output := by
  refine ⟨session.engine.transcript stream, session.writes_run clock fs opened, ?_⟩
  intro later again files input own same reopened
  have hrun := again.writes_run later files reopened
  have hnumbers : ∀ line ∈ Line.ofStream stream, ∀ n ∈ line.numbers, n.ReadsBack :=
    fun line hline n hn => (whole line hline n hn).elim Json.Number.readsBack_of_isInteger id
  rwa [same, Engine.transcript_transcript (Engine.inert_of_strict strict) uncut hnumbers] at hrun

/-- A record with blanks, the greatest integer and a name that occurs twice, a line that is no record, and
a blank line. -/
def looseStream : List UInt8 :=
  ("\x7b\"host_ip\" : 1, \"n\":[18446744073709551615, -7], \"host_ip\":\"10.0.0.1\"\x7d\r\n" ++
    "no record\n\n").toUTF8.toList

/-- What is written for these lines, and for these again. -/
def tightStream : List UInt8 :=
  ("\x7b\"host_ip\":\"10.0.0.1\",\"n\":[18446744073709551615,-7],\"host_reserved_ip\":true\x7d\n" ++
    "no record\n").toUTF8.toList

theorem run_own_output_loose :
    (start (.sample .strict)).Writes (m := Id) (pure 0) (.ofAnswers []) looseStream .stdin
        tightStream ∧
      (start (.sample .strict)).Writes (m := Id) (pure 0) (.ofAnswers []) tightStream .stdin
        tightStream := by
  have uncut : ∀ line ∈ Line.ofStream looseStream,
      line.content.getLast? ≠ some Line.carriageReturn := by
    decide +kernel
  have whole : ∀ line ∈ Line.ofStream looseStream, ∀ n ∈ line.numbers, n.IsInteger := by
    decide +kernel
  obtain ⟨output, hfirst, hagain⟩ := run_own_output (m := Id) (pure 0) (.ofAnswers [])
    (show (start (.sample .strict)).engine.schema = .strict from rfl)
    (show Source.stdin.open? (.ofAnswers []) looseStream = .ok (.stream looseStream) from rfl) uncut
    fun line hline n hn => Or.inl (whole line hline n hn)
  have houtput : output = tightStream := by
    obtain ⟨timers, hrun⟩ := hfirst
    have hwritten : (show Run from (start (.sample .strict)).run (m := Id) (pure 0) (.ofAnswers []) true
        looseStream [.stdin]).output = tightStream := by
      decide +kernel
    rw [hrun] at hwritten
    exact hwritten
  subst houtput
  exact ⟨hfirst, hagain (pure 0) (start (.sample .strict)) (.ofAnswers []) tightStream .stdin rfl rfl⟩

end Session

end GeoTag
