import GeoTag.Proofs.RereadIntegers
import GeoTag.Proofs.SourcesInTurn

/-!
# Records passed through

A disabled engine leaves every record as it is, but the record is read from its line and written again
(`Session.passes_through_iff`).  A line whose numbers are integers spells the same value afterwards, in every
part and in the same order, exactly when each of its integers is reread as itself.  All integers of 64 bits
are.  An integer beyond them becomes a float, and `2 ^ 64` is one that is lost on the way
(`Session.not_passes_through`).
-/

namespace GeoTag

namespace Json

/-- A value that is read of a text with integers only and written again. -/
theorem denotes_rewritten {text : String} {v : Exact ℤ} {value : Json}
    (hdenotes : Denotes IntegerNumeral text v) (hparse : parse? text = some value)
    (distinct : v.Distinct) :
    Denotes Numeral value.toText (v.map reread) ∧
      (Denotes Numeral value.toText (v.map (Int.cast : ℤ → ℚ)) ↔ ∀ i ∈ v.numbers, reread i = i) := by
  have hwritten := value.denotes_toText
  rw [written_of_parse? hdenotes hparse distinct] at hwritten
  refine ⟨hwritten, fun hsame => ?_, fun hkept => ?_⟩
  · exact (Exact.map_eq_map_iff v).1 (hwritten.unique lexed_numeral hsame)
  · rwa [(Exact.map_eq_map_iff v).2 hkept] at hwritten

end Json

open Json (Exact Denotes IntegerNumeral Numeral reread)

theorem Engine.answer_of_disabled {engine : Engine} (disabled : engine.enabled = false) {line : Line}
    {text : String} (htext : line.text? = some text) {members : List (String × Exact ℤ)}
    (hdenotes : Denotes IntegerNumeral text (.object members))
    (distinct : (Exact.object members).Distinct) :
    ∃ written : String, engine.answer line = written.toUTF8.toList ∧
      (line.record? = none → written = text) ∧
      (line.record? ≠ none → Denotes Numeral written ((Exact.object members).map reread)) ∧
      (Denotes Numeral written ((Exact.object members).map (Int.cast : ℤ → ℚ)) ↔
        line.record? = none ∨ ∀ i ∈ (Exact.object members).numbers, reread i = i) := by
  cases hrecord : line.record? with
  | none =>
    refine ⟨text, ?_, fun _ => rfl, fun h => absurd rfl h, fun _ => .inl rfl, fun _ => hdenotes.of_integers⟩
    rw [answer_of_record?_eq_none hrecord, Line.content_of_text? htext]
  | some record =>
    obtain ⟨text', parsed, htext', hparse, rfl⟩ := Line.record?_eq_some_iff.1 hrecord
    obtain rfl : text = text' := Option.some.inj (htext.symm.trans htext')
    obtain ⟨hwritten, hsame⟩ := Json.denotes_rewritten hdenotes hparse distinct
    have hnames : (Keyed.names parsed).Nodup :=
      (Json.distinct_object_iff.1 (Json.regular_of_parse? hparse).distinct).1
    have htoText : (Record.ofMembers parsed).toText = Json.toText (.object parsed) := by
      rw [Record.toText, Record.toJson, Record.toMembers_ofMembers hnames]
    have hdisabled : ¬ engine.enabled = true := by
      rw [disabled]
      exact Bool.false_ne_true
    refine ⟨Json.toText (.object parsed), ?_, fun h => absurd h (Option.some_ne_none _),
      fun _ => hwritten, ?_⟩
    · rw [answer_of_record? hrecord, record_filter_of_disabled hdisabled, htoText]
    · rw [hsame]
      simp

/-- A run of a disabled engine answers each line that it reads and that is not blank with one line.  Take a
line that spells an object in which no name stands twice and all numbers are integers.  If it is not read as
a record, for it is too deep or holds a number beyond the floats, it stays as it is.  Otherwise the answer
spells the object with the same names and values in the same order, but for the integers, which are reread.
So the answer spells the same object exactly when each of the integers is reread as itself, as all integers
of 64 bits are. -/
theorem Session.passes_through_iff {m : Type → Type} [Monad m] [LawfulMonad m] (clock : m Nat)
    (fs : FileSystem) (session : Session) (disabled : session.engine.enabled = false) (stdin : Input)
    {sources : List Source} (once : sources.count .stdin ≤ 1) :
    (∃ answers : List (List UInt8),
      session.Leaves clock fs stdin sources (answers.flatMap ended) (Source.endingOf fs stdin sources) ∧
      answers.length = (Source.filledRead fs stdin sources).length ∧
      (∀ answer ∈ answers, Line.newline ∉ answer) ∧
      ∀ (k : Nat) (line : Line) (text : String) (members : List (String × Exact ℤ)),
        (Source.filledRead fs stdin sources)[k]? = some line → line.text? = some text →
        Denotes IntegerNumeral text (.object members) → (Exact.object members).Distinct →
        ∃ written : String, answers[k]? = some written.toUTF8.toList ∧
          (line.record? = none → written = text) ∧
          (line.record? ≠ none → Denotes Numeral written ((Exact.object members).map reread)) ∧
          (Denotes Numeral written ((Exact.object members).map (Int.cast : ℤ → ℚ)) ↔
            line.record? = none ∨ ∀ i ∈ (Exact.object members).numbers, reread i = i)) ∧
      ∀ i : ℤ, Json.Number.Fits i → reread i = i := by
  refine ⟨⟨(Source.filledRead fs stdin sources).map session.engine.answer, ?_, List.length_map _, ?_, ?_⟩,
    fun i => Json.reread_of_fits⟩
  · rw [List.flatMap_map]
    exact session.leaves_run clock fs stdin once
  · intro answer hanswer
    obtain ⟨line, hline, rfl⟩ := List.mem_map.1 hanswer
    exact Engine.notMem_answer (Source.notMem_content_of_mem_linesRead (List.mem_filter.1 hline).1)
  · intro k line text members hline htext hdenotes distinct
    obtain ⟨written, hanswer, hwritten⟩ := Engine.answer_of_disabled disabled htext hdenotes distinct
    refine ⟨written, ?_, hwritten⟩
    rw [List.getElem?_map, hline, Option.map_some, hanswer]

/-! ## Integers within 64 bits and beyond -/

namespace Json

/-- The float that `2 ^ 64` is read as. -/
theorem number?_beyond : (Literal.mk false (Decimal.natural 18446744073709551616) none none).number?.map
    (fun n => match n with
      | .integer _ _ => none
      | .float f _ => some (f == 0, Decimal.isNegative f, Decimal.shortest (.ofFloat f))) =
    some (some (false, false, ⟨18446744073709552, 3⟩)) := by
  decide +kernel

theorem reread_beyond : reread 18446744073709551616 = 18446744073709552000 := by
  obtain ⟨n, hn, hfloat⟩ := Option.map_eq_some_iff.1 number?_beyond
  cases n with
  | integer i fits => cases hfloat
  | float f finite =>
    simp only [Option.some.injEq, Prod.mk.injEq] at hfloat
    obtain ⟨hzero, hsign, hdigits⟩ := hfloat
    have hpositive : decide ((18446744073709551616 : ℤ) < 0) = false := by decide
    have habs : (18446744073709551616 : ℤ).natAbs = 18446744073709551616 := rfl
    rw [reread, hpositive, habs, hn]
    simp only [Number.written, hzero, hsign, hdigits, signFactor]
    norm_num

/-- An object with the number `2 ^ 64`. -/
def beyondText : String := "\x7b\"n\":18446744073709551616\x7d"

/-- What is written for it. -/
def beyondRewritten : String := "\x7b\"n\":1.8446744073709552e+19\x7d"

/-- The members of this object. -/
def beyondMembers : List (String × Exact ℤ) := [("n", .number 18446744073709551616)]

/-- An object with integers at the ends of their ranges, and spaces. -/
def withinText : String := "\x7b\"b\": [-9223372036854775808, 18446744073709551615], \"a\": -0\x7d "

/-- The members of this object. -/
def withinMembers : List (String × Exact ℤ) :=
  [("b", .array [.number (-9223372036854775808), .number 18446744073709551615]), ("a", .number 0)]

theorem spellsName_letter {c : Char} (hc : c ≠ '"' ∧ c ≠ '\\' ∧ ¬ c.toNat < 0x20) {cs rest : List Char}
    (hcs : skipSpace cs = '"' :: c :: '"' :: ':' :: rest) : SpellsName cs (String.ofList [c]) rest :=
  ⟨[c], [c], ':' :: rest, hcs, .plain hc.1 hc.2.1 hc.2.2 .nil, rfl, rfl⟩

theorem denotes_beyond : Denotes IntegerNumeral beyondText (.object beyondMembers) := by
  have hobject : skipSpace beyondText.toList =
      '\x7b' :: '"' :: 'n' :: '"' :: ':' :: "18446744073709551616\x7d".toList := by
    decide +kernel
  have hnumber : skipSpace "18446744073709551616\x7d".toList =
      (Literal.sign false ++ Decimal.natural 18446744073709551616) ++ ['\x7d'] := by
    decide +kernel
  exact ⟨[], .object hobject (.lastMember (spellsName_letter (by decide) rfl)
    (.number hnumber (.mk false _) (stops_cons (by decide) [])) rfl), rfl⟩

theorem denotes_within : Denotes IntegerNumeral withinText (.object withinMembers) := by
  have hobject : skipSpace withinText.toList = '\x7b' :: '"' :: 'b' :: '"' :: ':' ::
      " [-9223372036854775808, 18446744073709551615], \"a\": -0\x7d ".toList := by
    decide +kernel
  have harray : skipSpace " [-9223372036854775808, 18446744073709551615], \"a\": -0\x7d ".toList =
      '[' :: "-9223372036854775808, 18446744073709551615], \"a\": -0\x7d ".toList := by
    decide +kernel
  have hfirst : skipSpace "-9223372036854775808, 18446744073709551615], \"a\": -0\x7d ".toList =
      (Literal.sign true ++ Decimal.natural 9223372036854775808) ++
        ',' :: " 18446744073709551615], \"a\": -0\x7d ".toList := by
    decide +kernel
  have hsecond : skipSpace " 18446744073709551615], \"a\": -0\x7d ".toList =
      (Literal.sign false ++ Decimal.natural 18446744073709551615) ++
        ']' :: ", \"a\": -0\x7d ".toList := by
    decide +kernel
  have hname : skipSpace " \"a\": -0\x7d ".toList = '"' :: 'a' :: '"' :: ':' :: " -0\x7d ".toList := by
    decide +kernel
  have hzero : skipSpace " -0\x7d ".toList =
      (Literal.sign true ++ Decimal.natural 0) ++ ['\x7d', ' '] := by
    decide +kernel
  have hitems := Spells.nextItem (.number hfirst (IntegerNumeral.mk true _) (stops_cons (by decide) _)) rfl
    (.lastItem (.number hsecond (.mk false _) (stops_cons (by decide) _)) rfl)
  exact ⟨[' '], .object hobject (.nextMember (spellsName_letter (by decide) rfl)
    (.array harray hitems) rfl (.lastMember (spellsName_letter (by decide) hname)
      (.number hzero (.mk true 0) (stops_cons (by decide) _)) rfl)), rfl⟩

theorem not_forall_reread_beyondMembers :
    ¬ ∀ i ∈ (Exact.object beyondMembers).numbers, reread i = i := by
  intro hkept
  have hbeyond := hkept 18446744073709551616
    (by simp [beyondMembers, Exact.numbers, Exact.numbersOfMembers])
  rw [reread_beyond] at hbeyond
  norm_num at hbeyond

theorem forall_fits_withinMembers : ∀ i ∈ (Exact.object withinMembers).numbers, Number.Fits i := by
  simp [withinMembers, Exact.numbers, Exact.numbersOfMembers, Exact.numbersOfItems, Number.Fits]

theorem distinct_beyondMembers : (Exact.object beyondMembers).Distinct := by
  simp [beyondMembers, Exact.Distinct, Exact.DistinctMembers, Keyed.names]

theorem distinct_withinMembers : (Exact.object withinMembers).Distinct := by
  simp [withinMembers, Exact.Distinct, Exact.DistinctItems, Exact.DistinctMembers, Keyed.names]

end Json

/-- The engine of a run without databases. -/
def Engine.idle : Engine where
  city := .disabled
  asn := .disabled
  policy := ⟨.strict, true⟩
  enabled := false

namespace Session

/-- A file with `2 ^ 64`. -/
def beyondFile : FileSystem := .ofAnswers [("beyond", .ok (.file Json.beyondText.toUTF8))]

/-- The integers of 64 bits are kept, and `2 ^ 64` is not. -/
theorem passes_through_iff_integers :
    [Source.file "beyond", .stdin].count .stdin ≤ 1 ∧ (start .idle).engine.enabled = false ∧
      ∃ beyond within : String,
        (start .idle).Leaves (m := Id) (pure 0) beyondFile (.stream Json.withinText.toUTF8.toList)
          [.file "beyond", .stdin] (ended beyond.toUTF8.toList ++ ended within.toUTF8.toList) .finished ∧
        ¬ Denotes Numeral beyond ((Exact.object Json.beyondMembers).map (Int.cast : ℤ → ℚ)) ∧
        Denotes Numeral within ((Exact.object Json.withinMembers).map (Int.cast : ℤ → ℚ)) := by
  have once : [Source.file "beyond", .stdin].count .stdin ≤ 1 := by decide
  refine ⟨once, rfl, ?_⟩
  obtain ⟨⟨answers, hleaves, hlength, -, hanswers⟩, hfits⟩ :=
    passes_through_iff (m := Id) (pure 0) beyondFile (start .idle) rfl
      (.stream Json.withinText.toUTF8.toList) once
  have hlines : Source.filledRead beyondFile (.stream Json.withinText.toUTF8.toList)
      [.file "beyond", .stdin] =
        [⟨1, Json.beyondText.toUTF8.toList⟩, ⟨1, Json.withinText.toUTF8.toList⟩] := by
    decide +kernel
  rw [hlines] at hlength hanswers
  have hrecord : (Line.mk 1 Json.beyondText.toUTF8.toList).record? ≠ none :=
    Option.isSome_iff_ne_none.1 (by decide +kernel)
  obtain ⟨beyond, hbeyond, -, -, hbeyondSame⟩ := hanswers 0 _ _ _ rfl
    (Line.text?_of_utf8 rfl) Json.denotes_beyond Json.distinct_beyondMembers
  obtain ⟨within, hwithin, -, -, hwithinSame⟩ := hanswers 1 _ _ _ rfl
    (Line.text?_of_utf8 rfl) Json.denotes_within Json.distinct_withinMembers
  refine ⟨beyond, within, ?_, fun hsame => ?_, hwithinSame.2 (.inr fun i hi => hfits i ?_)⟩
  · obtain ⟨first, second, rfl⟩ := List.length_eq_two.1 hlength
    obtain rfl := Option.some.inj hbeyond
    obtain rfl := Option.some.inj hwithin
    rwa [List.flatMap_cons, List.flatMap_singleton] at hleaves
  · exact (hbeyondSame.1 hsame).elim hrecord Json.not_forall_reread_beyondMembers
  · exact Json.forall_fits_withinMembers i hi

/-- An integer beyond 64 bits is not passed through. -/
theorem not_passes_through :
    (start .idle).engine.enabled = false ∧
      (start .idle).Leaves (m := Id) (pure 0) beyondFile (.stream []) [.file "beyond"]
        (ended Json.beyondRewritten.toUTF8.toList) .finished ∧
      Denotes IntegerNumeral Json.beyondText (.object Json.beyondMembers) ∧
      (Exact.object Json.beyondMembers).Distinct ∧
      ¬ Denotes Numeral Json.beyondRewritten
        ((Exact.object Json.beyondMembers).map (Int.cast : ℤ → ℚ)) := by
  have hleaves := (start .idle).leaves_run (m := Id) (pure 0) beyondFile (.stream [])
    (show [Source.file "beyond"].count .stdin ≤ 1 by decide)
  have houtput : (Source.filledRead beyondFile (.stream []) [.file "beyond"]).flatMap
      (fun line => ended ((start .idle).engine.answer line)) = ended Json.beyondRewritten.toUTF8.toList := by
    decide +kernel
  rw [houtput] at hleaves
  have htext : (Json.parse? Json.beyondText).map Json.toText = some Json.beyondRewritten := by
    decide +kernel
  obtain ⟨value, hparse, hvalue⟩ := Option.map_eq_some_iff.1 htext
  obtain ⟨-, hsame⟩ := Json.denotes_rewritten Json.denotes_beyond hparse Json.distinct_beyondMembers
  rw [hvalue] at hsame
  exact ⟨rfl, hleaves, Json.denotes_beyond, Json.distinct_beyondMembers,
    mt hsame.1 Json.not_forall_reread_beyondMembers⟩

end Session

end GeoTag
