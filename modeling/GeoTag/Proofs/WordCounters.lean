import GeoTag.Proofs.Histogram
import GeoTag.Proofs.Visits
import GeoTag.Session

/-!
# Counters in words of 64 bits

A `Latency.Timer` counts its samples and a `Line` is numbered in natural numbers.  Words of 64 bits wrap.
A timer of words takes each sample as the timer does, up to multiples of `UInt64.size`
(`Latency.Timer.toWords_record`), so the two say the same as long as fewer samples than that have come
(`Latency.WordTimer.toTimer_recordAll`, `Session.fits_timer`).  The number of a line is not greater than the
number of bytes that are read, so it fits in a word when that does (`Input.toNat_word`).
-/

namespace GeoTag

namespace Latency

/-! ## Timers -/

/-- A timer whose counters are words. -/
@[ext] structure WordTimer where
  /-- The number of samples, which wraps. -/
  count : UInt64
  /-- The sum of the samples, which wraps. -/
  total : UInt64
  /-- The least sample. -/
  least : UInt64
  /-- The greatest sample. -/
  greatest : UInt64
  /-- The number of samples in each bucket, which wraps. -/
  buckets : Fin 64 → UInt64

namespace WordTimer

/-- The timer without samples. -/
def empty : WordTimer := ⟨0, 0, maxTime, 0, fun _ => 0⟩

/-- Takes one sample. -/
def record (timer : WordTimer) (time : UInt64) : WordTimer where
  count := timer.count + 1
  total := timer.total + time
  least := min timer.least time
  greatest := max timer.greatest time
  buckets i := if bucket time = i then timer.buckets i + 1 else timer.buckets i

/-- Takes samples one after the other. -/
def recordAll (timer : WordTimer) (times : List UInt64) : WordTimer := times.foldl record timer

/-- What the words say. -/
def toTimer (timer : WordTimer) : Timer where
  count := timer.count.toNat
  total := timer.total
  least := timer.least
  greatest := timer.greatest
  buckets := Vector.ofFn fun i => (timer.buckets i).toNat

end WordTimer

namespace Timer

/-- What is left of the counters in words. -/
def toWords (timer : Timer) : WordTimer where
  count := UInt64.ofNat timer.count
  total := timer.total
  least := timer.least
  greatest := timer.greatest
  buckets i := UInt64.ofNat (timer.buckets.get i)

/-- No counter has reached the size of a word. -/
structure Fits (timer : Timer) : Prop where
  count : timer.count < UInt64.size
  buckets : ∀ i : Fin 64, timer.buckets[i] < UInt64.size

variable {timer : Timer} {times : List UInt64}

theorem toWords_empty : empty.toWords = WordTimer.empty := by
  have hbuckets : (fun i => UInt64.ofNat ((Vector.replicate 64 0).get i)) = fun _ => 0 := by
    funext i
    exact congrArg UInt64.ofNat (Vector.getElem_replicate i.isLt)
  rw [toWords, empty, hbuckets]
  rfl

/-- One sample does to the words what it does to the counters, whether they wrap or not. -/
theorem toWords_record (timer : Timer) (time : UInt64) :
    (timer.record time).toWords = timer.toWords.record time := by
  have hcount : (timer.record time).toWords.count = (timer.toWords.record time).count :=
    UInt64.ofNat_add timer.count 1
  have hbuckets : (timer.record time).toWords.buckets = (timer.toWords.record time).buckets := by
    funext i
    show UInt64.ofNat (timer.record time).buckets[i] =
      if bucket time = i then UInt64.ofNat timer.buckets[i] + 1 else UInt64.ofNat timer.buckets[i]
    rw [getElem_buckets_record]
    split
    · exact UInt64.ofNat_add _ 1
    · rfl
  exact WordTimer.ext hcount rfl rfl rfl hbuckets

theorem toWords_recordAll (timer : Timer) (times : List UInt64) :
    (timer.recordAll times).toWords = timer.toWords.recordAll times := by
  induction times generalizing timer with
  | nil => rfl
  | cons time times ih =>
    show ((timer.record time).recordAll times).toWords = (timer.toWords.record time).recordAll times
    rw [ih, toWords_record]

/-- Nothing is lost in words as long as the counters fit. -/
theorem Fits.toTimer_toWords (fits : timer.Fits) : timer.toWords.toTimer = timer := by
  have hcount : (UInt64.ofNat timer.count).toNat = timer.count :=
    UInt64.toNat_ofNat_of_lt' fits.count
  have hbuckets : (Vector.ofFn fun i => (UInt64.ofNat (timer.buckets.get i)).toNat) = timer.buckets := by
    apply Vector.ext
    intro i hi
    rw [Vector.getElem_ofFn]
    exact UInt64.toNat_ofNat_of_lt' (fits.buckets ⟨i, hi⟩)
  rw [toWords, WordTimer.toTimer, hcount, hbuckets]

/-- No counter is greater than the number of samples. -/
theorem Holds.fits (h : timer.Holds times) (few : times.length < UInt64.size) : timer.Fits where
  count := by rwa [h.count]
  buckets i := by
    rw [h.buckets i]
    exact Nat.lt_of_le_of_lt List.countP_le_length few

end Timer

/-- A timer of words says what the timer does, as long as a word can count the samples. -/
theorem WordTimer.toTimer_recordAll {times : List UInt64} (few : times.length < UInt64.size) :
    (empty.recordAll times).toTimer = Timer.empty.recordAll times := by
  rw [← Timer.toWords_empty, ← Timer.toWords_recordAll]
  exact ((Timer.holds_recordAll times).fits few).toTimer_toWords

end Latency

namespace Session

/-- A session takes samples and does nothing else to its timer. -/
theorem exists_recordAll (session : Session) (elapsed : Lookup → UInt64) (records : List Record) :
    ∃ times, (session.filterAll elapsed records).2.timer = session.timer.recordAll times := by
  induction records generalizing session with
  | nil => exact ⟨[], rfl⟩
  | cons record records ih =>
    obtain ⟨times, htimes⟩ := ih (session.filter elapsed record).2
    refine ⟨(session.engine.filter record).lookups.map elapsed ++ times, ?_⟩
    show ((session.filter elapsed record).2.filterAll elapsed records).2.timer = _
    rw [htimes, Latency.Timer.recordAll, Latency.Timer.recordAll, List.foldl_append]
    rfl

/-- So the counters of a session fit in words as long as a word can count its look-ups. -/
theorem fits_timer (engine : Engine) (elapsed : Lookup → UInt64) (records : List Record)
    (few : ((start engine).filterAll elapsed records).2.timer.count < UInt64.size) :
    ((start engine).filterAll elapsed records).2.timer.Fits := by
  obtain ⟨times, htimes⟩ := (start engine).exists_recordAll elapsed records
  have hholds := Latency.Timer.holds_recordAll times
  rw [htimes] at few ⊢
  exact hholds.fits (hholds.count ▸ few)

end Session

/-! ## Numbers of lines -/

namespace Line

/-- The number of a line as a word. -/
def word (line : Line) : UInt64 := UInt64.ofNat line.number

/-- The words that a counter goes through, as often as it is raised. -/
def counted (counter : UInt64) : Nat → List UInt64
  | 0 => []
  | times + 1 => (counter + 1) :: counted (counter + 1) times

/-- Lines are numbered by a word that is raised before each of them. -/
theorem map_word_numbered (seen : Nat) (pieces : List (List UInt8)) :
    (numbered seen pieces).map word = counted (UInt64.ofNat seen) pieces.length := by
  induction pieces generalizing seen with
  | nil => rfl
  | cons piece pieces ih =>
    have hnext : UInt64.ofNat (seen + 1) = UInt64.ofNat seen + 1 := UInt64.ofNat_add seen 1
    rw [numbered_cons, List.map_cons, ih, word, hnext]
    rfl

theorem length_pieceStep_le (byte : UInt8) (pieces : List (List UInt8)) :
    (pieceStep byte pieces).length ≤ pieces.length + 1 := by
  cases pieces with
  | nil => exact Nat.le_refl 1
  | cons piece pieces =>
    rw [pieceStep]
    split
    · exact Nat.le_refl _
    · exact Nat.le_succ _

theorem length_pieces_le (stream : List UInt8) : (pieces stream).length ≤ stream.length := by
  induction stream with
  | nil => exact Nat.le_refl 0
  | cons byte stream ih =>
    rw [pieces_cons, List.length_cons]
    exact Nat.le_trans (length_pieceStep_le byte _) (Nat.succ_le_succ ih)

end Line

namespace Input

theorem length_pieces_le (input : Input) : input.pieces.length ≤ input.bytes.length := by
  cases input with
  | stream bytes => exact Line.length_pieces_le bytes
  | broken beginning fault =>
    exact Nat.le_trans (List.length_filter_le _ _) (Line.length_pieces_le beginning)

theorem number_le_length {input : Input} {line : Line} (h : line ∈ input.lines) :
    line.number ≤ input.bytes.length := by
  obtain ⟨k, hk⟩ := List.getElem?_of_mem h
  obtain ⟨piece, hpiece, rfl⟩ := Line.of_getElem?_numbered hk
  obtain ⟨hlt, -⟩ := List.getElem?_eq_some_iff.1 hpiece
  exact Nat.le_trans hlt (length_pieces_le input)

/-- The number of a line fits in a word as long as a word can count the bytes of the input. -/
theorem toNat_word {input : Input} {line : Line} (h : line ∈ input.lines)
    (short : input.bytes.length < UInt64.size) : line.word.toNat = line.number :=
  UInt64.toNat_ofNat_of_lt' (Nat.lt_of_le_of_lt (number_le_length h) short)

end Input

end GeoTag
