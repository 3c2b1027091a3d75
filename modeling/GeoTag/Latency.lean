import GeoTag.Decimal.Layout

/-!
# Statistics of look-up times

A `Timer` takes samples in nanoseconds, as words of 64 bits.  It keeps their number, their sum
(which wraps), the least and the greatest, and a histogram whose bucket `i` holds the samples from
`2 ^ i` up to `2 ^ (i + 1)`; bucket 0 also holds the sample 0.  A `Snapshot` sums a timer up: a
percentile is the upper bound of the lowest bucket at which enough samples have been counted.
-/

namespace GeoTag

namespace Latency

/-- The longest time that a sample can hold. -/
def maxTime : UInt64 := UInt64.ofNat (UInt64.size - 1)

/-- A time in nanoseconds as a sample; longer times are cut to the longest. -/
def clip (nanoseconds : Nat) : UInt64 :=
  if nanoseconds < UInt64.size then UInt64.ofNat nanoseconds else maxTime

/-- The bucket of a sample. -/
def bucket (time : UInt64) : Fin 64 :=
  if h : time.toNat = 0 then 0 else ⟨time.toNat.log2, (Nat.log2_lt h).2 time.toNat_lt⟩

/-- The upper bound of a bucket; the last one ends at the longest time. -/
def upperBound (i : Nat) : UInt64 := if i < 63 then UInt64.ofNat (Nat.pow 2 (i + 1)) else maxTime

/-- What a timer has seen. -/
structure Timer where
  /-- The number of samples; a word says the same below `UInt64.size`. -/
  count : Nat
  /-- The sum of the samples, which wraps. -/
  total : UInt64
  /-- The least sample. -/
  least : UInt64
  /-- The greatest sample. -/
  greatest : UInt64
  /-- The number of samples in each bucket; words say the same below `UInt64.size`. -/
  buckets : Vector Nat 64

/-- The timer without samples. -/
def Timer.empty : Timer := ⟨0, 0, maxTime, 0, Vector.replicate 64 0⟩

/-- Takes one sample. -/
def Timer.record (timer : Timer) (time : UInt64) : Timer where
  count := timer.count + 1
  total := timer.total + time
  least := min timer.least time
  greatest := max timer.greatest time
  buckets := timer.buckets.set (bucket time) (timer.buckets[bucket time] + 1)

/-- Takes samples one after the other. -/
def Timer.recordAll (timer : Timer) (times : List UInt64) : Timer := times.foldl Timer.record timer

/-- How many samples a percentile asks for: its share of all, rounded up, but at least one. -/
def rank (count percent : Nat) : Nat := max 1 ((count * percent + 99) / 100)

/-- The upper bound of the first bucket, from the bucket `i` on, at which `wanted` samples have been
counted, after those already `seen`. -/
def scan (wanted : Nat) : Nat → Nat → List Nat → UInt64
  | _, _, [] => 0
  | i, seen, n :: rest =>
    if wanted ≤ seen + n then upperBound i else scan wanted (i + 1) (seen + n) rest

/-- A percentile of the samples of a histogram. -/
def percentile (buckets : Vector Nat 64) (percent : Nat) : UInt64 :=
  scan (rank (buckets.toList.foldr (· + ·) 0) percent) 0 0 buckets.toList

/-- The summary of a timer. -/
structure Snapshot where
  /-- The number of samples. -/
  count : Nat
  /-- The least sample. -/
  least : UInt64
  /-- The mean of the samples, rounded down. -/
  mean : UInt64
  /-- The greatest sample. -/
  greatest : UInt64
  /-- The bound that half of the samples keep. -/
  p50 : UInt64
  /-- The bound that 95 of a hundred samples keep. -/
  p95 : UInt64
  /-- The bound that 99 of a hundred samples keep. -/
  p99 : UInt64
deriving DecidableEq, Repr

/-- The summary of a timer; all zero without samples. -/
def Timer.snapshot (timer : Timer) : Snapshot :=
  if timer.count = 0 then ⟨0, 0, 0, 0, 0, 0, 0⟩
  else
    { count := timer.count
      least := timer.least
      mean := UInt64.ofNat (timer.total.toNat / timer.count)
      greatest := timer.greatest
      p50 := percentile timer.buckets 50
      p95 := percentile timer.buckets 95
      p99 := percentile timer.buckets 99 }

/-! ### Times in words -/

/-- The `width` decimal digits of a fraction, without the zeros at its end. -/
def fractionDigits (width fraction : Nat) : List Char :=
  let digits := Decimal.natural fraction
  let padded := List.replicate (width - digits.length) '0' ++ digits
  (padded.reverse.dropWhile (· = '0')).reverse

/-- A time in a unit of `10 ^ width` nanoseconds, with the exact fraction. -/
def inUnit (width : Nat) (unit : List Char) (time : Nat) : List Char :=
  let fraction := fractionDigits width (time % Nat.pow 10 width)
  Decimal.natural (time / Nat.pow 10 width) ++
    (if fraction.isEmpty then [] else '.' :: fraction) ++ unit

/-- A time in the largest unit of which it holds at least one. -/
def timeText (time : UInt64) : String :=
  let n := time.toNat
  String.ofList <|
    if 1000000000 ≤ n then inUnit 9 ['s'] n
    else if 1000000 ≤ n then inUnit 6 ['m', 's'] n
    else if 1000 ≤ n then inUnit 3 ['µ', 's'] n
    else inUnit 0 ['n', 's'] n

/-- The summary in words. -/
def Snapshot.toText (s : Snapshot) : String :=
  "count=" ++ toString s.count ++ " min=" ++ timeText s.least ++ " mean=" ++ timeText s.mean ++
    " max=" ++ timeText s.greatest ++ " p50<=" ++ timeText s.p50 ++ " p95<=" ++ timeText s.p95 ++
    " p99<=" ++ timeText s.p99

end Latency

end GeoTag
