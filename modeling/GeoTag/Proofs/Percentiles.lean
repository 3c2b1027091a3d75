import GeoTag.Proofs.Histogram
import Mathlib.Algebra.Order.BigOperators.Group.List
import Mathlib.Algebra.Order.Floor.Semiring
import Mathlib.Algebra.Order.Field.Rat
import Mathlib.Data.Rat.Floor
import Mathlib.Tactic.NormNum
import Mathlib.Tactic.Positivity

/-!
# What a summary says of the samples

`Latency.Timer.Reaches` names the lowest bucket up to which enough samples have been counted, and a percentile
is its upper bound (`percentile_eq_upperBound`).  Counting buckets is counting samples
(`Timer.Holds.upTo_eq`), so a percentile bounds its share of the samples.
-/

namespace GeoTag

namespace Latency

/-! ## Counting up to a bucket -/

/-- The samples in the buckets up to one of them, counted. -/
def Timer.upTo (timer : Timer) (i : Nat) : Nat := (timer.buckets.toList.take (i + 1)).sum

/-- The bucket is the lowest up to which as many samples as wanted have been counted. -/
structure Timer.Reaches (timer : Timer) (wanted i : Nat) : Prop where
  lt : i < 64
  reached : wanted ≤ timer.upTo i
  lowest : ∀ j < i, timer.upTo j < wanted

theorem countP_bucket_lt_succ (times : List UInt64) (n : Nat) :
    (times.countP fun time => (bucket time).val < n + 1) =
      (times.countP fun time => (bucket time).val < n) +
        times.countP fun time => (bucket time).val = n := by
  induction times with
  | nil => rfl
  | cons time times ih =>
    simp only [List.countP_cons, ih, decide_eq_true_eq]
    split <;> split <;> split <;> omega

namespace Timer.Holds

variable {timer : Timer} {times : List UInt64}

theorem sum_take (h : timer.Holds times) {n : Nat} (hn : n ≤ 64) :
    (timer.buckets.toList.take n).sum = times.countP fun time => (bucket time).val < n := by
  induction n with
  | zero => simp
  | succ n ih =>
    have hlength : n < timer.buckets.toList.length := by
      rw [Vector.length_toList]
      exact hn
    have hbucket : timer.buckets.toList[n] = times.countP fun time => (bucket time).val = n := by
      have hcount := h.buckets ⟨n, hn⟩
      simp only [Fin.ext_iff] at hcount
      exact hcount
    rw [List.sum_take_succ _ _ hlength, ih (Nat.le_of_succ_le hn), hbucket, countP_bucket_lt_succ]

/-- Up to a bucket lie the samples below the next power of two. -/
theorem upTo_eq (h : timer.Holds times) {i : Nat} (hi : i < 64) :
    timer.upTo i = times.countP fun time => time.toNat < 2 ^ (i + 1) := by
  rw [upTo, h.sum_take hi]
  simp only [Nat.lt_succ_iff, val_bucket_le_iff]

/-- All buckets together hold all samples. -/
theorem sum_buckets (h : timer.Holds times) : timer.buckets.toList.sum = times.length := by
  have hall := h.sum_take (Nat.le_refl 64)
  rw [List.take_of_length_le (Nat.le_of_eq Vector.length_toList)] at hall
  rw [hall, List.countP_eq_length]
  exact fun time _ => decide_eq_true (bucket time).isLt

end Timer.Holds

/-! ## The scan for a percentile -/

/-- The scan stops at the first bucket at which enough samples have been counted. -/
theorem scan_eq_upperBound {wanted : Nat} {counts : List Nat} {i seen j : Nat} (hj : j < counts.length)
    (hlowest : ∀ k < j, seen + (counts.take (k + 1)).sum < wanted)
    (hreached : wanted ≤ seen + (counts.take (j + 1)).sum) :
    scan wanted i seen counts = upperBound (i + j) := by
  induction counts generalizing i seen j with
  | nil => cases hj
  | cons n counts ih =>
    rw [scan]
    cases j with
    | zero =>
      rw [List.take_succ_cons, List.take_zero, List.sum_singleton] at hreached
      rw [if_pos hreached, Nat.add_zero]
    | succ j =>
      have hfirst := hlowest 0 (Nat.succ_pos j)
      rw [List.take_succ_cons, List.take_zero, List.sum_singleton] at hfirst
      rw [List.take_succ_cons, List.sum_cons, ← Nat.add_assoc] at hreached
      rw [if_neg (Nat.not_le.2 hfirst), ih (Nat.lt_of_succ_lt_succ hj) ?_ hreached, Nat.add_right_comm,
        Nat.add_assoc]
      intro k hk
      have hnext := hlowest (k + 1) (Nat.succ_lt_succ hk)
      rwa [List.take_succ_cons, List.sum_cons, ← Nat.add_assoc] at hnext

theorem percentile_eq_upperBound {timer : Timer} {percent i : Nat}
    (h : timer.Reaches (rank timer.buckets.toList.sum percent) i) :
    percentile timer.buckets percent = upperBound i := by
  have hlength : i < timer.buckets.toList.length := by
    rw [Vector.length_toList]
    exact h.lt
  have hlowest : ∀ k < i, 0 + (timer.buckets.toList.take (k + 1)).sum <
      rank timer.buckets.toList.sum percent := by
    intro k hk
    rw [Nat.zero_add]
    exact h.lowest k hk
  have hreached : rank timer.buckets.toList.sum percent ≤
      0 + (timer.buckets.toList.take (i + 1)).sum := by
    rw [Nat.zero_add]
    exact h.reached
  have hscan := scan_eq_upperBound (i := 0) hlength hlowest hreached
  rwa [Nat.zero_add] at hscan

theorem toNat_upperBound {i : Nat} (h : i < 64) :
    (upperBound i).toNat = min (2 ^ (i + 1)) (2 ^ 64 - 1) := by
  have hwords : ∀ j : Fin 64, (upperBound j.val).toNat = min (2 ^ (j.val + 1)) (2 ^ 64 - 1) := by decide
  exact hwords ⟨i, h⟩

/-- The least number of samples that is at least the given share of all. -/
def portion (percent count : Nat) : Nat := ⌈(percent : ℚ) / 100 * count⌉₊

theorem portion_le_iff {percent count n : Nat} : portion percent count ≤ n ↔ percent * count ≤ 100 * n := by
  have hhundred : (0 : ℚ) < 100 := by norm_num
  rw [portion, Nat.ceil_le, div_mul_eq_mul_div, div_le_iff₀ hhundred, mul_comm (n : ℚ)]
  exact_mod_cast Iff.rfl

theorem rank_eq_portion {percent count : Nat} (hpercent : 0 < percent) (hcount : 0 < count) :
    rank count percent = portion percent count := by
  have hpos : 0 < percent * count := Nat.mul_pos hpercent hcount
  refine eq_of_forall_ge_iff fun n => ?_
  rw [portion_le_iff, rank, Nat.mul_comm count, Nat.max_le]
  omega

theorem portion_le_count {percent : Nat} (h : percent ≤ 100) (count : Nat) : portion percent count ≤ count :=
  portion_le_iff.2 (Nat.mul_le_mul_right count h)

theorem portion_pos {percent count : Nat} (hpercent : 0 < percent) (hcount : 0 < count) :
    0 < portion percent count := by
  rw [← rank_eq_portion hpercent hcount]
  exact Nat.lt_of_lt_of_le Nat.zero_lt_one (Nat.le_max_left _ _)

theorem portion_mono {percent percent' : Nat} (h : percent ≤ percent') (count : Nat) :
    portion percent count ≤ portion percent' count :=
  portion_le_iff.2 (Nat.le_trans (Nat.mul_le_mul_right count h) (portion_le_iff.1 (Nat.le_refl _)))

namespace Timer

variable {timer : Timer} {times : List UInt64} {wanted i : Nat}

theorem Reaches.le {wanted' i' : Nat} (h : timer.Reaches wanted i) (h' : timer.Reaches wanted' i')
    (hle : wanted ≤ wanted') : i ≤ i' :=
  Nat.not_lt.1 fun hlt => Nat.not_lt.2 (Nat.le_trans hle h'.reached) (h.lowest i' hlt)

/-- As many samples as there are have been counted up to some bucket. -/
theorem Holds.exists_reaches (h : timer.Holds times) (hwanted : wanted ≤ times.length) :
    ∃ i, timer.Reaches wanted i := by
  have hlast : wanted ≤ timer.upTo 63 := by
    rwa [upTo, List.take_of_length_le (Nat.le_of_eq Vector.length_toList), h.sum_buckets]
  have hexists : ∃ i, wanted ≤ timer.upTo i := ⟨63, hlast⟩
  refine ⟨Nat.find hexists, Nat.lt_succ_of_le (Nat.find_min' hexists hlast), Nat.find_spec hexists, ?_⟩
  exact fun j hj => Nat.not_le.1 (Nat.find_min hexists hj)

/-- The samples up to a bucket are at most its upper bound. -/
theorem Holds.upTo_le_countP (h : timer.Holds times) (hi : i < 64) :
    timer.upTo i ≤ times.countP fun time => time ≤ upperBound i := by
  rw [h.upTo_eq hi]
  refine List.countP_mono_left fun time _ hlt => ?_
  rw [decide_eq_true_eq] at hlt ⊢
  rw [UInt64.le_iff_toNat_le, toNat_upperBound hi, Nat.le_min]
  exact ⟨Nat.le_of_lt hlt, Nat.le_sub_one_of_lt time.toNat_lt⟩

theorem Holds.wanted_le_countP (h : timer.Holds times) (hreaches : timer.Reaches wanted i) :
    wanted ≤ times.countP fun time => time ≤ upperBound i :=
  Nat.le_trans hreaches.reached (h.upTo_le_countP hreaches.lt)

theorem Holds.least_le_upperBound (h : timer.Holds times) (hreaches : timer.Reaches wanted i)
    (hwanted : 0 < wanted) : timer.least ≤ upperBound i := by
  have hcount := Nat.lt_of_lt_of_le hwanted (h.wanted_le_countP hreaches)
  obtain ⟨time, htime, hle⟩ := List.countP_pos_iff.1 hcount
  exact UInt64.le_trans (h.least_le time htime) (of_decide_eq_true hle)

theorem upperBound_le {i' : Nat} (hle : i ≤ i') (h : i' < 64) : upperBound i ≤ upperBound i' := by
  rw [UInt64.le_iff_toNat_le, toNat_upperBound (Nat.lt_of_le_of_lt hle h), toNat_upperBound h, Nat.le_min]
  refine ⟨Nat.le_trans (Nat.min_le_left _ _) ?_, Nat.min_le_right _ _⟩
  exact Nat.pow_le_pow_right (by decide) (Nat.succ_le_succ hle)

theorem upperBound_pos (h : i < 64) : 0 < upperBound i := by
  rw [UInt64.lt_iff_toNat_lt, toNat_upperBound h, UInt64.toNat_zero, Nat.lt_min]
  exact ⟨Nat.two_pow_pos _, by decide⟩

/-- At the bucket of the greatest sample all have been counted. -/
theorem Holds.upTo_bucket_greatest (h : timer.Holds times) :
    timer.upTo (bucket timer.greatest) = times.length := by
  rw [h.upTo_eq (bucket timer.greatest).isLt, List.countP_eq_length]
  intro time htime
  have hle := UInt64.le_iff_toNat_le.1 (h.le_greatest time htime)
  exact decide_eq_true (Nat.lt_of_le_of_lt hle (inBucket_iff.2 rfl).2)

theorem two_pow_bucket_le {time : UInt64} (hpos : 0 < time) :
    2 ^ ((bucket time).val + 1) ≤ 2 * time.toNat := by
  have htime : 0 < time.toNat := UInt64.lt_iff_toNat_lt.1 hpos
  obtain ⟨hlow | hlow, -⟩ := inBucket_iff.2 (rfl : (bucket time).val = (bucket time).val)
  · rw [hlow]
    omega
  · rw [Nat.pow_succ]
    omega

theorem Holds.upperBound_le_two_mul (h : timer.Holds times) (hreaches : timer.Reaches wanted i)
    (hwanted : wanted ≤ times.length) (hpos : 0 < timer.greatest) :
    (upperBound i).toNat ≤ 2 * timer.greatest.toNat := by
  have hle : i ≤ (bucket timer.greatest).val := by
    by_contra hlt
    have hlowest := hreaches.lowest _ (Nat.not_le.1 hlt)
    rw [h.upTo_bucket_greatest] at hlowest
    exact Nat.not_lt.2 hwanted hlowest
  calc (upperBound i).toNat
      ≤ 2 ^ (i + 1) := by
        rw [toNat_upperBound hreaches.lt]
        exact Nat.min_le_left _ _
    _ ≤ 2 ^ ((bucket timer.greatest).val + 1) :=
        Nat.pow_le_pow_right (by decide) (Nat.succ_le_succ hle)
    _ ≤ 2 * timer.greatest.toNat := two_pow_bucket_le hpos

end Timer

/-! ## Extremes and mean -/

namespace Timer.Holds

variable {timer : Timer} {times : List UInt64}

theorem least_mem_of_ne_nil (h : timer.Holds times) (hne : times ≠ []) : timer.least ∈ times := by
  rcases List.mem_cons.1 h.least_mem with hmax | hmem
  · obtain ⟨time, rest, rfl⟩ := List.exists_cons_of_ne_nil hne
    have hle := h.least_le time List.mem_cons_self
    rw [hmax] at hle ⊢
    exact UInt64.le_antisymm hle (le_maxTime time) ▸ List.mem_cons_self
  · exact hmem

theorem greatest_mem_of_ne_nil (h : timer.Holds times) (hne : times ≠ []) : timer.greatest ∈ times := by
  rcases List.mem_cons.1 h.greatest_mem with hzero | hmem
  · obtain ⟨time, rest, rfl⟩ := List.exists_cons_of_ne_nil hne
    have hle := h.le_greatest time List.mem_cons_self
    rw [hzero] at hle ⊢
    exact UInt64.le_antisymm hle UInt64.zero_le ▸ List.mem_cons_self
  · exact hmem

/-- As long as the sum has not wrapped, the mean is the floor of the average. -/
theorem toNat_mean (h : timer.Holds times) (hsum : (times.map UInt64.toNat).sum < 2 ^ 64) :
    (UInt64.ofNat (timer.total.toNat / timer.count)).toNat =
      (times.map UInt64.toNat).sum / times.length := by
  rw [h.total, h.count, Nat.mod_eq_of_lt hsum]
  exact UInt64.toNat_ofNat_of_lt' (Nat.lt_of_le_of_lt (Nat.div_le_self _ _) hsum)

theorem least_le_average (h : timer.Holds times) (hne : times ≠ []) :
    timer.least.toNat ≤ (times.map UInt64.toNat).sum / times.length := by
  have hall : ∀ n ∈ times.map UInt64.toNat, timer.least.toNat ≤ n :=
    List.forall_mem_map.2 fun time htime => UInt64.le_iff_toNat_le.1 (h.least_le time htime)
  have hsum := List.card_nsmul_le_sum _ _ hall
  rw [List.length_map, nsmul_eq_mul, Nat.cast_id, Nat.mul_comm] at hsum
  exact (Nat.le_div_iff_mul_le (List.length_pos_of_ne_nil hne)).2 hsum

theorem average_le_greatest (h : timer.Holds times) :
    (times.map UInt64.toNat).sum / times.length ≤ timer.greatest.toNat := by
  have hall : ∀ n ∈ times.map UInt64.toNat, n ≤ timer.greatest.toNat :=
    List.forall_mem_map.2 fun time htime => UInt64.le_iff_toNat_le.1 (h.le_greatest time htime)
  have hsum := List.sum_le_card_nsmul _ _ hall
  rw [List.length_map, nsmul_eq_mul, Nat.cast_id] at hsum
  exact Nat.div_le_of_le_mul hsum

end Timer.Holds

/-! ## Summaries -/

instance (i : Nat) (time : UInt64) : Decidable (InBucket i time) :=
  inferInstanceAs (Decidable ((_ ∨ _) ∧ _))

/-- The bound is the upper bound of the lowest bucket up to which its share of the samples has been counted,
so at least that share of the samples is at most the bound. -/
structure IsPercentile (timer : Timer) (times : List UInt64) (percent : Nat) (bound : UInt64) : Prop where
  bucket : ∃ i, timer.Reaches (portion percent times.length) i ∧
    bound.toNat = min (2 ^ (i + 1)) (2 ^ 64 - 1)
  portion_le : portion percent times.length ≤ times.countP fun time => time ≤ bound
  pos : 0 < bound

/-- What a summary of a timer says of the samples that the timer has taken. -/
structure Summarizes (s : Snapshot) (timer : Timer) (times : List UInt64) : Prop where
  count : s.count = times.length
  sum_buckets : timer.buckets.toList.sum = s.count
  inBucket : ∀ time ∈ times, (bucket time).val < 64 ∧ InBucket (bucket time) time
  buckets : ∀ i : Fin 64, timer.buckets[i] = times.countP fun time => InBucket i time
  least : s.least ∈ times ∧ ∀ time ∈ times, s.least ≤ time
  greatest : s.greatest ∈ times ∧ ∀ time ∈ times, time ≤ s.greatest
  mean : s.mean.toNat = (times.map UInt64.toNat).sum / times.length
  least_le_mean : s.least ≤ s.mean
  mean_le_greatest : s.mean ≤ s.greatest
  p50 : IsPercentile timer times 50 s.p50
  p95 : IsPercentile timer times 95 s.p95
  p99 : IsPercentile timer times 99 s.p99
  least_le_p50 : s.least ≤ s.p50
  p50_le_p95 : s.p50 ≤ s.p95
  p95_le_p99 : s.p95 ≤ s.p99
  p99_le : 0 < s.greatest → s.p99.toNat ≤ 2 * s.greatest.toNat

/-- A percentile and the bucket that it comes from. -/
theorem Timer.Holds.percentile_eq {timer : Timer} {times : List UInt64} (h : timer.Holds times)
    (hne : times ≠ []) (percent : Nat) (hpos : 0 < percent) (hle : percent ≤ 100) :
    ∃ i, timer.Reaches (portion percent times.length) i ∧
      percentile timer.buckets percent = upperBound i := by
  obtain ⟨i, hreaches⟩ := h.exists_reaches (portion_le_count hle times.length)
  refine ⟨i, hreaches, percentile_eq_upperBound ?_⟩
  rwa [h.sum_buckets, rank_eq_portion hpos (List.length_pos_of_ne_nil hne)]

theorem Timer.Holds.isPercentile {timer : Timer} {times : List UInt64} (h : timer.Holds times) {percent i : Nat}
    (hreaches : timer.Reaches (portion percent times.length) i) :
    IsPercentile timer times percent (upperBound i) where
  bucket := ⟨i, hreaches, toNat_upperBound hreaches.lt⟩
  portion_le := h.wanted_le_countP hreaches
  pos := Timer.upperBound_pos hreaches.lt

theorem Timer.Holds.summarizes {timer : Timer} {times : List UInt64} (h : timer.Holds times)
    (hne : times ≠ []) (hsum : (times.map UInt64.toNat).sum < 2 ^ 64) :
    Summarizes timer.snapshot timer times := by
  have hlength := List.length_pos_of_ne_nil hne
  have hcount : timer.count ≠ 0 := by
    rw [h.count]
    exact Nat.pos_iff_ne_zero.1 hlength
  obtain ⟨i50, hreaches50, h50⟩ := h.percentile_eq hne 50 (by decide) (by decide)
  obtain ⟨i95, hreaches95, h95⟩ := h.percentile_eq hne 95 (by decide) (by decide)
  obtain ⟨i99, hreaches99, h99⟩ := h.percentile_eq hne 99 (by decide) (by decide)
  have hmean := h.toNat_mean hsum
  rw [Timer.snapshot, if_neg hcount, h50, h95, h99]
  exact {
    count := h.count
    sum_buckets := h.sum_buckets.trans h.count.symm
    inBucket := fun time _ => ⟨(bucket time).isLt, inBucket_iff.2 rfl⟩
    buckets := fun i => by simp only [inBucket_iff, h.buckets i, Fin.ext_iff]
    least := ⟨h.least_mem_of_ne_nil hne, h.least_le⟩
    greatest := ⟨h.greatest_mem_of_ne_nil hne, h.le_greatest⟩
    mean := hmean
    least_le_mean := UInt64.le_iff_toNat_le.2 (hmean ▸ h.least_le_average hne)
    mean_le_greatest := UInt64.le_iff_toNat_le.2 (hmean ▸ h.average_le_greatest)
    p50 := h.isPercentile hreaches50
    p95 := h.isPercentile hreaches95
    p99 := h.isPercentile hreaches99
    least_le_p50 := h.least_le_upperBound hreaches50 (portion_pos (by decide) hlength)
    p50_le_p95 :=
      Timer.upperBound_le (hreaches50.le hreaches95 (portion_mono (by decide) _)) hreaches95.lt
    p95_le_p99 :=
      Timer.upperBound_le (hreaches95.le hreaches99 (portion_mono (by decide) _)) hreaches99.lt
    p99_le := h.upperBound_le_two_mul hreaches99 (portion_le_count (by decide) _) }

/-- Whatever times a new timer takes, its snapshot says what they were: how many, which the least and the
greatest, what they are on average, and which bounds half, 95 and 99 of a hundred of them keep.  The order in
which they were taken does not matter. -/
theorem summarizes_recordAll (elapsed : List Nat) (nonempty : elapsed ≠ [])
    (bounded : ((elapsed.map clip).map UInt64.toNat).sum < 2 ^ 64) :
    (∀ nanoseconds ∈ elapsed, (clip nanoseconds).toNat = min nanoseconds (2 ^ 64 - 1)) ∧
    Summarizes (Timer.empty.recordAll (elapsed.map clip)).snapshot
      (Timer.empty.recordAll (elapsed.map clip)) (elapsed.map clip) ∧
    ∀ others : List Nat, elapsed.Perm others →
      (Timer.empty.recordAll (others.map clip)).snapshot =
        (Timer.empty.recordAll (elapsed.map clip)).snapshot := by
  refine ⟨fun nanoseconds _ => toNat_clip nanoseconds, ?_, ?_⟩
  · have hne : elapsed.map clip ≠ [] := mt List.map_eq_nil_iff.1 nonempty
    exact (Timer.holds_recordAll (elapsed.map clip)).summarizes hne bounded
  · intro others hperm
    rw [Timer.recordAll_perm (hperm.map clip)]

/-- Two times of no length, and one that no sample can hold. -/
def extremeTimes : List Nat := [0, 0x10000000000000000, 0]

/-- Half of these samples are in the first bucket, and the bound of the last ends at the longest time. -/
theorem summarizes_recordAll_extremes :
    Summarizes (Timer.empty.recordAll (extremeTimes.map clip)).snapshot
        (Timer.empty.recordAll (extremeTimes.map clip)) (extremeTimes.map clip) ∧
      (Timer.empty.recordAll (extremeTimes.reverse.map clip)).snapshot =
        ⟨3, 0, 0x5555555555555555, 0xffffffffffffffff, 2, 0xffffffffffffffff, 0xffffffffffffffff⟩ := by
  obtain ⟨-, hsummary, hperm⟩ := summarizes_recordAll extremeTimes (by decide) (by decide +kernel)
  refine ⟨hsummary, (hperm _ (List.reverse_perm extremeTimes).symm).trans ?_⟩
  decide +kernel

end Latency

end GeoTag
