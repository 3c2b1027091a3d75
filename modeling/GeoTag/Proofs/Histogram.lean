import GeoTag.Latency
import Mathlib.Algebra.BigOperators.Group.List.Basic
import Mathlib.Algebra.Ring.Nat

/-!
# What a timer holds

`Latency.Timer.Holds` says what a timer knows of the samples that it has taken, whatever their order: their
number, their sum up to a multiple of `2 ^ 64`, the least, the greatest, and how many lie in each bucket.  One
sample keeps it (`Timer.Holds.record`), so a run does (`Timer.holds_recordAll`).  No more is known: two timers
that hold the same samples are the same timer (`Timer.Holds.unique`).
-/

namespace GeoTag

namespace Latency

/-! ## Samples and buckets -/

theorem toNat_maxTime : maxTime.toNat = 2 ^ 64 - 1 := rfl

theorem le_maxTime (time : UInt64) : time ≤ maxTime :=
  UInt64.le_iff_toNat_le.2 (Nat.le_sub_one_of_lt time.toNat_lt)

/-- A time as a sample: what is longer than 64 bits hold is cut to the longest. -/
theorem toNat_clip (nanoseconds : Nat) : (clip nanoseconds).toNat = min nanoseconds (2 ^ 64 - 1) := by
  unfold clip
  split
  · rename_i h
    have hle : nanoseconds ≤ 2 ^ 64 - 1 := Nat.le_sub_one_of_lt h
    rw [UInt64.toNat_ofNat_of_lt' h, Nat.min_eq_left hle]
  · rename_i h
    rw [toNat_maxTime, Nat.min_eq_right]
    exact Nat.le_trans (Nat.sub_le _ _) (Nat.not_lt.1 h)

theorem val_bucket (time : UInt64) : (bucket time).val = time.toNat.log2 := by
  unfold bucket
  split
  · rename_i h
    rw [h]
    rfl
  · rfl

/-- A bucket holds the samples from a power of two up to the next; the first also holds the sample 0. -/
def InBucket (i : Nat) (time : UInt64) : Prop :=
  (i = 0 ∨ 2 ^ i ≤ time.toNat) ∧ time.toNat < 2 ^ (i + 1)

/-- Every sample lies in one of the buckets, and in no other. -/
theorem inBucket_iff {i : Nat} {time : UInt64} : InBucket i time ↔ (bucket time).val = i := by
  rw [val_bucket, InBucket]
  by_cases h : time.toNat = 0
  · have hlog : Nat.log2 0 = 0 := by decide
    have hpos : 0 < 2 ^ (i + 1) := Nat.two_pow_pos (i + 1)
    simp [h, hlog, hpos, eq_comm]
  · rw [Nat.log2_eq_iff h]
    refine and_congr_left fun hlt => or_iff_right_of_imp ?_
    rintro rfl
    exact Nat.one_le_iff_ne_zero.2 h

theorem val_bucket_le_iff {i : Nat} {time : UInt64} :
    (bucket time).val ≤ i ↔ time.toNat < 2 ^ (i + 1) := by
  rw [val_bucket]
  by_cases h : time.toNat = 0
  · have hlog : Nat.log2 0 = 0 := by decide
    have hpos : 0 < 2 ^ (i + 1) := Nat.two_pow_pos (i + 1)
    simp [h, hlog, hpos]
  · rw [← Nat.lt_succ_iff, Nat.log2_lt h]

/-! ## One sample and many -/

namespace Timer

/-- What a timer knows of the samples that it has taken. -/
structure Holds (timer : Timer) (times : List UInt64) : Prop where
  count : timer.count = times.length
  total : timer.total.toNat = (times.map UInt64.toNat).sum % 2 ^ 64
  least_mem : timer.least ∈ maxTime :: times
  least_le : ∀ time ∈ times, timer.least ≤ time
  greatest_mem : timer.greatest ∈ 0 :: times
  le_greatest : ∀ time ∈ times, time ≤ timer.greatest
  buckets : ∀ i : Fin 64, timer.buckets[i] = times.countP fun time => bucket time = i

theorem holds_empty : Holds empty [] where
  count := rfl
  total := rfl
  least_mem := List.mem_cons_self
  least_le _ h := absurd h List.not_mem_nil
  greatest_mem := List.mem_cons_self
  le_greatest _ h := absurd h List.not_mem_nil
  buckets i := Vector.getElem_replicate i.isLt

theorem max_eq_or (a b : UInt64) : max a b = a ∨ max a b = b := by
  have hmax : max a b = if a ≤ b then b else a := rfl
  rw [hmax]
  split
  · exact .inr rfl
  · exact .inl rfl

theorem le_max (a b : UInt64) : a ≤ max a b ∧ b ≤ max a b := by
  have hmax : max a b = if a ≤ b then b else a := rfl
  rw [hmax]
  split
  · rename_i h
    exact ⟨h, UInt64.le_refl b⟩
  · rename_i h
    exact ⟨UInt64.le_refl a, UInt64.le_of_lt (UInt64.not_le.1 h)⟩

variable {timer : Timer} {times : List UInt64}

/-- A sample raises the counter of its bucket and no other. -/
theorem getElem_buckets_record (timer : Timer) (time : UInt64) (i : Fin 64) :
    (timer.record time).buckets[i] =
      if bucket time = i then timer.buckets[i] + 1 else timer.buckets[i] := by
  have hset : (timer.record time).buckets[i] =
      if (bucket time).val = i.val then timer.buckets[bucket time] + 1 else timer.buckets[i] := by
    exact Vector.getElem_set (bucket time).isLt i.isLt
  rw [hset]
  by_cases hsame : bucket time = i
  · subst hsame
    rw [if_pos rfl, if_pos rfl]
  · rw [if_neg (mt Fin.ext hsame), if_neg hsame]

/-- A timer that takes one more sample holds it, too. -/
theorem Holds.record (h : timer.Holds times) (time : UInt64) :
    (timer.record time).Holds (times ++ [time]) where
  count := by
    rw [Timer.record, h.count, List.length_append, List.length_singleton]
  total := by
    rw [Timer.record, UInt64.toNat_add, h.total, List.map_append, List.sum_append, List.map_singleton,
      List.sum_singleton, Nat.mod_add_mod]
  least_mem := by
    show min timer.least time ∈ (maxTime :: times) ++ [time]
    rcases Std.min_eq_or (a := timer.least) (b := time) with hmin | hmin
    · exact hmin.symm ▸ List.mem_append_left [time] h.least_mem
    · exact hmin.symm ▸ List.mem_append_right _ List.mem_cons_self
  least_le := by
    show ∀ other ∈ times ++ [time], min timer.least time ≤ other
    rw [List.forall_mem_append, List.forall_mem_singleton]
    exact ⟨fun other hother => UInt64.le_trans Std.min_le_left (h.least_le other hother),
      Std.min_le_right⟩
  greatest_mem := by
    show max timer.greatest time ∈ (0 :: times) ++ [time]
    rcases max_eq_or timer.greatest time with hmax | hmax
    · exact hmax.symm ▸ List.mem_append_left [time] h.greatest_mem
    · exact hmax.symm ▸ List.mem_append_right _ List.mem_cons_self
  le_greatest := by
    show ∀ other ∈ times ++ [time], other ≤ max timer.greatest time
    obtain ⟨hold, hnew⟩ := le_max timer.greatest time
    rw [List.forall_mem_append, List.forall_mem_singleton]
    exact ⟨fun other hother => UInt64.le_trans (h.le_greatest other hother) hold, hnew⟩
  buckets i := by
    rw [getElem_buckets_record, h.buckets i, List.countP_append, List.countP_singleton]
    by_cases hsame : bucket time = i
    · rw [if_pos hsame, if_pos (decide_eq_true hsame)]
    · rw [if_neg hsame, if_neg (mt of_decide_eq_true hsame), Nat.add_zero]

theorem Holds.recordAll {seen : List UInt64} (h : timer.Holds seen) (times : List UInt64) :
    (timer.recordAll times).Holds (seen ++ times) := by
  induction times generalizing timer seen with
  | nil => rwa [List.append_nil]
  | cons time times ih =>
    have hrun := ih (h.record time)
    rwa [List.append_assoc, List.singleton_append] at hrun

/-- A new timer that takes samples holds them. -/
theorem holds_recordAll (times : List UInt64) : (empty.recordAll times).Holds times :=
  holds_empty.recordAll times

/-! ## The order of the samples -/

theorem Holds.perm (h : timer.Holds times) {others : List UInt64} (hperm : times.Perm others) :
    timer.Holds others where
  count := h.count.trans hperm.length_eq
  total := by rw [h.total, (hperm.map UInt64.toNat).sum_eq]
  least_mem := (hperm.cons maxTime).mem_iff.1 h.least_mem
  least_le time htime := h.least_le time (hperm.mem_iff.2 htime)
  greatest_mem := (hperm.cons 0).mem_iff.1 h.greatest_mem
  le_greatest time htime := h.le_greatest time (hperm.mem_iff.2 htime)
  buckets i := (h.buckets i).trans (hperm.countP_eq _)

theorem Holds.least_le_cons (h : timer.Holds times) : ∀ time ∈ maxTime :: times, timer.least ≤ time :=
  List.forall_mem_cons.2 ⟨le_maxTime timer.least, h.least_le⟩

theorem Holds.cons_le_greatest (h : timer.Holds times) : ∀ time ∈ 0 :: times, time ≤ timer.greatest :=
  List.forall_mem_cons.2 ⟨UInt64.zero_le, h.le_greatest⟩

/-- The samples determine the timer that holds them. -/
theorem Holds.unique {timer' : Timer} (h : timer.Holds times) (h' : timer'.Holds times) :
    timer = timer' := by
  obtain ⟨count, total, least, greatest, buckets⟩ := timer
  obtain ⟨count', total', least', greatest', buckets'⟩ := timer'
  have hcount : count = count' := h.count.trans h'.count.symm
  have htotal : total = total' := UInt64.toNat_inj.1 (h.total.trans h'.total.symm)
  have hleast : least = least' :=
    UInt64.le_antisymm (h.least_le_cons _ h'.least_mem) (h'.least_le_cons _ h.least_mem)
  have hgreatest : greatest = greatest' :=
    UInt64.le_antisymm (h'.cons_le_greatest _ h.greatest_mem) (h.cons_le_greatest _ h'.greatest_mem)
  have hbuckets : buckets = buckets' :=
    Vector.ext fun i hi => (h.buckets ⟨i, hi⟩).trans (h'.buckets ⟨i, hi⟩).symm
  subst hcount htotal hleast hgreatest hbuckets
  rfl

/-- The order of the samples leaves no trace. -/
theorem recordAll_perm {others : List UInt64} (h : times.Perm others) :
    empty.recordAll times = empty.recordAll others :=
  ((holds_recordAll times).perm h).unique (holds_recordAll others)

end Timer

end Latency

end GeoTag
