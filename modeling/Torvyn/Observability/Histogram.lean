/-
# Histograms

`Histogram` of `metrics/histogram.rs`: recording a value, the snapshot of the counts, and the
percentiles that are read off a snapshot.  Floating point is replaced by rational arithmetic, and
an unsigned subtraction that would underflow has no result.  When nothing else is going on, a
percentile lies between the boundaries of the bucket that holds the value of its rank
(`percentile_brackets`).  The counts step by one and are kept as unbounded numbers; the sum goes
round at 64 bits.
-/
import Torvyn.Data.Ranks

namespace Torvyn.Observability

/-- The upper boundaries of the buckets but the last, in ascending order. -/
abbrev Boundaries := { boundaries : List ℕ // boundaries.Pairwise (· < ·) }

/-- `slice::binary_search` of an ascending slice: the index of the value, or the index at which it
would be inserted. -/
def binarySearch (boundaries : List ℕ) (value : ℕ) : Except ℕ ℕ :=
  let i := boundaries.countP fun boundary => decide (boundary < value)
  if boundaries[i]? = some value then .ok i else .error i

/-- The bucket of a value. -/
def bucketIdx (boundaries : List ℕ) (value : ℕ) : ℕ :=
  match binarySearch boundaries value with
  | .ok i => i
  | .error i => i

/-- A histogram. -/
structure Histogram where
  boundaries : Boundaries
  buckets : List ℕ
  sum : ℕ
  count : ℕ
  min : ℕ
  max : ℕ
  length_eq : buckets.length = boundaries.1.length + 1

/-- A snapshot of a histogram. -/
structure HistogramSnapshot where
  boundaries : Boundaries
  counts : List ℕ
  totalCount : ℕ
  sum : ℕ
  min : ℕ
  max : ℕ
  deriving DecidableEq

namespace Histogram

/-- `Histogram::new`. -/
def new (boundaries : Boundaries) : Histogram where
  boundaries := boundaries
  buckets := List.replicate (boundaries.1.length + 1) 0
  sum := 0
  count := 0
  min := 2 ^ 64 - 1
  max := 0
  length_eq := List.length_replicate

/-- The count of the bucket of a value is increased. -/
def addBucket (h : Histogram) (value : ℕ) : Histogram :=
  { h with
    buckets := h.buckets.modify (bucketIdx h.boundaries.1 value) (· + 1)
    length_eq := by rw [List.length_modify, h.length_eq] }

/-- The value is added to the sum. -/
def addSum (h : Histogram) (value : ℕ) : Histogram := { h with sum := (h.sum + value) % 2 ^ 64 }

/-- One value more has been counted. -/
def addCount (h : Histogram) : Histogram := { h with count := h.count + 1 }

/-- `Histogram::record`, when nothing comes between its steps: the loops for the minimum and the
maximum exchange the value at once, or not at all. -/
def record (h : Histogram) (value : ℕ) : Histogram :=
  let h := ((h.addBucket value).addSum value).addCount
  let h := if value < h.min then { h with min := value } else h
  if h.max < value then { h with max := value } else h

/-- `Histogram::snapshot`, when nothing comes between its loads. -/
def snapshot (h : Histogram) : HistogramSnapshot :=
  ⟨h.boundaries, h.buckets, h.count, h.sum, h.min, h.max⟩

/-- A histogram that values have been recorded in. -/
def recorded (boundaries : Boundaries) (values : List ℕ) : Histogram :=
  values.foldl record (new boundaries)

end Histogram

/-! ## Percentiles -/

/-- An unsigned subtraction. -/
def checkedSub (a b : ℕ) : Option ℕ := if b ≤ a then some (a - b) else none

/-- The rank that a percentile asks for, of so many values. -/
def rank (percentile : ℚ) (total : ℕ) : ℕ := max ⌈percentile / 100 * total⌉₊ 1

/-- The loop over the counts: the index of the first bucket with which the cumulative count
reaches the target, that cumulative count, and the count of the bucket. -/
def locate (target : ℕ) : ℕ → ℕ → List ℕ → Option (ℕ × ℕ × ℕ)
  | _, _, [] => none
  | i, cumulative, count :: counts =>
      if target ≤ cumulative + count then some (i, cumulative + count, count)
      else locate target (i + 1) (cumulative + count) counts

/-- The linear interpolation in a bucket, rounded down. -/
def interpolate (lower width within count : ℕ) : ℕ :=
  ⌊(lower : ℚ) + (1 - (within : ℚ) / count) * width⌋₊

namespace HistogramSnapshot

/-- The lower boundary of a bucket. -/
def lower (s : HistogramSnapshot) (i : ℕ) : ℕ :=
  if i = 0 then 0 else s.boundaries.1[i - 1]?.getD 0

/-- The upper boundary of a bucket; the maximum stands for that of the last. -/
def upper (s : HistogramSnapshot) (i : ℕ) : ℕ := s.boundaries.1[i]?.getD s.max

/-- `HistogramSnapshot::percentile`.  `none`: an unsigned subtraction underflows. -/
def percentile (s : HistogramSnapshot) (percentile : ℚ) : Option ℕ :=
  if s.totalCount = 0 then some 0
  else
    let target := rank percentile s.totalCount
    match locate target 0 0 s.counts with
    | none => some s.max
    | some (i, cumulative, count) =>
        if count = 0 then some (s.upper i)
        else do
          let within ← checkedSub cumulative target
          let width ← checkedSub (s.upper i) (s.lower i)
          return interpolate (s.lower i) width within count

end HistogramSnapshot

/-! ## The bucket of a value -/

section Buckets

variable {boundaries : List ℕ}

theorem bucketIdx_eq (boundaries : List ℕ) (value : ℕ) : bucketIdx boundaries value =
    boundaries.countP fun boundary => decide (boundary < value) := by
  unfold bucketIdx binarySearch
  simp only
  split_ifs
  all_goals rfl

theorem bucketIdx_le (boundaries : List ℕ) (value : ℕ) :
    bucketIdx boundaries value ≤ boundaries.length := by
  rw [bucketIdx_eq]
  exact List.countP_le_length

theorem bucketIdx_mono (boundaries : List ℕ) {value value' : ℕ} (hle : value ≤ value') :
    bucketIdx boundaries value ≤ bucketIdx boundaries value' := by
  rw [bucketIdx_eq, bucketIdx_eq]
  apply List.countP_mono_left
  intro boundary _ hlt
  rw [decide_eq_true_eq] at hlt ⊢
  omega

/-- A value lies in a bucket behind every boundary below it, and before every other. -/
theorem lt_bucketIdx_iff (hascending : boundaries.Pairwise (· < ·)) {i boundary : ℕ}
    (hi : boundaries[i]? = some boundary) (value : ℕ) :
    i < bucketIdx boundaries value ↔ boundary < value := by
  rw [bucketIdx_eq]
  cases value with
  | zero => simp
  | succ value =>
      have hiff := Ranks.lt_countP_iff (f := id) (hascending.imp Nat.le_of_lt) hi value
      simp only [id, ← Nat.lt_succ_iff] at hiff
      exact hiff

end Buckets

/-! ## The loop over the counts -/

/-- The bucket that is found is the first with which the cumulative count reaches the target. -/
theorem locate_eq_some {target cumulative start i total count : ℕ} {counts : List ℕ}
    (h : locate target start cumulative counts = some (i, total, count))
    (hlt : cumulative < target) : ∃ k, i = start + k ∧ counts[k]? = some count ∧
      total = cumulative + (counts.take k).sum + count ∧
      cumulative + (counts.take k).sum < target ∧ target ≤ total := by
  induction counts generalizing start cumulative with
  | nil => cases h
  | cons first counts ih =>
      rw [locate] at h
      by_cases hle : target ≤ cumulative + first
      · rw [if_pos hle] at h
        obtain ⟨rfl, rfl, rfl⟩ : start = i ∧ cumulative + first = total ∧ first = count := by
          simpa using h
        exact ⟨0, rfl, rfl, by simp, by simpa using hlt, hle⟩
      · rw [if_neg hle] at h
        obtain ⟨k, rfl, hk, htotal, hbefore, hreach⟩ := ih h (Nat.lt_of_not_le hle)
        refine ⟨k + 1, by omega, hk, ?_, ?_, hreach⟩
        · rw [List.take_succ_cons, List.sum_cons]
          omega
        · rw [List.take_succ_cons, List.sum_cons]
          omega

/-- No bucket is found only if all counts together do not reach the target. -/
theorem locate_eq_none {target cumulative start : ℕ} {counts : List ℕ}
    (h : locate target start cumulative counts = none) (hlt : cumulative < target) :
    cumulative + counts.sum < target := by
  induction counts generalizing start cumulative with
  | nil => simpa using hlt
  | cons first counts ih =>
      rw [locate] at h
      by_cases hle : target ≤ cumulative + first
      · rw [if_pos hle] at h
        cases h
      · rw [if_neg hle] at h
        have hrest := ih h (Nat.lt_of_not_le hle)
        rw [List.sum_cons]
        omega

/-! ## Interpolation -/

section Interpolation

variable {lower width within count : ℕ}

theorem le_interpolate (hwithin : within ≤ count) :
    lower ≤ interpolate lower width within count := by
  unfold interpolate
  apply Nat.le_floor
  have hfraction : (within : ℚ) / count ≤ 1 :=
    div_le_one_of_le₀ (by exact_mod_cast hwithin) (Nat.cast_nonneg _)
  have hproduct : 0 ≤ (1 - (within : ℚ) / count) * width :=
    mul_nonneg (sub_nonneg.mpr hfraction) (Nat.cast_nonneg _)
  linarith

theorem interpolate_le (lower width within count : ℕ) :
    interpolate lower width within count ≤ lower + width := by
  unfold interpolate
  apply Nat.floor_le_of_le
  have hfraction : 0 ≤ (within : ℚ) / count := div_nonneg (Nat.cast_nonneg _) (Nat.cast_nonneg _)
  have hproduct : (1 - (within : ℚ) / count) * width ≤ 1 * width :=
    mul_le_mul_of_nonneg_right (by linarith) (Nat.cast_nonneg _)
  push_cast
  linarith

/-- The fewer values lie behind, the greater is the result. -/
theorem interpolate_antitone {within' : ℕ} (hle : within' ≤ within) :
    interpolate lower width within count ≤ interpolate lower width within' count := by
  unfold interpolate
  apply Nat.floor_mono
  have hfraction : (within' : ℚ) / count ≤ (within : ℚ) / count :=
    div_le_div_of_nonneg_right (by exact_mod_cast hle) (Nat.cast_nonneg _)
  have hproduct := mul_le_mul_of_nonneg_right
    (sub_le_sub_left hfraction 1) (Nat.cast_nonneg (α := ℚ) width)
  linarith

end Interpolation

theorem one_le_rank (percentile : ℚ) (total : ℕ) : 1 ≤ rank percentile total := le_max_right _ _

theorem rank_mono {p q : ℚ} (hle : p ≤ q) (total : ℕ) : rank p total ≤ rank q total := by
  apply max_le_max_right
  apply Nat.ceil_mono
  have htotal : (0 : ℚ) ≤ total := Nat.cast_nonneg total
  gcongr

theorem rank_le {p : ℚ} (hle : p ≤ 100) {total : ℕ} (hpos : 0 < total) : rank p total ≤ total := by
  apply max_le _ hpos
  apply Nat.ceil_le.mpr
  have htotal : (0 : ℚ) ≤ total := Nat.cast_nonneg total
  have hfraction : p / 100 ≤ 1 := by linarith
  calc p / 100 * total ≤ 1 * total := mul_le_mul_of_nonneg_right hfraction htotal
    _ = total := one_mul _

/-! ## What is recorded -/

namespace Histogram

variable {h : Histogram} {value : ℕ}

@[simp] theorem record_boundaries : (h.record value).boundaries = h.boundaries := by
  unfold record
  simp only
  split_ifs
  all_goals rfl

@[simp] theorem record_buckets : (h.record value).buckets =
    h.buckets.modify (bucketIdx h.boundaries.1 value) (· + 1) := by
  unfold record
  simp only
  split_ifs
  all_goals rfl

@[simp] theorem record_count : (h.record value).count = h.count + 1 := by
  unfold record
  simp only
  split_ifs
  all_goals rfl

@[simp] theorem record_max : (h.record value).max = Max.max h.max value := by
  unfold record
  simp only
  split_ifs with hmin hmax hmax
  · exact (Nat.max_eq_right (Nat.le_of_lt hmax)).symm
  · exact (Nat.max_eq_left (Nat.le_of_not_lt hmax)).symm
  · exact (Nat.max_eq_right (Nat.le_of_lt hmax)).symm
  · exact (Nat.max_eq_left (Nat.le_of_not_lt hmax)).symm

theorem recorded_concat (boundaries : Boundaries) (values : List ℕ) (value : ℕ) :
    recorded boundaries (values ++ [value]) = (recorded boundaries values).record value := by
  unfold recorded
  rw [List.foldl_append]
  rfl

variable {boundaries : Boundaries} {values : List ℕ}

@[simp] theorem boundaries_recorded : (recorded boundaries values).boundaries = boundaries := by
  induction values using List.reverseRecOn with
  | nil => rfl
  | append_singleton values value ih => rw [recorded_concat, record_boundaries, ih]

/-- Each bucket counts the values that lie in it. -/
theorem buckets_recorded : (recorded boundaries values).buckets =
    (List.range (boundaries.1.length + 1)).map fun i =>
      values.countP fun value => decide (bucketIdx boundaries.1 value = i) := by
  induction values using List.reverseRecOn with
  | nil =>
      apply List.ext_getElem?
      intro i
      simp [recorded, new, List.getElem?_replicate]
  | append_singleton values value ih =>
      rw [recorded_concat, record_buckets, boundaries_recorded, ih]
      apply List.ext_getElem?
      intro i
      rw [List.getElem?_modify, List.getElem?_map, List.getElem?_map]
      by_cases hi : i < boundaries.1.length + 1
      · rw [List.getElem?_range hi]
        simp only [Option.map_some, Option.map_eq_map, List.countP_append, List.countP_singleton,
          decide_eq_true_eq]
        split_ifs
        all_goals rfl
      · rw [List.getElem?_eq_none (by simpa using hi)]
        rfl

theorem count_recorded : (recorded boundaries values).count = values.length := by
  induction values using List.reverseRecOn with
  | nil => rfl
  | append_singleton values value ih =>
      rw [recorded_concat, record_count, ih, List.length_append, List.length_singleton]

/-- The maximum is that of the values. -/
theorem max_recorded : (∀ value ∈ values, value ≤ (recorded boundaries values).max) ∧
    (values ≠ [] → (recorded boundaries values).max ∈ values) := by
  induction values using List.reverseRecOn with
  | nil => exact ⟨fun value h => absurd h List.not_mem_nil, fun h => absurd rfl h⟩
  | append_singleton values value ih =>
      obtain ⟨hle, hmem⟩ := ih
      rw [recorded_concat, record_max]
      constructor
      · intro value' hvalue'
        rcases List.mem_append.mp hvalue' with hold | hnew
        · exact (hle value' hold).trans (Nat.le_max_left _ _)
        · rw [List.mem_singleton.mp hnew]
          exact Nat.le_max_right _ _
      · intro _
        rw [List.mem_append, List.mem_singleton]
        rcases Nat.lt_or_ge (recorded boundaries values).max value with hlt | hge
        · exact .inr (Nat.max_eq_right hlt.le)
        · rw [Nat.max_eq_left hge]
          by_cases hvalues : values = []
          · right
            subst hvalues
            exact (Nat.eq_zero_of_le_zero hge).symm
          · exact .inl (hmem hvalues)

end Histogram

/-! ## Percentiles of what is recorded -/

/-- What a snapshot says of the values that have been recorded: the counts add up, the percentiles
ascend, and each lies in the bucket of the value of its rank. -/
structure HistogramSnapshot.Faithful (s : HistogramSnapshot) (values : List ℕ) : Prop where
  counts_sum : s.counts.sum = s.totalCount
  totalCount_eq : s.totalCount = values.length
  le_max : ∀ value ∈ values, value ≤ s.max
  max_mem : values ≠ [] → s.max ∈ values
  ascending : ∀ p q, 0 ≤ p → p ≤ q → q ≤ 100 →
    ∃ x y, s.percentile p = some x ∧ s.percentile q = some y ∧ x ≤ y
  bracketed : values ≠ [] → ∀ p, 0 ≤ p → p ≤ 100 → ∃ value x,
    (values.insertionSort (· ≤ ·))[rank p values.length - 1]? = some value ∧
      s.percentile p = some x ∧
      s.lower (bucketIdx s.boundaries.1 value) ≤ x ∧ x ≤ s.upper (bucketIdx s.boundaries.1 value) ∧
      s.lower (bucketIdx s.boundaries.1 value) ≤ value ∧
      value ≤ s.upper (bucketIdx s.boundaries.1 value)

section Percentiles

variable {boundaries : Boundaries} {values : List ℕ}

open Histogram

/-- A value lies between the boundaries of its bucket. -/
theorem lower_le_value (value : ℕ) :
    (recorded boundaries values).snapshot.lower (bucketIdx boundaries.1 value) ≤ value := by
  unfold HistogramSnapshot.lower
  split_ifs with hzero
  · exact Nat.zero_le _
  · show ((recorded boundaries values).boundaries.1[_]?).getD 0 ≤ value
    rw [boundaries_recorded]
    cases hget : boundaries.1[bucketIdx boundaries.1 value - 1]? with
    | none => exact Nat.zero_le _
    | some boundary =>
        have hlt := (lt_bucketIdx_iff boundaries.2 hget value).mp (by omega)
        exact hlt.le

theorem value_le_upper {value : ℕ} (hmem : value ∈ values) :
    value ≤ (recorded boundaries values).snapshot.upper (bucketIdx boundaries.1 value) := by
  show value ≤ ((recorded boundaries values).boundaries.1[_]?).getD (recorded boundaries values).max
  rw [boundaries_recorded]
  cases hget : boundaries.1[bucketIdx boundaries.1 value]? with
  | none => exact max_recorded.1 value hmem
  | some boundary =>
      have hnot := (lt_bucketIdx_iff boundaries.2 hget value).not.mp (lt_irrefl _)
      exact Nat.le_of_not_lt hnot

/-- The counts of the first buckets, together. -/
theorem sum_take_counts (values : List ℕ) {k : ℕ} (hk : k ≤ boundaries.1.length + 1) :
    ((recorded boundaries values).buckets.take k).sum =
      values.countP fun value => decide (bucketIdx boundaries.1 value < k) := by
  rw [buckets_recorded, ← List.map_take, List.take_range, Nat.min_eq_left hk,
    Ranks.sum_countP_range]

theorem sum_counts : (recorded boundaries values).buckets.sum = values.length := by
  have hlength := (recorded boundaries values).length_eq
  rw [boundaries_recorded] at hlength
  have hall := sum_take_counts values (Nat.le_refl (boundaries.1.length + 1))
  rw [List.take_of_length_le hlength.le] at hall
  rw [hall, List.countP_eq_length]
  intro value _
  have hle := bucketIdx_le boundaries.1 value
  simpa using Nat.lt_succ_of_le hle

theorem pairwise_bucketIdx (boundaries values : List ℕ) :
    (values.insertionSort (· ≤ ·)).Pairwise fun a b =>
      bucketIdx boundaries a ≤ bucketIdx boundaries b :=
  (List.pairwise_insertionSort (· ≤ ·) values).imp (bucketIdx_mono boundaries)

/-- How many values lie in a bucket. -/
def countIn (boundaries values : List ℕ) (i : ℕ) : ℕ :=
  values.countP fun value => decide (bucketIdx boundaries value = i)

/-- How many values lie in a bucket or in one below it. -/
def countUpTo (boundaries values : List ℕ) (i : ℕ) : ℕ :=
  values.countP fun value => decide (bucketIdx boundaries value < i + 1)

/-- **The loop finds the bucket of the value of the rank.** -/
theorem locate_recorded (boundaries : Boundaries) {target value : ℕ} (hpos : 1 ≤ target)
    (hvalue : (values.insertionSort (· ≤ ·))[target - 1]? = some value) :
    locate target 0 0 (recorded boundaries values).buckets =
        some (bucketIdx boundaries.1 value, countUpTo boundaries.1 values
          (bucketIdx boundaries.1 value), countIn boundaries.1 values
          (bucketIdx boundaries.1 value)) ∧
      target ≤ countUpTo boundaries.1 values (bucketIdx boundaries.1 value) ∧
      countUpTo boundaries.1 values (bucketIdx boundaries.1 value) <
        target + countIn boundaries.1 values (bucketIdx boundaries.1 value) := by
  have hlt : target - 1 < values.length := by
    have := (List.getElem?_eq_some_iff.mp hvalue).1
    rwa [List.length_insertionSort] at this
  -- the value stands before the count of the buckets up to its own, and of no smaller one
  have hrank : ∀ bound, target - 1 < values.countP (fun value =>
      decide (bucketIdx boundaries.1 value ≤ bound)) ↔ bucketIdx boundaries.1 value ≤ bound := by
    intro bound
    rw [← (List.perm_insertionSort (· ≤ ·) values).countP_eq]
    exact Ranks.lt_countP_iff (pairwise_bucketIdx boundaries.1 values) hvalue bound
  cases hlocate : locate target 0 0 (recorded boundaries values).buckets with
  | none =>
      have hsum := locate_eq_none hlocate hpos
      rw [sum_counts] at hsum
      omega
  | some found =>
      obtain ⟨i, total, count⟩ := found
      obtain ⟨k, rfl, hcount, htotal, hbefore, hreach⟩ := locate_eq_some hlocate hpos
      rw [Nat.zero_add] at htotal hbefore ⊢
      have hk : k < boundaries.1.length + 1 := by
        have := (List.getElem?_eq_some_iff.mp hcount).1
        rwa [length_eq, boundaries_recorded] at this
      rw [buckets_recorded, List.getElem?_map, List.getElem?_range hk, Option.map_some,
        Option.some.injEq] at hcount
      rw [sum_take_counts values hk.le] at htotal hbefore
      have hupTo : countUpTo boundaries.1 values k = total := by
        rw [countUpTo, Ranks.countP_lt_succ, htotal, hcount]
      have hle : bucketIdx boundaries.1 value ≤ k := by
        apply (hrank k).mp
        simp only [← Nat.lt_succ_iff]
        show target - 1 < countUpTo boundaries.1 values k
        omega
      have hge : k ≤ bucketIdx boundaries.1 value := by
        by_contra hsmaller
        have hfirst := (hrank (k - 1)).mpr (by omega)
        simp only [← Nat.lt_succ_iff, Nat.succ_eq_add_one, Nat.sub_add_cancel
          (Nat.one_le_of_lt (Nat.lt_of_not_le hsmaller))] at hfirst
        omega
      obtain rfl := Nat.le_antisymm hle hge
      refine ⟨by rw [hupTo, ← hcount]; rfl, by omega, ?_⟩
      rw [hupTo, htotal, countIn, hcount]
      omega

/-- The percentile of a rank: the interpolation in the bucket of the value of that rank. -/
def percentileAt (boundaries : Boundaries) (values : List ℕ) (target i : ℕ) : ℕ :=
  let s := (recorded boundaries values).snapshot
  interpolate (s.lower i) (s.upper i - s.lower i) (countUpTo boundaries.1 values i - target)
    (countIn boundaries.1 values i)

theorem lower_le_upper {value : ℕ} (hmem : value ∈ values) :
    (recorded boundaries values).snapshot.lower (bucketIdx boundaries.1 value) ≤
      (recorded boundaries values).snapshot.upper (bucketIdx boundaries.1 value) :=
  (lower_le_value value).trans (value_le_upper hmem)

theorem percentile_recorded {p : ℚ} {value : ℕ} (hmem : value ∈ values)
    (hvalue : (values.insertionSort (· ≤ ·))[rank p values.length - 1]? = some value) :
    (recorded boundaries values).snapshot.percentile p =
      some (percentileAt boundaries values (rank p values.length)
        (bucketIdx boundaries.1 value)) := by
  obtain ⟨hlocate, hreach, hbefore⟩ := locate_recorded boundaries
    (one_le_rank p values.length) hvalue
  have htotal : (recorded boundaries values).snapshot.totalCount = values.length := count_recorded
  have hpos := List.length_pos_of_mem hmem
  unfold HistogramSnapshot.percentile
  rw [htotal, if_neg (by omega)]
  have hcounts : (recorded boundaries values).snapshot.counts =
      (recorded boundaries values).buckets := rfl
  simp only [hcounts, hlocate]
  rw [if_neg (by omega), checkedSub, if_pos hreach, checkedSub, if_pos (lower_le_upper hmem)]
  rfl

/-- The bounds of the bucket are those of the percentile. -/
theorem percentileAt_bounds {target value : ℕ} (hmem : value ∈ values)
    (hbefore : countUpTo boundaries.1 values (bucketIdx boundaries.1 value) <
        target + countIn boundaries.1 values (bucketIdx boundaries.1 value)) :
    (recorded boundaries values).snapshot.lower (bucketIdx boundaries.1 value) ≤
        percentileAt boundaries values target (bucketIdx boundaries.1 value) ∧
      percentileAt boundaries values target (bucketIdx boundaries.1 value) ≤
        (recorded boundaries values).snapshot.upper (bucketIdx boundaries.1 value) := by
  constructor
  · exact le_interpolate (by omega)
  · calc percentileAt boundaries values target (bucketIdx boundaries.1 value)
        ≤ _ + (_ - _) := interpolate_le _ _ _ _
      _ = _ := Nat.add_sub_cancel' (lower_le_upper hmem)

/-- A bucket ends before a later one begins. -/
theorem upper_le_lower {i j : ℕ} (hij : i < j) (hj : j ≤ boundaries.1.length) :
    (recorded boundaries values).snapshot.upper i ≤
      (recorded boundaries values).snapshot.lower j := by
  have hi : i < boundaries.1.length := by omega
  have hj' : j - 1 < boundaries.1.length := by omega
  unfold HistogramSnapshot.upper HistogramSnapshot.lower
  rw [if_neg (by omega)]
  show ((recorded boundaries values).boundaries.1[i]?).getD _ ≤
    ((recorded boundaries values).boundaries.1[j - 1]?).getD 0
  rw [boundaries_recorded, List.getElem?_eq_getElem hi, List.getElem?_eq_getElem hj']
  rcases Nat.lt_or_ge i (j - 1) with hlt | hge
  · exact (List.pairwise_iff_getElem.mp boundaries.2 i (j - 1) hi hj' hlt).le
  · have heq : i = j - 1 := by omega
    subst heq
    exact Nat.le_refl _

/-- **Percentiles are where the values are.** -/
theorem percentile_brackets (boundaries : Boundaries) (values : List ℕ) :
    (recorded boundaries values).snapshot.Faithful values := by
  have hexists : values ≠ [] → ∀ p : ℚ, p ≤ 100 → ∃ value ∈ values,
      (values.insertionSort (· ≤ ·))[rank p values.length - 1]? = some value := by
    intro hne p hp
    have hpos := List.length_pos_iff.mpr hne
    have hlt : rank p values.length - 1 < (values.insertionSort (· ≤ ·)).length := by
      rw [List.length_insertionSort]
      have := rank_le hp hpos
      omega
    exact ⟨_, (List.mem_insertionSort (· ≤ ·)).mp (List.getElem_mem hlt),
      List.getElem?_eq_getElem hlt⟩
  refine ⟨?_, count_recorded, max_recorded.1, max_recorded.2, ?_, ?_⟩
  · show (recorded boundaries values).buckets.sum = (recorded boundaries values).count
    rw [sum_counts, count_recorded]
  · intro p q hp hpq hq
    by_cases hne : values = []
    · subst hne
      exact ⟨0, 0, rfl, rfl, Nat.le_refl 0⟩
    obtain ⟨value, hmem, hvalue⟩ := hexists hne p (hpq.trans hq)
    obtain ⟨value', hmem', hvalue'⟩ := hexists hne q hq
    refine ⟨_, _, percentile_recorded hmem hvalue, percentile_recorded hmem' hvalue', ?_⟩
    obtain ⟨-, hreach, hbefore⟩ := locate_recorded boundaries
      (one_le_rank p values.length) hvalue
    obtain ⟨-, hreach', hbefore'⟩ := locate_recorded boundaries
      (one_le_rank q values.length) hvalue'
    have hrank := rank_mono hpq values.length
    have hbuckets : bucketIdx boundaries.1 value ≤ bucketIdx boundaries.1 value' := by
      obtain ⟨hi, hget⟩ := List.getElem?_eq_some_iff.mp hvalue
      obtain ⟨hj, hget'⟩ := List.getElem?_eq_some_iff.mp hvalue'
      rcases Nat.lt_or_eq_of_le (Nat.sub_le_sub_right hrank 1) with hlt | heq
      · rw [← hget, ← hget']
        exact List.pairwise_iff_getElem.mp (pairwise_bucketIdx boundaries.1 values) _ _ hi hj hlt
      · rw [heq, hvalue'] at hvalue
        rw [Option.some.inj hvalue]
    rcases Nat.lt_or_eq_of_le hbuckets with hlt | heq
    · -- two buckets, and the boundary between them
      calc percentileAt boundaries values _ (bucketIdx boundaries.1 value)
          ≤ _ := (percentileAt_bounds hmem hbefore).2
        _ ≤ _ := upper_le_lower hlt (bucketIdx_le _ _)
        _ ≤ _ := (percentileAt_bounds hmem' hbefore').1
    · rw [heq]
      apply interpolate_antitone
      omega
  · intro hne p hp0 hp
    obtain ⟨value, hmem, hvalue⟩ := hexists hne p hp
    obtain ⟨-, hreach, hbefore⟩ := locate_recorded boundaries
      (one_le_rank p values.length) hvalue
    have hboundaries : (recorded boundaries values).snapshot.boundaries = boundaries :=
      boundaries_recorded
    rw [hboundaries]
    obtain ⟨hlower, hupper⟩ := percentileAt_bounds hmem hbefore
    exact ⟨value, _, hvalue, percentile_recorded hmem hvalue, hlower, hupper, lower_le_value value,
      value_le_upper hmem⟩

/-- Half of four values lie below twenty, and so does the fiftieth percentile. -/
theorem median_of_four : ∃ value x,
    ([40, 5, 15, 12].insertionSort (· ≤ ·))[rank 50 4 - 1]? = some value ∧
      (recorded ⟨[10, 20, 30], by decide⟩ [40, 5, 15, 12]).snapshot.percentile 50 = some x ∧
      10 ≤ x ∧ x ≤ 20 := by
  obtain ⟨value, x, hvalue, hx, hlower, hupper, -, -⟩ :=
    (percentile_brackets ⟨[10, 20, 30], by decide⟩ [40, 5, 15, 12]).bracketed (by decide) 50
      (by norm_num) (by norm_num)
  have hget : ([40, 5, 15, 12].insertionSort (· ≤ ·))[rank 50 4 - 1]? = some 12 := by decide +kernel
  obtain rfl := Option.some.inj (hget.symm.trans hvalue)
  exact ⟨12, x, hvalue, hx, hlower, hupper⟩

end Percentiles

end Torvyn.Observability
