/-
# Snapshots of a histogram that is written

`record` and `snapshot` of `metrics/histogram.rs` by their atomic steps, in any order.  A snapshot
loads the counts of the buckets first and the maximum last, and a call of `record` changes them in
that order too, so a snapshot may have counted a value in the last bucket and not have seen it in
the maximum.  Then the boundary of that bucket is greater than the maximum, and the width of the
bucket underflows.
-/
import Torvyn.Data.GuardedRun
import Torvyn.Observability.Histogram

namespace Torvyn.Observability

/-! ## The calls, step by step -/

/-- A call of `record`, by what it does next. -/
inductive RecordCall where
  | bucket (value : ℕ)
  | sum (value : ℕ)
  | count (value : ℕ)
  | loadMin (value : ℕ)
  /-- the minimum last seen is exchanged for the value -/
  | exchangeMin (value current : ℕ)
  | loadMax (value : ℕ)
  /-- the maximum last seen is exchanged for the value -/
  | exchangeMax (value current : ℕ)
  | returned (value : ℕ)
  deriving DecidableEq

/-- The call of `snapshot`, by what it loads next. -/
inductive SnapshotCall where
  | buckets (counts : List ℕ)
  | count (counts : List ℕ)
  | sum (counts : List ℕ) (totalCount : ℕ)
  | min (counts : List ℕ) (totalCount sum : ℕ)
  | max (counts : List ℕ) (totalCount sum min : ℕ)
  | returned (snapshot : HistogramSnapshot)
  deriving DecidableEq

/-- A histogram with the calls that have been made. -/
structure SharedHistogram where
  histogram : Histogram
  calls : List RecordCall
  snapshot : SnapshotCall

/-- What happens next: a thread makes a call, a call takes a step, or the snapshot does. -/
inductive HistogramAction where
  | record (value : ℕ)
  | advance (call : ℕ) (spurious : Bool)
  | load

/-- The loop for the minimum, when it has seen a value. -/
def minSeen (value current : ℕ) : RecordCall :=
  if value < current then .exchangeMin value current else .loadMax value

/-- The loop for the maximum, when it has seen a value. -/
def maxSeen (value current : ℕ) : RecordCall :=
  if current < value then .exchangeMax value current else .returned value

/-- A call of `record` takes its next step.  A weak exchange may fail for no reason. -/
def Histogram.advance (h : Histogram) (spurious : Bool) : RecordCall → Histogram × RecordCall
  | .bucket value => (h.addBucket value, .sum value)
  | .sum value => (h.addSum value, .count value)
  | .count value => (h.addCount, .loadMin value)
  | .loadMin value => (h, minSeen value h.min)
  | .exchangeMin value current =>
      if h.min = current ∧ spurious = false then ({ h with min := value }, .loadMax value)
      else (h, minSeen value h.min)
  | .loadMax value => (h, maxSeen value h.max)
  | .exchangeMax value current =>
      if h.max = current ∧ spurious = false then ({ h with max := value }, .returned value)
      else (h, maxSeen value h.max)
  | .returned value => (h, .returned value)

/-- The snapshot takes its next step. -/
def Histogram.load (h : Histogram) : SnapshotCall → SnapshotCall
  | .buckets counts =>
      match h.buckets[counts.length]? with
      | some count => .buckets (counts ++ [count])
      | none => .count counts
  | .count counts => .sum counts h.count
  | .sum counts totalCount => .min counts totalCount h.sum
  | .min counts totalCount sum => .max counts totalCount sum h.min
  | .max counts totalCount sum min =>
      .returned ⟨h.boundaries, counts, totalCount, sum, min, h.max⟩
  | .returned snapshot => .returned snapshot

namespace SharedHistogram

/-- One action. -/
def step (s : SharedHistogram) : HistogramAction → SharedHistogram
  | .record value => { s with calls := s.calls ++ [.bucket value] }
  | .advance i spurious =>
      match s.calls[i]? with
      | none => s
      | some call =>
          let (histogram, call') := s.histogram.advance spurious call
          { s with histogram := histogram, calls := s.calls.set i call' }
  | .load => { s with snapshot := s.histogram.load s.snapshot }

/-- A histogram without values, and a snapshot that has loaded nothing. -/
def start (boundaries : Boundaries) : SharedHistogram := ⟨.new boundaries, [], .buckets []⟩

/-- A sequence of actions. -/
def run (boundaries : Boundaries) (actions : List HistogramAction) : SharedHistogram :=
  actions.foldl step (start boundaries)

end SharedHistogram

/-! ## Snapshots that are safe -/

namespace HistogramSnapshot

/-- The bucket that a percentile falls in, with the cumulative count and its own. -/
def found (s : HistogramSnapshot) (p : ℚ) : Option (ℕ × ℕ × ℕ) :=
  if s.totalCount = 0 then none else locate (rank p s.totalCount) 0 0 s.counts

/-- Every percentile can be computed, and lies above the lower boundary of its bucket. -/
def Safe (s : HistogramSnapshot) : Prop :=
  ∀ p, 0 ≤ p → p ≤ 100 → ∃ x, s.percentile p = some x ∧
    ∀ i cumulative count, s.found p = some (i, cumulative, count) → s.lower i ≤ x

/-- The snapshot has counted values in the last bucket, for some percentiles to fall in. -/
def ReachesLast (counts : List ℕ) (totalCount : ℕ) : Prop :=
  0 < counts.getLast?.getD 0 ∧ counts.dropLast.sum < totalCount

instance (counts : List ℕ) (totalCount : ℕ) : Decidable (ReachesLast counts totalCount) :=
  inferInstanceAs (Decidable (_ ∧ _))

/-- The greatest of the boundaries. -/
def lastBoundary (boundaries : Boundaries) : ℕ := boundaries.1.getLast?.getD 0

variable {s : HistogramSnapshot}

theorem lower_le_upper_of_lt {i : ℕ} (hi : i < s.boundaries.1.length) : s.lower i ≤ s.upper i := by
  unfold lower upper
  split_ifs with hzero
  · exact Nat.zero_le _
  · have hi' : i - 1 < s.boundaries.1.length := by omega
    rw [List.getElem?_eq_getElem hi, List.getElem?_eq_getElem hi']
    exact (List.pairwise_iff_getElem.mp s.boundaries.2 (i - 1) i hi' hi (by omega)).le

theorem lower_length : s.lower s.boundaries.1.length = lastBoundary s.boundaries := by
  unfold lower lastBoundary
  rw [List.getLast?_eq_getElem?]
  split_ifs with hzero
  · rw [List.getElem?_eq_none (by omega)]
    rfl
  · rfl

theorem upper_length : s.upper s.boundaries.1.length = s.max := by
  unfold upper
  rw [List.getElem?_eq_none (Nat.le_refl _)]
  rfl

/-- The percentile of a target that lies among the values. -/
theorem rank_of_target {target total : ℕ} (hpos : 1 ≤ target) (hle : target ≤ total) :
    rank (100 * target / total) total = target ∧ (100 * target / total : ℚ) ≤ 100 := by
  have htotal : (0 : ℚ) < total := by exact_mod_cast lt_of_lt_of_le hpos hle
  constructor
  · have hproduct : (100 * target / total : ℚ) / 100 * total = target := by field_simp
    rw [rank, hproduct, Nat.ceil_natCast]
    exact Nat.max_eq_left hpos
  · rw [div_le_iff₀ htotal]
    have : (target : ℚ) ≤ total := by exact_mod_cast hle
    linarith

/-- A target beyond the other counts is found in the last bucket. -/
theorem locate_concat {target cumulative last : ℕ} {counts : List ℕ} (start : ℕ)
    (hbeyond : cumulative + counts.sum < target)
    (hreach : target ≤ cumulative + counts.sum + last) :
    locate target start cumulative (counts ++ [last]) =
      some (start + counts.length, cumulative + counts.sum + last, last) := by
  induction counts generalizing start cumulative with
  | nil =>
      rw [List.sum_nil, Nat.add_zero] at hreach
      simp [locate, hreach]
  | cons first counts ih =>
      rw [List.sum_cons, ← Nat.add_assoc] at hbeyond hreach
      rw [List.cons_append, locate, if_neg (by omega), ih (start + 1) hbeyond hreach,
        List.length_cons, List.sum_cons, Nat.add_right_comm start, Nat.add_assoc start, Nat.add_assoc cumulative]

/-- What is found has a count, and is the bucket of its cumulative count. -/
theorem found_spec {p : ℚ} {i cumulative count : ℕ} (h : s.found p = some (i, cumulative, count)) :
    s.totalCount ≠ 0 ∧ locate (rank p s.totalCount) 0 0 s.counts = some (i, cumulative, count) ∧
      s.counts[i]? = some count ∧ 0 < count ∧ rank p s.totalCount ≤ cumulative ∧
      cumulative < rank p s.totalCount + count ∧
      (s.counts.take i).sum < rank p s.totalCount := by
  unfold found at h
  split_ifs at h with htotal
  obtain ⟨k, rfl, hcount, hcumulative, hbefore, hreach⟩ :=
    locate_eq_some h (one_le_rank p s.totalCount)
  rw [Nat.zero_add] at h hcumulative hbefore ⊢
  exact ⟨htotal, h, hcount, by omega, hreach, by omega, hbefore⟩

/-- The percentile that falls in a bucket, if its width does not underflow. -/
theorem percentile_of_found {p : ℚ} {i cumulative count : ℕ}
    (h : s.found p = some (i, cumulative, count)) : s.percentile p =
      (checkedSub (s.upper i) (s.lower i)).map fun width =>
        interpolate (s.lower i) width (cumulative - rank p s.totalCount) count := by
  obtain ⟨htotal, hlocate, -, hpos, hreach, -, -⟩ := found_spec h
  unfold percentile
  rw [if_neg htotal]
  simp only [hlocate]
  rw [if_neg (by omega), checkedSub, if_pos hreach, Option.bind_eq_bind, Option.bind_some]
  cases checkedSub (s.upper i) (s.lower i) with
  | none => rfl
  | some width => rfl

/-- A percentile that falls in no bucket can be computed. -/
theorem percentile_of_not_found {p : ℚ} (h : s.found p = none) :
    ∃ x, s.percentile p = some x := by
  unfold found at h
  unfold percentile
  split_ifs at h ⊢ with htotal
  · exact ⟨0, rfl⟩
  · simp only [h]
    exact ⟨s.max, rfl⟩

/-- **A snapshot is safe** unless a percentile falls in its last bucket and its maximum lies below
the boundary of that bucket. -/
theorem safe_iff (hlength : s.counts.length = s.boundaries.1.length + 1) :
    s.Safe ↔ ¬(ReachesLast s.counts s.totalCount ∧ s.max < lastBoundary s.boundaries) := by
  obtain ⟨counts, last, hcounts⟩ : ∃ counts last, s.counts = counts ++ [last] :=
    (List.eq_nil_or_concat' s.counts).resolve_left (List.ne_nil_of_length_eq_add_one hlength)
  have hinit : counts.length = s.boundaries.1.length := by
    rw [hcounts, List.length_append, List.length_singleton] at hlength
    omega
  rw [ReachesLast, hcounts, List.getLast?_concat, Option.getD_some, List.dropLast_concat]
  constructor
  · rintro hsafe ⟨⟨hpos, hbeyond⟩, hlt⟩
    -- the percentile of the first value in the last bucket
    obtain ⟨hrank, hle⟩ := rank_of_target (Nat.succ_pos counts.sum) (Nat.succ_le_of_lt hbeyond)
    obtain ⟨x, hx, -⟩ := hsafe _ (by positivity) hle
    have hfound : s.found (100 * (counts.sum + 1 : ℕ) / s.totalCount) =
        some (s.boundaries.1.length, counts.sum + last, last) := by
      have hlocate : locate (counts.sum + 1) 0 0 (counts ++ [last]) =
          some (0 + counts.length, 0 + counts.sum + last, last) :=
        locate_concat 0 (by omega) (by omega)
      rw [Nat.zero_add, Nat.zero_add, hinit] at hlocate
      rw [found, if_neg (by omega), hrank, hcounts, hlocate]
    rw [percentile_of_found hfound, upper_length, lower_length, checkedSub, if_neg (by omega)] at hx
    cases hx
  · intro hsound p _ hp
    cases hfound : s.found p with
    | none =>
        obtain ⟨x, hx⟩ := percentile_of_not_found hfound
        exact ⟨x, hx, fun i cumulative count h => by cases h⟩
    | some bucket =>
        obtain ⟨i, cumulative, count⟩ := bucket
        obtain ⟨htotal, -, hcount, hpos, hreach, hwithin, hbefore⟩ := found_spec hfound
        have hwidth : s.lower i ≤ s.upper i := by
          have hi : i < s.counts.length := (List.getElem?_eq_some_iff.mp hcount).1
          rcases Nat.lt_or_eq_of_le (Nat.le_of_lt_succ (lt_of_lt_of_eq hi hlength)) with hlt | rfl
          · exact lower_le_upper_of_lt hlt
          · rw [lower_length, upper_length]
            by_contra hnot
            rw [hcounts, ← hinit, List.getElem?_concat_length] at hcount
            rw [hcounts, ← hinit, List.take_left'] at hbefore
            · have := rank_le hp (Nat.pos_of_ne_zero htotal)
              obtain rfl := Option.some.inj hcount
              exact hsound ⟨⟨hpos, by omega⟩, by omega⟩
            · rfl
        refine ⟨_, by rw [percentile_of_found hfound, checkedSub, if_pos hwidth]; rfl, ?_⟩
        intro i' cumulative' count' h
        obtain ⟨rfl, rfl, rfl⟩ : i = i' ∧ cumulative = cumulative' ∧ count = count' := by
          simpa using h
        exact le_interpolate (by omega)

end HistogramSnapshot

namespace SharedHistogram

open HistogramSnapshot

/-- The value of a call that has returned. -/
def returned? : RecordCall → Option ℕ
  | .returned value => some value
  | _ => none

/-- The values whose calls have returned lie below the last boundary. -/
def Below (boundaries : Boundaries) (calls : List RecordCall) : Prop :=
  0 < lastBoundary boundaries ∧ ∀ value ∈ calls.filterMap returned?, value < lastBoundary boundaries

instance (boundaries : Boundaries) (calls : List RecordCall) : Decidable (Below boundaries calls) :=
  inferInstanceAs (Decidable (_ ∧ _))

/-- The snapshot has counted values in the last bucket, and is about to load a maximum that no
value of that bucket has raised. -/
def Torn (boundaries : Boundaries) (calls : List RecordCall) : SnapshotCall → Prop
  | .max counts totalCount _ _ => ReachesLast counts totalCount ∧ Below boundaries calls
  | .buckets _ | .count _ | .sum _ _ | .min _ _ _ | .returned _ => False

instance (boundaries : Boundaries) (calls : List RecordCall) (call : SnapshotCall) :
    Decidable (Torn boundaries calls call) :=
  match call with
  | .max _ _ _ _ => inferInstanceAs (Decidable (_ ∧ _))
  | .buckets _ | .count _ | .sum _ _ | .min _ _ _ | .returned _ => isFalse id

/-- The action loads a torn maximum. -/
def LoadsTorn (boundaries : Boundaries) (s : SharedHistogram) : HistogramAction → Prop
  | .load => Torn boundaries s.calls s.snapshot
  | .record _ | .advance _ _ => False

instance (boundaries : Boundaries) (s : SharedHistogram) (action : HistogramAction) :
    Decidable (LoadsTorn boundaries s action) :=
  match action with
  | .load => inferInstanceAs (Decidable (Torn _ _ _))
  | .record _ | .advance _ _ => isFalse id

/-- How many counts a snapshot has loaded. -/
def Loaded (boundaries : Boundaries) : SnapshotCall → Prop
  | .buckets counts => counts.length ≤ boundaries.1.length + 1
  | .count counts | .sum counts _ | .min counts _ _ | .max counts _ _ _ =>
      counts.length = boundaries.1.length + 1
  | .returned snapshot =>
      snapshot.boundaries = boundaries ∧ snapshot.counts.length = boundaries.1.length + 1

/-- In every order of steps: the maximum is that of the values whose calls have returned. -/
structure Recording (boundaries : Boundaries) (s : SharedHistogram) : Prop where
  boundaries_eq : s.histogram.boundaries = boundaries
  le_max : ∀ value, .returned value ∈ s.calls → value ≤ s.histogram.max
  max_mem : s.histogram.max = 0 ∨ .returned s.histogram.max ∈ s.calls
  ascending : ∀ value current, .exchangeMax value current ∈ s.calls → current < value
  loaded : Loaded boundaries s.snapshot

variable {boundaries : Boundaries} {s : SharedHistogram}

theorem maxSeen_eq_returned {value current value' : ℕ}
    (h : maxSeen value current = .returned value') : value = value' ∧ value ≤ current := by
  unfold maxSeen at h
  split_ifs at h with hlt
  cases h
  exact ⟨rfl, Nat.le_of_not_lt hlt⟩

theorem maxSeen_eq_exchange {value current value' current' : ℕ}
    (h : maxSeen value current = .exchangeMax value' current') : current' < value' := by
  unfold maxSeen at h
  split_ifs at h with hlt
  cases h
  exact hlt

theorem minSeen_cases (value current : ℕ) :
    minSeen value current = .exchangeMin value current ∨
      minSeen value current = .loadMax value := by
  unfold minSeen
  split_ifs
  · exact .inl rfl
  · exact .inr rfl

/-- What a call of `record` does to the maximum in one step. -/
structure Advances (h h' : Histogram) (call call' : RecordCall) : Prop where
  boundaries_eq : h'.boundaries = h.boundaries
  max_le : h.max ≤ h'.max
  returns_le : ∀ value, call' = .returned value → value ≤ h'.max
  max_eq : h'.max = h.max ∨ call' = .returned h'.max
  ascends : ∀ value current, call' = .exchangeMax value current → current < value
  keeps : ∀ value, call = .returned value → call' = .returned value

/-- A step that has nothing to do with the maximum. -/
theorem Advances.quiet {h h' : Histogram} {call call' : RecordCall}
    (hboundaries : h'.boundaries = h.boundaries) (hmax : h'.max = h.max)
    (hreturned : ∀ value, call ≠ .returned value) (hreturned' : ∀ value, call' ≠ .returned value)
    (hexchange : ∀ value current, call' ≠ .exchangeMax value current) :
    Advances h h' call call' :=
  ⟨hboundaries, hmax.ge, fun value heq => absurd heq (hreturned' value), .inl hmax,
    fun value current heq => absurd heq (hexchange value current),
    fun value heq => absurd heq (hreturned value)⟩

theorem advances_minSeen (h : Histogram) {call : RecordCall} (value current : ℕ)
    (hreturned : ∀ value, call ≠ .returned value) : Advances h h call (minSeen value current) := by
  apply Advances.quiet rfl rfl hreturned
  · intro value'
    rcases minSeen_cases value current with heq | heq
    · simp [heq]
    · simp [heq]
  · intro value' current'
    rcases minSeen_cases value current with heq | heq
    · simp [heq]
    · simp [heq]

theorem advances_maxSeen (h : Histogram) {call : RecordCall} (value : ℕ)
    (hreturned : ∀ value, call ≠ .returned value) : Advances h h call (maxSeen value h.max) := by
  refine ⟨rfl, Nat.le_refl _, ?_, .inl rfl, fun _ _ heq => maxSeen_eq_exchange heq,
    fun value heq => absurd heq (hreturned value)⟩
  intro value' heq
  obtain ⟨rfl, hle⟩ := maxSeen_eq_returned heq
  exact hle

/-- **One step of a call**: the maximum grows to the value of a call that returns, or stays. -/
theorem advances (h : Histogram) (spurious : Bool) {call : RecordCall}
    (hascends : ∀ value current, call = .exchangeMax value current → current < value)
    (hle : ∀ value, call = .returned value → value ≤ h.max) :
    Advances h (h.advance spurious call).1 call (h.advance spurious call).2 := by
  cases call with
  | bucket value => refine .quiet rfl rfl ?_ ?_ ?_ <;> simp [Histogram.advance]
  | sum value => refine .quiet rfl rfl ?_ ?_ ?_ <;> simp [Histogram.advance]
  | count value => refine .quiet rfl rfl ?_ ?_ ?_ <;> simp [Histogram.advance]
  | loadMin value => exact advances_minSeen h value h.min (by simp)
  | exchangeMin value current =>
      simp only [Histogram.advance]
      split_ifs
      · refine .quiet rfl rfl ?_ ?_ ?_ <;> simp
      · exact advances_minSeen h value h.min (by simp)
  | loadMax value => exact advances_maxSeen h value (by simp)
  | exchangeMax value current =>
      simp only [Histogram.advance]
      split_ifs with hcurrent
      · have hlt := hascends value current rfl
        refine ⟨rfl, ?_, ?_, .inr rfl, by simp, by simp⟩
        · show h.max ≤ value
          omega
        · rintro value' heq
          cases heq
          exact Nat.le_refl _
      · exact advances_maxSeen h value (by simp)
  | returned value =>
      exact ⟨rfl, Nat.le_refl _, hle, .inl rfl, by simp [Histogram.advance], fun _ heq => heq⟩

theorem Recording.start (boundaries : Boundaries) : Recording boundaries (start boundaries) :=
  ⟨rfl, nofun, .inl rfl, nofun, Nat.zero_le _⟩

theorem Loaded.load {h : Histogram} (hboundaries : h.boundaries = boundaries) {call : SnapshotCall}
    (hloaded : Loaded boundaries call) : Loaded boundaries (h.load call) := by
  have hlength := h.length_eq
  rw [hboundaries] at hlength
  cases call with
  | buckets counts =>
      have hle : counts.length ≤ boundaries.1.length + 1 := hloaded
      unfold Histogram.load
      simp only
      split
      · rename_i count hcount
        have hlt := (List.getElem?_eq_some_iff.mp hcount).1
        show (counts ++ [count]).length ≤ _
        rw [List.length_append, List.length_singleton]
        omega
      · rename_i hnone
        have hge := List.getElem?_eq_none_iff.mp hnone
        show counts.length = _
        omega
  | max counts totalCount sum min => exact ⟨hboundaries, hloaded⟩
  | _ => exact hloaded

/-- One action more. -/
theorem Recording.step (h : Recording boundaries s) (action : HistogramAction) :
    Recording boundaries (s.step action) := by
  cases action with
  | record value =>
      refine ⟨h.boundaries_eq, ?_, ?_, ?_, h.loaded⟩
      · intro value' hmem
        rcases List.mem_append.mp hmem with hold | hnew
        · exact h.le_max value' hold
        · cases List.mem_singleton.mp hnew
      · exact h.max_mem.imp id (List.mem_append_left _)
      · intro value' current hmem
        rcases List.mem_append.mp hmem with hold | hnew
        · exact h.ascending value' current hold
        · cases List.mem_singleton.mp hnew
  | advance i spurious =>
      unfold SharedHistogram.step
      simp only
      split
      · exact h
      · rename_i call hcall
        have hmem := List.mem_of_getElem? hcall
        have hadvances := advances s.histogram spurious
          (fun value current heq => h.ascending value current (heq ▸ hmem))
          (fun value heq => h.le_max value (heq ▸ hmem))
        -- a call that has returned stays in the list
        have hkeeps : ∀ value, .returned value ∈ s.calls →
            .returned value ∈ s.calls.set i (s.histogram.advance spurious call).2 := by
          intro value hvalue
          obtain ⟨j, hj⟩ := List.mem_iff_getElem?.mp hvalue
          by_cases hij : i = j
          · subst hij
            obtain rfl := Option.some.inj (hcall.symm.trans hj)
            rw [hadvances.keeps value rfl]
            exact List.mem_set (List.getElem?_eq_some_iff.mp hcall).1 _
          · exact List.mem_of_getElem? ((List.getElem?_set_ne hij).trans hj)
        refine ⟨hadvances.boundaries_eq.trans h.boundaries_eq, ?_, ?_, ?_, h.loaded⟩
        · intro value hvalue
          rcases List.mem_or_eq_of_mem_set hvalue with hold | hnew
          · exact (h.le_max value hold).trans hadvances.max_le
          · exact hadvances.returns_le value hnew.symm
        · rcases hadvances.max_eq with hsame | hreturned
          · show _ = 0 ∨ _ ∈ s.calls.set i _
            rw [hsame]
            exact h.max_mem.imp id (hkeeps _)
          · right
            show _ ∈ s.calls.set i _
            rw [hreturned]
            exact List.mem_set (List.getElem?_eq_some_iff.mp hcall).1 _
        · intro value current hvalue
          rcases List.mem_or_eq_of_mem_set hvalue with hold | hnew
          · exact h.ascending value current hold
          · exact hadvances.ascends value current hnew.symm
  | load => exact ⟨h.boundaries_eq, h.le_max, h.max_mem, h.ascending, h.loaded.load h.boundaries_eq⟩

theorem recording_run (boundaries : Boundaries) (actions : List HistogramAction) :
    Recording boundaries (run boundaries actions) := by
  induction actions using List.reverseRecOn with
  | nil => exact .start boundaries
  | append_singleton actions action ih =>
      rw [run, List.foldl_append]
      exact ih.step action

/-- The maximum lies below the last boundary exactly if the values do whose calls have returned. -/
theorem Recording.max_lt_iff (h : Recording boundaries s) :
    s.histogram.max < lastBoundary boundaries ↔ Below boundaries s.calls := by
  constructor
  · intro hlt
    refine ⟨by omega, fun value hvalue => ?_⟩
    obtain ⟨call, hcall, heq⟩ := List.mem_filterMap.mp hvalue
    unfold returned? at heq
    split at heq
    · cases heq
      exact lt_of_le_of_lt (h.le_max value hcall) hlt
    · cases heq
  · rintro ⟨hpos, hall⟩
    rcases h.max_mem with hzero | hmem
    · omega
    · exact hall _ (List.mem_filterMap.mpr ⟨_, hmem, rfl⟩)

/-- The snapshot as far as the run has come: it is safe if it never was to load a torn maximum, and
until then it never was. -/
def Sound (boundaries : Boundaries) (actions : List HistogramAction) : SnapshotCall → Prop
  | .returned snapshot => snapshot.Safe ↔
      Guarded step (fun s action => ¬LoadsTorn boundaries s action) (start boundaries) actions
  | _ => Guarded step (fun s action => ¬LoadsTorn boundaries s action) (start boundaries) actions

theorem Sound.congr {actions actions' : List HistogramAction} {call : SnapshotCall}
    (h : Sound boundaries actions call)
    (hiff : Guarded step (fun s action => ¬LoadsTorn boundaries s action) (start boundaries)
        actions' ↔
      Guarded step (fun s action => ¬LoadsTorn boundaries s action) (start boundaries) actions) :
    Sound boundaries actions' call := by
  cases call with
  | returned snapshot => exact Iff.trans h hiff.symm
  | _ => exact hiff.mpr h

theorem snapshot_advance (s : SharedHistogram) (i : ℕ) (spurious : Bool) :
    (s.step (.advance i spurious)).snapshot = s.snapshot := by
  simp only [step]
  split
  · rfl
  · rfl

theorem sound_run (boundaries : Boundaries) (actions : List HistogramAction) :
    Sound boundaries actions (run boundaries actions).snapshot := by
  induction actions using List.reverseRecOn with
  | nil => trivial
  | append_singleton actions action ih =>
      have hrecording := recording_run boundaries actions
      have hrun : run boundaries (actions ++ [action]) = (run boundaries actions).step action := by
        rw [run, List.foldl_append]
        rfl
      have hguarded : Guarded step (fun s action => ¬LoadsTorn boundaries s action)
          (start boundaries) (actions ++ [action]) ↔
          Guarded step (fun s action => ¬LoadsTorn boundaries s action) (start boundaries) actions ∧
            ¬LoadsTorn boundaries (run boundaries actions) action := by
        rw [Guarded.append_iff]
        exact and_congr_right fun _ => and_iff_left trivial
      have hquiet : ¬LoadsTorn boundaries (run boundaries actions) action →
          (Guarded step (fun s action => ¬LoadsTorn boundaries s action) (start boundaries)
            (actions ++ [action]) ↔
          Guarded step (fun s action => ¬LoadsTorn boundaries s action) (start boundaries)
            actions) := by
        intro hnot
        rw [hguarded]
        exact and_iff_left hnot
      rw [hrun]
      cases action with
      | record value => exact ih.congr (hquiet id)
      | advance i spurious =>
          rw [snapshot_advance]
          exact ih.congr (hquiet id)
      | load =>
          have hload : ((run boundaries actions).step .load).snapshot =
              (run boundaries actions).histogram.load (run boundaries actions).snapshot := rfl
          have hloaded := hrecording.loaded
          rw [hload]
          have htorn : LoadsTorn boundaries (run boundaries actions) .load ↔
              Torn boundaries (run boundaries actions).calls (run boundaries actions).snapshot :=
            Iff.rfl
          rw [htorn] at hquiet hguarded
          cases hsnapshot : (run boundaries actions).snapshot with
          | returned snapshot =>
              rw [hsnapshot] at ih hquiet
              exact ih.congr (hquiet id)
          | max counts totalCount sum min =>
              -- the last load is the only one that can be torn
              rw [hsnapshot] at ih hloaded hguarded
              have hguard : Guarded step (fun s action => ¬LoadsTorn boundaries s action)
                (start boundaries) actions := ih
              show HistogramSnapshot.Safe _ ↔ _
              rw [hguarded, and_iff_right hguard, Torn, ← hrecording.max_lt_iff]
              simp only [hrecording.boundaries_eq]
              exact safe_iff hloaded
          | buckets counts =>
              rw [hsnapshot] at ih hquiet
              have hguard := (hquiet id).mpr ih
              simp only [Histogram.load]
              split
              · exact hguard
              · exact hguard
          | count counts =>
              rw [hsnapshot] at ih hquiet
              exact (hquiet id).mpr ih
          | sum counts totalCount =>
              rw [hsnapshot] at ih hquiet
              exact (hquiet id).mpr ih
          | min counts totalCount sum =>
              rw [hsnapshot] at ih hquiet
              exact (hquiet id).mpr ih

/-- **Exactly when a snapshot is safe**: in the runs in which it does not load a maximum that lies
behind the values that it has counted. -/
theorem snapshot_safe_iff (boundaries : Boundaries) (actions : List HistogramAction)
    {snapshot : HistogramSnapshot}
    (hreturned : (run boundaries actions).snapshot = .returned snapshot) :
    snapshot.Safe ↔
      Guarded step (fun s action => ¬LoadsTorn boundaries s action) (start boundaries) actions := by
  have hsound := sound_run boundaries actions
  rw [hreturned] at hsound
  exact hsound

/-! ## A value that is counted and not yet the maximum -/

/-- A call of `record` that gets as far as the count. -/
def counted (value : ℕ) : List HistogramAction :=
  [.record value, .advance 0 false, .advance 0 false, .advance 0 false]

/-- All loads of a snapshot of two buckets. -/
def loads : List HistogramAction := List.replicate 7 .load

/-- The snapshot has the value in its last bucket, from 10 to the maximum of 0. -/
theorem torn_snapshot_underflows : ∃ snapshot,
    (run ⟨[10], by decide⟩ (counted 11 ++ loads)).snapshot = .returned snapshot ∧
      snapshot.counts = [0, 1] ∧ snapshot.totalCount = 1 ∧ snapshot.max = 0 ∧
      snapshot.percentile 50 = none ∧ ¬snapshot.Safe := by
  refine ⟨_, rfl, rfl, rfl, rfl, by decide +kernel, fun hsafe => ?_⟩
  obtain ⟨x, hx, -⟩ := hsafe 50 (by norm_num) (by norm_num)
  have hnone : HistogramSnapshot.percentile ⟨⟨[10], by decide⟩, [0, 1], 1, 11, 2 ^ 64 - 1, 0⟩ 50 =
      none := by decide +kernel
  cases hnone.symm.trans hx

/-- When the value has become the maximum, the snapshot is safe. -/
theorem snapshot_after_record : ∃ snapshot,
    (run ⟨[10], by decide⟩ (counted 11 ++ List.replicate 4 (.advance 0 false) ++ loads)).snapshot =
      .returned snapshot ∧ snapshot.max = 11 ∧ snapshot.Safe := by
  have hreturned : (run ⟨[10], by decide⟩
      (counted 11 ++ List.replicate 4 (.advance 0 false) ++ loads)).snapshot =
      .returned ⟨⟨[10], by decide⟩, [0, 1], 1, 11, 11, 11⟩ := by decide
  exact ⟨_, hreturned, rfl, (snapshot_safe_iff _ _ hreturned).mpr (by decide)⟩

end SharedHistogram

end Torvyn.Observability
