/-
# The metrics of a stream

`elementsTotal` is counted beside the queue and not by it.  A source counts an element only when
its push has been accepted, a processing stage counts each of its outputs.  `metrics_conserved_iff`
says when the count is the number of elements that have really been enqueued, which is the
number of those popped, evicted and still queued.
-/
import Torvyn.Reactor.Record

namespace Torvyn.Reactor

/-- The count of the stream of index `si`. -/
def totalAt (streams : List StreamState) (si : ℕ) : ℕ :=
  (streams[si]?.map (·.metrics.elementsTotal)).getD 0

theorem totalAt_eq {streams : List StreamState} {si : ℕ} {s : StreamState}
    (hs : streams[si]? = some s) : totalAt streams si = s.metrics.elementsTotal := by
  simp [totalAt, hs]

/-- A push that has evicted an element from the stream. -/
def FlowEvent.isEviction (id : StreamId) : FlowEvent → Bool
  | .pushed id' _ (.droppedOldest _) => decide (id' = id)
  | _ => false

namespace FlowDriver

/-- The elements that a round pops from a stream: the input of its execution, and at the end of
the run all that are left. -/
def popped (si : ℕ) (d : FlowDriver) (r : Round) : ℕ :=
  match d.chosen r with
  | some e => if d.takenFrom e = some si then 1 else 0
  | none => if d.state = .draining then lenAt d.streams si else 0

/-- The outputs of a processing stage that a round pushes onto a stream that is full. -/
def miscounted (si : ℕ) (d : FlowDriver) (r : Round) : ℕ :=
  match d.chosen r with
  | some e =>
      if e.action ≠ .pullFromSource ∧ si ∈ d.addressed r e ∧
        lenAt d.streams si = capacityAt d.streams si then 1
      else 0
  | none => 0

/-- The sum of what the rounds of a run contribute. -/
def sumOver (g : FlowDriver → Round → ℕ) : FlowDriver → List Round → ℕ
  | _, [] => 0
  | d, r :: rounds => g d r + sumOver g (d.step r) rounds

/-- The elements evicted from a stream so far. -/
def evicted (d : FlowDriver) (id : StreamId) : ℕ := d.events.countP (FlowEvent.isEviction id)

/-! ## One round -/

/-- Between two states the count of a stream and the length of its queue change by the same,
except for what is popped and what is miscounted. -/
def Counts (d d' : FlowDriver) (si popped miscounted : ℕ) : Prop :=
  totalAt d'.streams si + lenAt d.streams si =
    totalAt d.streams si + lenAt d'.streams si + popped + miscounted

section Counts

variable {d d₁ d' : FlowDriver} {si : ℕ}

theorem Counts.trans {p p' m m' : ℕ} (h : Counts d d₁ si p m) (h' : Counts d₁ d' si p' m') :
    Counts d d' si (p + p') (m + m') := by
  unfold Counts at *
  omega

theorem counts_of_streams_eq (h : d'.streams = d.streams) : Counts d d' si 0 0 := by
  unfold Counts
  rw [h]
  rfl

theorem Quiet.counts (h : Quiet d d') : Counts d d' si 0 0 := by
  unfold Counts
  cases hs : d.streams[si]? with
  | none =>
      have hs' : d'.streams[si]? = none := by
        rw [List.getElem?_eq_none_iff] at hs ⊢
        rw [h.length_eq]
        exact hs
      simp [totalAt, lenAt, hs, hs']
  | some s =>
      obtain ⟨s', hs', -, hqueue, htotal⟩ := h.stream si s hs
      rw [totalAt_eq hs, totalAt_eq hs', lenAt_eq hs, lenAt_eq hs', hqueue, htotal]
      rfl

/-- One stream is replaced by another state of it. -/
theorem counts_set {sj : ℕ} {s : StreamState} (d' : FlowDriver) (s' : StreamState) (p m : ℕ)
    (hs : d.streams[sj]? = some s) (hstreams : d'.streams = d.streams.set sj s')
    (hcount : s'.metrics.elementsTotal + s.queue.len =
      s.metrics.elementsTotal + s'.queue.len + p + m) :
    Counts d d' si (if sj = si then p else 0) (if sj = si then m else 0) := by
  unfold Counts
  have hlt := (List.getElem?_eq_some_iff.mp hs).1
  by_cases hj : sj = si
  · subst hj
    have hs' : d'.streams[sj]? = some s' := by
      rw [hstreams]
      exact List.getElem?_set_self hlt
    rw [totalAt_eq hs, totalAt_eq hs', lenAt_eq hs, lenAt_eq hs', if_pos rfl, if_pos rfl]
    exact hcount
  · have hs' : d'.streams[si]? = d.streams[si]? := by
      rw [hstreams]
      exact List.getElem?_set_ne hj
    rw [totalAt, totalAt, lenAt, lenAt, hs', if_neg hj, if_neg hj]
    rfl

/-- Taking an input pops it. -/
theorem counts_taking {sj : ℕ} {s : StreamState} (elem : StreamElementRef)
    (hs : d.streams[sj]? = some s) (hpos : 0 < s.queue.len) :
    Counts d (d.taking sj s elem) si (if sj = si then 1 else 0) 0 := by
  have hcount : s.take.2.metrics.elementsTotal + s.queue.len =
      s.metrics.elementsTotal + s.take.2.queue.len + 1 + 0 := by
    have hlen := s.len_take
    show s.metrics.elementsTotal + _ = _
    omega
  have hcounts : Counts d (d.taking sj s elem) si (if sj = si then 1 else 0)
      (if sj = si then 0 else 0) := counts_set _ _ 1 0 hs rfl hcount
  rwa [ite_self] at hcounts

/-- An accepted element that is counted, or a rejected one that is not. -/
theorem emit_counts (s : StreamState) (elem : StreamElementRef) :
    (if s.queue.isFull then (s.emit elem).2
      else (s.emit elem).2.recordEnqueue).metrics.elementsTotal + s.queue.len =
      s.metrics.elementsTotal + (s.emit elem).2.queue.len := by
  have hlen := s.len_emit elem
  have hle := s.queue.len_le
  by_cases hfull : s.queue.isFull = true
  · rw [if_pos hfull]
    rw [BoundedQueue.isFull_iff] at hfull
    show s.metrics.elementsTotal + _ = _
    omega
  · rw [if_neg hfull]
    rw [BoundedQueue.isFull_iff] at hfull
    show s.metrics.elementsTotal + 1 + _ = _
    omega

/-- A source counts what its stream accepts. -/
theorem counts_pushPulled (d : FlowDriver) (r : Round) (element : OutputElement) (sj : ℕ) :
    Counts d (d.pushPulled r element sj) si 0 0 := by
  cases hs : d.streams[sj]? with
  | none =>
      apply counts_of_streams_eq
      simp only [pushPulled, hs]
  | some s =>
      set elem := stamp d.nextGlobalSequence d.nextGlobalSequence r.timestampNs element with helem
      have hlen : (if s.queue.isFull then (s.emit elem).2
          else (s.emit elem).2.recordEnqueue).queue.len = (s.emit elem).2.queue.len := by
        split_ifs <;> rfl
      have hcounts : Counts d (d.pushPulled r element sj) si (if sj = si then 0 else 0)
          (if sj = si then 0 else 0) := by
        refine counts_set _ (if s.queue.isFull then (s.emit elem).2
          else (s.emit elem).2.recordEnqueue) 0 0 hs (by rw [pushPulled_eq r element hs]) ?_
        rw [hlen]
        exact emit_counts s elem
      rwa [ite_self] at hcounts

/-- A processing stage counts every output that it pushes. -/
theorem counts_pushOutput (d : FlowDriver) (input : StreamElementRef) (output : OutputElement)
    (sj : ℕ) :
    Counts d (d.pushOutput input output sj) si 0
      (if sj = si then (if d.streams[sj]?.any (·.queue.isFull) then 1 else 0) else 0) := by
  cases hs : d.streams[sj]? with
  | none =>
      simp only [Option.any_none, Bool.false_eq_true, if_false, ite_self]
      apply counts_of_streams_eq
      simp only [pushOutput, hs]
  | some s =>
      rw [Option.any_some]
      set elem := stamp d.nextGlobalSequence input.originSequence input.metadata.timestampNs output
      have hcount : (s.emit elem).2.recordEnqueue.metrics.elementsTotal + s.queue.len =
          s.metrics.elementsTotal + (s.emit elem).2.recordEnqueue.queue.len + 0 +
            (if s.queue.isFull then 1 else 0) := by
        have hemit := emit_counts s elem
        split_ifs at hemit ⊢
        · show s.metrics.elementsTotal + 1 + _ = s.metrics.elementsTotal + (s.emit elem).2.queue.len + 0 + 1
          have hsame : (s.emit elem).2.metrics.elementsTotal = s.metrics.elementsTotal := rfl
          omega
        · exact hemit
      have hcounts : Counts d (d.pushOutput input output sj) si (if sj = si then 0 else 0) _ :=
        counts_set _ _ 0 _ hs (by rw [pushOutput_eq input output hs]) hcount
      rwa [ite_self] at hcounts

/-- The outputs of one answer go to different streams. -/
theorem counts_pushAll {input : StreamElementRef} (ts : List (OutputElement × ℕ)) (d : FlowDriver)
    (hnodup : (ts.map Prod.snd).Nodup) :
    Counts d (d.pushAll input ts) si 0
      (if si ∈ ts.map Prod.snd ∧ d.streams[si]?.any (·.queue.isFull) then 1 else 0) := by
  induction ts generalizing d with
  | nil => exact counts_of_streams_eq rfl
  | cons t ts ih =>
      obtain ⟨hnot, hnodup⟩ := List.nodup_cons.mp hnodup
      have hone : Counts d (d.pushOutput input t.1 t.2) si 0 _ := d.counts_pushOutput input t.1 t.2
      have hrest := ih (d.pushOutput input t.1 t.2) hnodup
      have hall : Counts d (d.pushAll input (t :: ts)) si (0 + 0) _ := hone.trans hrest
      rw [Nat.add_zero] at hall
      convert hall using 1
      by_cases hj : t.2 = si
      · subst hj
        have hnot : t.2 ∉ ts.map Prod.snd := hnot
        simp [hnot]
      · -- the first push leaves the stream as it is
        have hsame : (d.pushOutput input t.1 t.2).streams[si]? = d.streams[si]? :=
          getElem?_pushAll_of_notMem [t] d (by simpa using Ne.symm hj)
        rw [hsame, if_neg hj, Nat.zero_add]
        simp only [List.map_cons, List.mem_cons, Ne.symm hj, false_or]

end Counts

/-- The action of a stage. -/
theorem counts_acted {t : FlowTopology} (ht : t.Valid) {d acted : FlowDriver} (h : DriverInv t d)
    {r : Round} {e : StageExecution} (he : d.nextReady = some e) {c : FlowCancellation}
    (hacted : Acted (d.prepared c) r e acted) (si : ℕ) :
    Counts d acted si (if d.takenFrom e = some si then 1 else 0)
      (if e.action ≠ .pullFromSource ∧ si ∈ d.addressed r e ∧
        lenAt d.streams si = capacityAt d.streams si then 1 else 0) := by
  -- nothing is taken and nothing is addressed
  have hnothing : ∀ d' : FlowDriver, d.takenFrom e = none → d.addressed r e = [] →
      Counts d d' si 0 0 → Counts d d' si (if d.takenFrom e = some si then 1 else 0)
        (if e.action ≠ .pullFromSource ∧ si ∈ d.addressed r e ∧
          lenAt d.streams si = capacityAt d.streams si then 1 else 0) := by
    intro d' htaken haddressed hcounts
    rw [htaken, haddressed]
    simpa using hcounts
  cases hacted with
  | starved htaken haddressed => exact hnothing _ htaken haddressed (counts_of_streams_eq rfl)
  | asked answer htaken haddressed => exact hnothing _ htaken haddressed (counts_of_streams_eq rfl)
  | exhausted sis htaken haddressed =>
      have hquiet : Quiet ((d.prepared c).log (.invoked e.componentId (.pull (.ok none)))) _ :=
        quiet_markComplete _ sis
      exact hnothing _ htaken haddressed ((counts_of_streams_eq rfl).trans hquiet.counts)
  | produced element sj haction htaken haddressed =>
      have htaken : d.takenFrom e = none := htaken
      rw [htaken]
      simp only [haction, ne_eq, not_true_eq_false, false_and, if_false, reduceCtorEq]
      exact (counts_of_streams_eq rfl).trans (counts_pushPulled _ r element sj)
  | consumed sj s elem answer latency htaken haddressed hs hpos helem =>
      have htaken : d.takenFrom e = some sj := htaken
      have haddressed : d.addressed r e = [] := haddressed
      rw [htaken, haddressed]
      have hcounts : Counts (d.prepared c) ((d.prepared c).taking sj s elem) si
          (if sj = si then 1 else 0) 0 := counts_taking elem hs hpos
      simp only [List.not_mem_nil, false_and, and_false, if_false, Option.some.injEq]
      exact hcounts
  | processed sj s elem answer ts id haction htaken haddressed hs hpos helem =>
      have htaken : d.takenFrom e = some sj := htaken
      have haddressed : d.addressed r e = ts.map Prod.snd := haddressed
      have hs : d.streams[sj]? = some s := hs
      have hnodup : (ts.map Prod.snd).Nodup := by
        rw [← haddressed]
        refine (d.addressed_sublist r e).nodup ?_
        rw [h.streamIndex]
        exact StreamIndex.outputs_nodup
      have htake : Counts (d.prepared c) ((d.prepared c).taking sj s elem) si
          (if sj = si then 1 else 0) 0 := counts_taking elem hs hpos
      set asked := ((d.prepared c).taking sj s elem).log
        (.invoked e.componentId (.process elem.toStreamElement answer)) with hasked
      have hcond : (e.action ≠ .pullFromSource ∧ si ∈ d.addressed r e ∧
            lenAt d.streams si = capacityAt d.streams si) ↔
          (si ∈ ts.map Prod.snd ∧ asked.streams[si]?.any (·.queue.isFull)) := by
        rw [haction, haddressed]
        simp only [ne_eq, reduceCtorEq, not_false_eq_true, true_and]
        refine and_congr_right fun hsi => ?_
        -- the addressed stream is not the one the input is taken from
        have hne : sj ≠ si := fun heq =>
          taken_ne_of_addressed ht h he (haddressed ▸ hsi) (htaken.trans (congrArg some heq))
        have hsame : asked.streams[si]? = d.streams[si]? := List.getElem?_set_ne hne
        obtain ⟨stage, -, -, hx, -⟩ :=
          nextReady_spec ht h.topology h.streamIndex h.streams.wired he r
        have hlt := h.streams.wired.lt_of_mem_outputs
          (hx.pushed.subset (show si ∈ d.addressed r e from haddressed ▸ hsi))
        have hget := List.getElem?_eq_getElem hlt
        rw [hsame, hget, Option.any_some, lenAt_eq hget, capacityAt_eq hget, BoundedQueue.isFull_iff]
      have hall : Counts (d.prepared c) (asked.pushAll elem ts) si _ _ :=
        htake.trans ((counts_of_streams_eq rfl).trans (counts_pushAll ts asked hnodup))
      simp only [Nat.zero_add, Nat.add_zero] at hall
      rw [htaken, if_congr hcond rfl rfl]
      simp only [Option.some.injEq]
      exact hall

/-- **One round.** -/
theorem counts_step {t : FlowTopology} (ht : t.Valid) {d : FlowDriver}
    (h : d.state = .running ∨ d.state = .draining → DriverInv t d) (r : Round) (si : ℕ) :
    Counts d (d.step r) si (d.popped si r) (d.miscounted si r) := by
  have heffect := d.step_effect r
  generalize d.step r = d' at heffect ⊢
  unfold popped miscounted
  cases heffect with
  | quiet d' hchosen hstate hquiet =>
      simp only [hchosen, if_neg hstate]
      exact hquiet.counts
  | executed e c acted result d' hchosen hacted hquiet =>
      obtain ⟨hlive, he⟩ := ready_of_chosen hchosen
      have hcounts := counts_acted ht (h hlive) he hacted si
      have hrecorded : Counts acted (acted.recordExecution r e result) si 0 0 :=
        counts_of_streams_eq (recordExecution_frame acted r e result).1
      simp only [hchosen]
      exact (hcounts.trans hrecorded).trans hquiet.counts
  | finished hchosen hstate =>
      simp only [hchosen, if_pos hstate]
      have hstreams : (d.finish r).streams = d.streams.map StreamState.discardAll := rfl
      unfold Counts
      cases hs : d.streams[si]? with
      | none => simp [totalAt, lenAt, hs, hstreams]
      | some s =>
          have hs' : (d.finish r).streams[si]? = some s.discardAll := by
            rw [hstreams, List.getElem?_map, hs, Option.map_some]
          have hempty : s.discardAll.queue.len = 0 := s.queue.drainAll_spec.2
          rw [totalAt_eq hs, totalAt_eq hs', lenAt_eq hs, lenAt_eq hs', hempty]
          show s.metrics.elementsTotal + _ = _
          omega

/-! ## Nothing is evicted -/

/-- Elements are pushed with `push`, which evicts nothing. -/
theorem not_eviction_emit (s : StreamState) (id id' : StreamId) (elem : StreamElementRef) :
    (FlowEvent.pushed id' elem (s.emit elem).1).isEviction id = false := by
  have hcases : (s.emit elem).1 = .ok ∨ (s.emit elem).1 = .full elem := by
    show (s.queue.push elem).1 = .ok ∨ (s.queue.push elem).1 = .full elem
    unfold BoundedQueue.push
    split_ifs
    · exact .inl rfl
    · exact .inr rfl
  rcases hcases with h | h <;> rw [h] <;> rfl

section Evicted

variable {d d' : FlowDriver} (id : StreamId)

theorem evicted_of_events {more : List FlowEvent} (hevents : d'.events = d.events ++ more)
    (hmore : ∀ ev ∈ more, ev.isEviction id = false) : d'.evicted id = d.evicted id := by
  have hzero : more.countP (FlowEvent.isEviction id) = 0 :=
    List.countP_eq_zero.mpr fun ev hev => by simp [hmore ev hev]
  rw [evicted, evicted, hevents, List.countP_append, hzero, Nat.add_zero]

theorem isEviction_of_isQuiet {ev : FlowEvent} (h : ev.isQuiet = true) : ev.isEviction id = false := by
  cases ev with
  | pushed => cases h
  | _ => rfl

theorem evicted_pushPulled (d : FlowDriver) (r : Round) (element : OutputElement) (si : ℕ) :
    (d.pushPulled r element si).evicted id = d.evicted id := by
  cases hs : d.streams[si]? with
  | none => simp only [pushPulled, hs, evicted]
  | some s =>
      rw [pushPulled_eq r element hs]
      refine evicted_of_events id rfl fun ev hev => ?_
      rcases List.mem_cons.mp hev with rfl | hev
      · exact not_eviction_emit s id s.id _
      · split_ifs at hev
        · cases hev
        · obtain rfl := List.mem_singleton.mp hev
          rfl

theorem evicted_pushAll {input : StreamElementRef} (ts : List (OutputElement × ℕ))
    (d : FlowDriver) : (d.pushAll input ts).evicted id = d.evicted id := by
  induction ts generalizing d with
  | nil => rfl
  | cons t ts ih =>
      refine (ih (d.pushOutput input t.1 t.2)).trans ?_
      cases hs : d.streams[t.2]? with
      | none => simp only [pushOutput, hs, evicted]
      | some s =>
          rw [pushOutput_eq input t.1 hs]
          refine evicted_of_events id rfl fun ev hev => ?_
          obtain rfl := List.mem_singleton.mp hev
          exact not_eviction_emit s id s.id _

theorem evicted_acted {r : Round} {e : StageExecution} (hacted : Acted d r e d') :
    d'.evicted id = d.evicted id := by
  have hlog : ∀ (d₁ : FlowDriver) (call : Invocation),
      (d₁.log (.invoked e.componentId call)).evicted id = d₁.evicted id :=
    fun d₁ call => evicted_of_events id rfl (by simp [FlowEvent.isEviction])
  cases hacted with
  | starved => rfl
  | asked answer => exact hlog d _
  | exhausted sis => exact hlog d _
  | produced element si => exact (evicted_pushPulled id _ r element si).trans (hlog d _)
  | processed si s elem answer ts => exact (evicted_pushAll id ts _).trans (hlog _ _)
  | consumed si s elem answer latency =>
      refine evicted_of_events id rfl fun ev hev => ?_
      rcases List.mem_cons.mp hev with rfl | hev
      · rfl
      · obtain ⟨n, -, rfl⟩ := List.mem_map.mp hev
        rfl

/-- **No round evicts an element**, whatever the backpressure policy. -/
theorem evicted_step (d : FlowDriver) (r : Round) : (d.step r).evicted id = d.evicted id := by
  have hquiet : ∀ {d₁ d₂ : FlowDriver}, Quiet d₁ d₂ → d₂.evicted id = d₁.evicted id := by
    intro d₁ d₂ h
    obtain ⟨more, hevents, hmore⟩ := h.events
    exact evicted_of_events id hevents fun ev hev => isEviction_of_isQuiet id (hmore ev hev)
  have heffect := d.step_effect r
  generalize d.step r = d' at heffect ⊢
  cases heffect with
  | quiet d' _ _ h => exact hquiet h
  | executed e c acted result d' _ hacted h =>
      have hsame := evicted_acted id hacted
      refine (hquiet h).trans (Eq.trans ?_ hsame)
      obtain ⟨startNs, endNs, status, hevents⟩ := events_recordExecution acted r e result
      refine evicted_of_events id hevents fun ev hev => ?_
      rcases List.mem_cons.mp hev with rfl | hev
      · rfl
      · obtain ⟨seq, -, rfl⟩ := List.mem_map.mp hev
        rfl
  | finished =>
      obtain ⟨more, hevents, hmore, -⟩ := d.finish_events r
      refine evicted_of_events id hevents fun ev hev => ?_
      rcases hmore ev hev with ⟨s, -, -, rfl⟩ | ⟨_, _, rfl⟩ | ⟨_, rfl⟩ <;> rfl

end Evicted

end FlowDriver

/-! ## Runs -/

open FlowDriver

/-- The counts of all streams are exact: what has been popped, what has been evicted and what is
queued. -/
def MetricsExact (f : SpawnedFlow) (rounds : List Round) : Prop :=
  ∀ (si : ℕ) (s : StreamState), (f.run rounds).streams[si]? = some s →
    s.metrics.elementsTotal =
      sumOver (popped si) f.start rounds + (f.run rounds).evicted s.id + s.queue.len

/-- The round executes a processing stage whose answer is addressed to a stream that is full. -/
def Miscounts (d : FlowDriver) (r : Round) : Prop :=
  ∃ e, d.chosen r = some e ∧ e.action ≠ .pullFromSource ∧
    ∃ si ∈ d.addressed r e, lenAt d.streams si = capacityAt d.streams si

/-- What the rounds of a run add up to. -/
theorem counts_run (f : SpawnedFlow) (rounds : List Round) (si : ℕ) :
    Counts f.start (f.run rounds) si (sumOver (popped si) f.start rounds)
      (sumOver (miscounted si) f.start rounds) := by
  have hrun : ∀ (rounds before : List Round), Counts (f.run before) ((f.run before).run rounds) si
      (sumOver (popped si) (f.run before) rounds)
      (sumOver (miscounted si) (f.run before) rounds) := by
    intro rounds
    induction rounds with
    | nil => exact fun before => counts_of_streams_eq rfl
    | cons r rounds ih =>
        intro before
        have hone := counts_step f.valid (f.inv_run before) r si
        have hnext := f.run_snoc before r
        have hrest := ih (before ++ [r])
        rw [hnext] at hrest
        exact hone.trans hrest
  exact hrun rounds []

/-- Nothing has been evicted in a run. -/
theorem evicted_run (f : SpawnedFlow) (rounds : List Round) (id : StreamId) :
    (f.run rounds).evicted id = 0 := by
  induction rounds using List.reverseRecOn with
  | nil => rfl
  | append_singleton rounds r ih =>
      rw [f.run_snoc rounds r, evicted_step, ih]

/-- A count over a run is zero when no round contributes. -/
theorem sumOver_eq_zero_iff {g : FlowDriver → Round → ℕ} {d : FlowDriver} {rounds : List Round} :
    sumOver g d rounds = 0 ↔
      ∀ before r after, rounds = before ++ r :: after → g (d.run before) r = 0 := by
  induction rounds generalizing d with
  | nil => simp [sumOver]
  | cons r rounds ih =>
      rw [sumOver, Nat.add_eq_zero_iff, ih]
      constructor
      · rintro ⟨hfirst, hrest⟩ before r' after hsplit
        cases before with
        | nil =>
            obtain ⟨rfl, -⟩ := List.cons.inj hsplit
            exact hfirst
        | cons r'' before =>
            obtain ⟨rfl, htail⟩ := List.cons.inj hsplit
            exact hrest before r' after htail
      · intro hall
        exact ⟨hall [] r rounds rfl,
          fun before r' after hsplit => hall (r :: before) r' after (congrArg (r :: ·) hsplit)⟩

/-- **Exactly when the metrics are exact**: in the runs in which no round pushes the output of a
processing stage onto a full stream. -/
theorem metrics_exact_iff (f : SpawnedFlow) (rounds : List Round) :
    MetricsExact f rounds ↔
      ∀ before r after, rounds = before ++ r :: after → ¬Miscounts (f.run before) r := by
  obtain ⟨hlength, hspec⟩ := spawnStreamsFrom_spec f.built
  -- at the start all streams are empty and uncounted
  have hcounts : ∀ (si : ℕ) (s : StreamState), (f.run rounds).streams[si]? = some s →
      s.metrics.elementsTotal = sumOver (popped si) f.start rounds + s.queue.len +
        sumOver (miscounted si) f.start rounds := by
    intro si s hs
    have hrun := counts_run f rounds si
    have hstart : totalAt f.start.streams si = 0 ∧ lenAt f.start.streams si = 0 := by
      cases h₀ : f.start.streams[si]? with
      | none => simp [totalAt, lenAt, h₀]
      | some s₀ =>
          obtain ⟨-, -, hlen, -, -, hmetrics⟩ := hspec si s₀ h₀
          rw [totalAt_eq h₀, lenAt_eq h₀, hlen, hmetrics]
          exact ⟨rfl, rfl⟩
    unfold Counts at hrun
    rw [hstart.1, hstart.2, totalAt_eq hs, lenAt_eq hs] at hrun
    omega
  have hlen : (f.run rounds).streams.length = f.config.topology.connections.length :=
    (length_run _ _).trans hlength
  constructor
  · intro hexact before r after hsplit hmiscounts
    obtain ⟨e, hchosen, haction, si, hsi, hfull⟩ := hmiscounts
    obtain ⟨hlive, he⟩ := ready_of_chosen hchosen
    have hinv := f.inv_run before hlive
    obtain ⟨stage, -, -, hx, -⟩ :=
      nextReady_spec f.valid hinv.topology hinv.streamIndex hinv.streams.wired he r
    have hlt : si < (f.run rounds).streams.length := by
      rw [hlen]
      exact StreamIndex.lt_of_mem_outputs (hx.pushed.subset hsi)
    have hs := List.getElem?_eq_getElem hlt
    have htotal := hcounts si _ hs
    rw [hexact si _ hs, evicted_run] at htotal
    have hzero : sumOver (miscounted si) f.start rounds = 0 := by omega
    have hround := sumOver_eq_zero_iff.mp hzero before r after hsplit
    have hone : miscounted si (f.start.run before) r = 1 := by
      have hchosen : (f.start.run before).chosen r = some e := hchosen
      simp only [miscounted, hchosen]
      exact if_pos ⟨haction, hsi, hfull⟩
    omega
  · intro hnone si s hs
    have hzero : sumOver (miscounted si) f.start rounds = 0 := by
      refine sumOver_eq_zero_iff.mpr fun before r after hsplit => ?_
      have hround := hnone before r after hsplit
      unfold miscounted
      split
      · rename_i e hchosen
        refine if_neg fun h => hround ⟨e, hchosen, h.1, si, h.2⟩
      · rfl
    rw [hcounts si s hs, hzero, evicted_run]
    omega

/-- The filter that runs twice in the drain phase pushes its second output onto a full stream:
two elements are counted, one is queued and none has been popped. -/
theorem metrics_miscounted : ¬MetricsExact lossyFlow lossyRounds := by
  intro hexact
  have hcount : ((lossyFlow.run lossyRounds).streams[5]?.map fun s =>
      decide (s.metrics.elementsTotal = sumOver (popped 5) lossyFlow.start lossyRounds +
        (lossyFlow.run lossyRounds).evicted s.id + s.queue.len)) = some false := by
    decide
  obtain ⟨s, hs, hfalse⟩ := Option.map_eq_some_iff.mp hcount
  exact of_decide_eq_false hfalse (hexact 5 s hs)

end Torvyn.Reactor
