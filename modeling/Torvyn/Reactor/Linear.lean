/-
# Linear topologies

In a chain of one source, processors and one sink, the scheduler prefers the stages
near the sink, so at most one element is under way at a time.  `Carrying` describes
the state in which the element of number `k` is about to be handled by the stage at
position `j`, and `carrying_execute` shows that executing the chosen stage carries it
one position further.
-/
import Torvyn.Reactor.Readiness

namespace Torvyn.Reactor

/-! ## Chains -/

/-- A numbering of the stages and streams of a topology along a chain: the source at
position `0`, then `m` processors, and the sink at position `m + 1`.  The stages and
connections may be listed in any order. -/
structure Chain (t : FlowTopology) (m : ℕ) where
  stage : ℕ → ℕ
  stream : ℕ → ℕ
  stage_inj : ∀ i ≤ m + 1, ∀ j ≤ m + 1, stage i = stage j → i = j
  stage_surj : ∀ v < t.stages.length, ∃ i ≤ m + 1, stage i = v
  stream_surj : ∀ si < t.connections.length, ∃ i ≤ m, stream i = si
  link : ∀ i ≤ m, ∃ c, t.connections[stream i]? = some c ∧ c.fromStage = stage i ∧
    c.toStage = stage (i + 1)
  source : ∃ s, t.stages[stage 0]? = some s ∧ s.role = .source
  processor : ∀ i, 0 < i → i ≤ m → ∃ s, t.stages[stage i]? = some s ∧ s.role = .processor
  sink : ∃ s, t.stages[stage (m + 1)]? = some s ∧ s.role = .sink

namespace Chain

variable {t : FlowTopology} {m : ℕ} (c : Chain t m)

theorem links {i : ℕ} (hi : i ≤ m) : Links t (c.stream i) (c.stage i) (c.stage (i + 1)) := c.link i hi

/-- A stream that leaves the stage at position `i` is the one of number `i`. -/
theorem eq_of_mem_outputs {i si : ℕ} (hi : i ≤ m + 1)
    (hsi : si ∈ (StreamIndex.build t).outputs (c.stage i)) : i ≤ m ∧ si = c.stream i := by
  obtain ⟨j, hj, rfl⟩ := c.stream_surj si (StreamIndex.lt_of_mem_outputs hsi)
  have hij := StreamIndex.outputs_inj hsi (c.links hj).mem_outputs
  obtain rfl := c.stage_inj i hi j (by omega) hij
  exact ⟨hj, rfl⟩

/-- A stream that enters the stage at position `i` is the one of number `i - 1`. -/
theorem eq_of_mem_inputs {i si : ℕ} (hi : i ≤ m + 1)
    (hsi : si ∈ (StreamIndex.build t).inputs (c.stage i)) :
    ∃ j ≤ m, i = j + 1 ∧ si = c.stream j := by
  obtain ⟨j, hj, rfl⟩ := c.stream_surj si (StreamIndex.lt_of_mem_inputs hsi)
  obtain ⟨conn, hconn, -, hto⟩ := c.links hj
  obtain ⟨conn', hconn', hto'⟩ := StreamIndex.mem_inputs.mp hsi
  obtain rfl := Option.some.inj (hconn.symm.trans hconn')
  exact ⟨j, hj, c.stage_inj i hi (j + 1) (by omega) (hto'.symm.trans hto), rfl⟩

/-- The stage at position `i` feeds one stream. -/
theorem outputs_eq {i : ℕ} (hi : i ≤ m) :
    (StreamIndex.build t).outputs (c.stage i) = [c.stream i] := by
  have hmem := (c.links hi).mem_outputs
  have hsub : ∀ si ∈ (StreamIndex.build t).outputs (c.stage i), si = c.stream i :=
    fun si hsi => (c.eq_of_mem_outputs (by omega) hsi).2
  have hnodup := StreamIndex.outputs_nodup (t := t) (v := c.stage i)
  revert hmem hsub hnodup
  cases (StreamIndex.build t).outputs (c.stage i) with
  | nil => simp
  | cons a l =>
      intro hmem hsub hnodup
      obtain rfl := hsub a List.mem_cons_self
      have hnil : l = [] := by
        by_contra hne
        obtain ⟨b, hb⟩ := List.exists_mem_of_ne_nil l hne
        rw [hsub b (List.mem_cons_of_mem _ hb)] at hb
        exact (List.nodup_cons.mp hnodup).1 hb
      rw [hnil]

/-- Streams of different numbers are different. -/
theorem stream_inj {i j : ℕ} (hi : i ≤ m) (hj : j ≤ m) (h : c.stream i = c.stream j) : i = j := by
  have hmem := (c.links hi).mem_outputs
  rw [h] at hmem
  exact c.stage_inj i (by omega) j (by omega)
    (StreamIndex.outputs_inj hmem (c.links hj).mem_outputs)

/-- Ranks grow along the chain. -/
theorem rank_lt (ht : t.Valid) {i j : ℕ} (hij : i < j) (hj : j ≤ m + 1) :
    t.rank (c.stage i) < t.rank (c.stage j) := by
  induction j with
  | zero => omega
  | succ j ih =>
      have hstep := (c.links (i := j) (by omega)).rank_lt ht
      rcases Nat.lt_succ_iff_lt_or_eq.mp hij with hlt | rfl
      · exact (ih hlt (by omega)).trans hstep
      · exact hstep

/-- The stage at a position, with its role. -/
theorem exists_stage {i : ℕ} (hi : i ≤ m + 1) : ∃ s, t.stages[c.stage i]? = some s ∧
    s.role = if i = 0 then .source else if i = m + 1 then .sink else .processor := by
  by_cases h₀ : i = 0
  · subst h₀
    simpa using c.source
  · by_cases h₁ : i = m + 1
    · subst h₁
      simpa using c.sink
    · simpa [h₀, h₁] using c.processor i (by omega) (by omega)

end Chain

/-! ## What the sink receives -/

/-- The element of number `k` as it is queued on the stream of number `i`: the source's
element, handed through the processors at the positions `1` to `i`.  The reactor numbers
the elements it queues, and keeps the number and the instant `clock k` the element had
at the source. -/
def carried {t : FlowTopology} {m : ℕ} (c : Chain t m) (fn : ℕ → StreamElement → OutputElement)
    (clock : ℕ → ℕ) (k : ℕ) (element : OutputElement) : ℕ → StreamElementRef
  | 0 => FlowDriver.stamp (k * (m + 1)) (k * (m + 1)) (clock k) element
  | i + 1 =>
      let x := carried c fn clock k element i
      FlowDriver.stamp (k * (m + 1) + (i + 1)) x.originSequence x.metadata.timestampNs
        (fn (c.stage (i + 1)) ⟨x.metadata, x.bufferHandle⟩)

/-- The image of the source's elements under the processors, as the sink receives it. -/
def image {t : FlowTopology} {m : ℕ} (c : Chain t m) (fn : ℕ → StreamElement → OutputElement)
    (clock : ℕ → ℕ) (source : List OutputElement) : List StreamElement :=
  source.zipIdx.map fun (element, k) =>
    let x := carried c fn clock k element m
    ⟨x.metadata, x.bufferHandle⟩

/-- A call that asks a source for an element. -/
def FlowEvent.isPull : FlowEvent → Bool
  | .invoked _ (.pull _) => true
  | _ => false

/-- The element of a call that hands one to a sink. -/
def FlowEvent.pushedElement : FlowEvent → Option StreamElement
  | .invoked _ (.push element _) => some element
  | _ => none

/-- How often a source has been asked for an element. -/
def pulls (events : List FlowEvent) : ℕ := events.countP FlowEvent.isPull

/-- The elements that have been pushed into a sink. -/
def received (events : List FlowEvent) : List StreamElement :=
  events.filterMap FlowEvent.pushedElement

/-- Neither a source nor a sink is called. -/
def Quiet (events : List FlowEvent) : Prop :=
  ∀ ev ∈ events, ev.isPull = false ∧ ev.pushedElement = none

section Quiet

variable {events more : List FlowEvent}

theorem Quiet.append (h : Quiet events) (h' : Quiet more) : Quiet (events ++ more) := fun ev hev =>
  (List.mem_append.mp hev).elim (h ev) (h' ev)

theorem Quiet.pulls_append (h : Quiet more) : pulls (events ++ more) = pulls events := by
  have hzero : more.countP FlowEvent.isPull = 0 :=
    List.countP_eq_zero.mpr fun ev hev => by simp [(h ev hev).1]
  rw [pulls, List.countP_append, hzero, Nat.add_zero, pulls]

theorem received_append (h : ∀ ev ∈ more, ev.pushedElement = none) :
    received (events ++ more) = received events := by
  rw [received, List.filterMap_append, List.filterMap_eq_nil_iff.mpr h, List.append_nil, received]

theorem Quiet.received_append (h : Quiet more) : received (events ++ more) = received events :=
  Reactor.received_append fun ev hev => (h ev hev).2

end Quiet

/-- The yield check logs at most that it has yielded. -/
theorem yieldCheck_quiet (d : FlowDriver) (r : Round) :
    ∃ more, (d.yieldCheck r).events = d.events ++ more ∧ Quiet more := by
  unfold FlowDriver.yieldCheck
  simp only
  split
  · exact ⟨[_], rfl, by simp [Quiet, FlowEvent.isPull, FlowEvent.pushedElement]⟩
  · exact ⟨[], (List.append_nil _).symm, by simp [Quiet]⟩

/-- Steps 5 and 6 of the main loop call sources only about backpressure. -/
theorem afterStage_quiet (d : FlowDriver) (r : Round) :
    ∃ more, (d.afterStage r).events = d.events ++ more ∧ Quiet more := by
  set checked := d.checkBackpressureAll r with hchecked
  obtain ⟨more, hmore, hquiet⟩ := yieldCheck_quiet (checked.1.notifyProducers checked.2) r
  refine ⟨_, hmore.trans ((congrArg (· ++ more) (List.append_assoc _ _ _)).trans
    (List.append_assoc _ _ _)), Quiet.append (Quiet.append ?_ ?_) hquiet⟩
  · intro ev hev
    obtain ⟨⟨signal, s⟩, -, hev⟩ := List.mem_filterMap.mp hev
    obtain ⟨signal', -, rfl⟩ := Option.map_eq_some_iff.mp hev
    exact ⟨rfl, rfl⟩
  · intro ev hev
    obtain ⟨⟨si, signal⟩, -, hev⟩ := List.mem_filterMap.mp hev
    obtain ⟨v, -, hev⟩ := Option.bind_eq_some_iff.mp hev
    obtain ⟨stage, -, hev⟩ := Option.bind_eq_some_iff.mp hev
    split at hev
    · obtain rfl := Option.some.inj hev
      exact ⟨rfl, rfl⟩
    · cases hev

/-- Recording an execution calls nobody. -/
theorem recordExecution_quiet (d : FlowDriver) (r : Round) (e : StageExecution)
    (result : Except FlowError Unit) :
    ∃ more, (d.recordExecution r e result).events = d.events ++ more ∧ Quiet more := by
  unfold FlowDriver.recordExecution
  simp only
  split
  · exact ⟨[_, _], List.append_assoc _ _ _, by simp [Quiet, FlowEvent.isPull, FlowEvent.pushedElement]⟩
  · exact ⟨[_], rfl, by simp [Quiet, FlowEvent.isPull, FlowEvent.pushedElement]⟩

/-! ## One element under way -/

/-- The element of number `k` waits before the stage at position `j`; for `j = 0` it has
not been pulled yet.  All earlier elements have reached the sink. -/
structure Carrying {t : FlowTopology} {m : ℕ} (c : Chain t m)
    (fn : ℕ → StreamElement → OutputElement) (clock : ℕ → ℕ) (source : List OutputElement)
    (k j : ℕ) (d : FlowDriver) : Prop where
  state : d.state = .running
  uncancelled : d.cancellation.isCancelled = false
  sequence : d.nextGlobalSequence = k * (m + 1) + j
  pulls_eq : pulls d.events = if j = 0 then k else k + 1
  received_eq : received d.events = (image c fn clock source).take k
  streams : ∀ i ≤ m, ∃ s, d.streams[c.stream i]? = some s ∧ s.producerComplete = false ∧
    s.metrics.elementsTotal = (if i < j then k + 1 else k) ∧
    s.queue.contents = if i + 1 = j then
        source[k]?.toList.map fun element => carried c fn clock k element i else []

section Carrying

variable {t : FlowTopology} {m : ℕ} {c : Chain t m} {fn : ℕ → StreamElement → OutputElement}
  {clock : ℕ → ℕ} {source : List OutputElement} {k j : ℕ} {d d' : FlowDriver}

/-- What does not matter to the element under way. -/
theorem Carrying.of_frame (h : Carrying c fn clock source k j d) (hcontext : d'.context = d.context)
    (hsequence : d'.nextGlobalSequence = d.nextGlobalSequence)
    (hevents : ∃ more, d'.events = d.events ++ more ∧ Quiet more)
    (hstreams : ∀ (si : ℕ) (s : StreamState), d.streams[si]? = some s →
      ∃ s', d'.streams[si]? = some s' ∧ s'.queue = s.queue ∧
        s'.producerComplete = s.producerComplete ∧
        s'.metrics.elementsTotal = s.metrics.elementsTotal) :
    Carrying c fn clock source k j d' := by
  obtain ⟨more, hmore, hquiet⟩ := hevents
  refine ⟨(congrArg FlowDriver.Context.state hcontext).trans h.state, ?_,
    hsequence.trans h.sequence, ?_, ?_, fun i hi => ?_⟩
  · have hcancellation : d'.cancellation = d.cancellation :=
      congrArg FlowDriver.Context.cancellation hcontext
    rw [hcancellation, h.uncancelled]
  · rw [hmore, hquiet.pulls_append, h.pulls_eq]
  · rw [hmore, hquiet.received_append, h.received_eq]
  · obtain ⟨s, hs, hcomplete, htotal, hcontents⟩ := h.streams i hi
    obtain ⟨s', hs', hqueue, hcomplete', htotal'⟩ := hstreams _ s hs
    exact ⟨s', hs', hcomplete'.trans hcomplete, htotal'.trans htotal, by rw [hqueue, hcontents]⟩

/-- Steps 5 and 6 of the main loop do not matter. -/
theorem Carrying.afterStage (h : Carrying c fn clock source k j d) (r : Round) :
    Carrying c fn clock source k j (d.afterStage r) := by
  obtain ⟨hstreams, hcontext, -⟩ := d.afterStage_frame r
  refine h.of_frame hcontext ?_ (afterStage_quiet d r) fun si s hs => ?_
  · unfold FlowDriver.afterStage FlowDriver.yieldCheck
    simp only
    split <;> rfl
  · rw [hstreams, checkAll, List.getElem?_map, hs, Option.map_some]
    obtain ⟨-, hqueue, -, hcomplete, htotal⟩ := s.checkBackpressure_frame r.finish
    exact ⟨_, rfl, hqueue, hcomplete, htotal⟩

/-- Recording an execution does not matter. -/
theorem Carrying.recordExecution (h : Carrying c fn clock source k j d) (r : Round)
    (e : StageExecution) (result : Except FlowError Unit) :
    Carrying c fn clock source k j (d.recordExecution r e result) := by
  obtain ⟨hstreams, hcontext, -⟩ := d.recordExecution_frame r e result
  refine h.of_frame hcontext ?_ (recordExecution_quiet d r e result)
    fun si s hs => ⟨s, hstreams ▸ hs, rfl, rfl, rfl⟩
  unfold FlowDriver.recordExecution
  simp only
  split <;> rfl

/-- The lengths of the queues: only the stream of the element under way is not empty. -/
theorem Carrying.lenAt_eq (h : Carrying c fn clock source k j d) (hk : j ≠ 0 → k < source.length)
    {i : ℕ} (hi : i ≤ m) : lenAt d.streams (c.stream i) = if i + 1 = j then 1 else 0 := by
  obtain ⟨s, hs, -, -, hcontents⟩ := h.streams i hi
  rw [Reactor.lenAt_eq hs, ← s.queue.length_contents, hcontents]
  by_cases hij : i + 1 = j
  · have hlt := hk (by omega)
    simp [hij, List.getElem?_eq_getElem hlt]
  · simp [hij]

/-- **The stage at position `j` is chosen.** -/
theorem Carrying.nextReady (ht : t.Valid) (hinv : DriverInv t d)
    (h : Carrying c fn clock source k j d) (hj : j ≤ m + 1) (hk : j ≠ 0 → k < source.length) :
    ∃ stage, t.stages[c.stage j]? = some stage ∧
      d.nextReady = some ⟨stage.componentId, c.stage j,
        if j = 0 then .pullFromSource
        else if j = m + 1 then .pushToSink ⟨c.stream (j - 1)⟩
        else .processElement ⟨c.stream (j - 1)⟩⟩ := by
  have hindex : d.nextReady = nextReadyStage t d.streams (.build t) := by
    rw [FlowDriver.nextReady, hinv.topology, hinv.streamIndex]
  -- a stream that is empty can be produced into
  have hcan : ∀ i ≤ m, i + 1 ≠ j → canProduceAt d.streams (c.stream i) = true := by
    intro i hi hij
    have hlt := hinv.streams.wired.lt_of_mem_outputs (c.links hi).mem_outputs
    have hlen := h.lenAt_eq hk hi
    rw [if_neg hij] at hlen
    obtain ⟨s, hs, hcomplete, -⟩ := h.streams i hi
    rw [canProduceAt_iff hinv.streams.credit hlt, completeAt_eq hs, hlen]
    refine ⟨hcomplete, capacityAt_pos hlt, ?_⟩
    by_contra hactive
    have := hinv.active h.state _ (by simpa using hactive)
    omega
  obtain ⟨stage, hstage, hrole⟩ := c.exists_stage hj
  -- the stage at position `j` can run
  have hready : stageAction d.streams (.build t) (c.stage j) stage.role ≠ none := by
    intro hnone
    rw [stageAction_eq_none_iff, hrole] at hnone
    by_cases h₀ : j = 0
    · subst h₀
      simp only [if_true] at hnone
      refine (hnone ⟨c.stream 0, (c.links (Nat.zero_le m)).mem_outputs, ?_⟩).1 rfl
      exact hcan 0 (Nat.zero_le m) (by omega)
    · obtain ⟨i, rfl⟩ := Nat.exists_eq_succ_of_ne_zero h₀
      have hinput := h.lenAt_eq hk (i := i) (by omega)
      rw [if_pos rfl] at hinput
      have hun : Unblocked d.streams ((StreamIndex.build t).outputs (c.stage (i + 1)))
          (if i + 1 = 0 then .source else if i + 1 = m + 1 then .sink else .processor) := by
        rw [if_neg (by omega)]
        split
        · trivial
        · intro o ho
          obtain ⟨ho', rfl⟩ := c.eq_of_mem_outputs hj ho
          exact hcan (i + 1) ho' (by omega)
      have hfalse := (hnone hun).2 (c.stream i) (c.links (by omega)).mem_inputs
      rw [← Bool.not_eq_true, hasInputAt_eq_true_iff] at hfalse
      omega
  cases hchosen : nextReadyStage t d.streams (.build t) with
  | none => exact absurd (nextReadyStage_eq_none ht hchosen hstage) hready
  | some e =>
      obtain ⟨stage', hstage', hcomponent, haction, hlater⟩ := nextReadyStage_spec ht hchosen
      obtain ⟨i, hi, hstagei⟩ := c.stage_surj _ (List.getElem?_eq_some_iff.mp hstage').1
      rw [← hstagei] at hstage' haction hlater
      obtain ⟨hun, hcases⟩ := stageAction_cases hinv.streams.wired.id_eq haction
      obtain ⟨stage'', hstage'', hrole'⟩ := c.exists_stage hi
      obtain rfl := Option.some.inj (hstage''.symm.trans hstage')
      -- the chosen stage is not before the one at position `j`
      have hle : j ≤ i := by
        by_contra hlt
        exact hready (hlater _ stage hstage (c.rank_lt ht (by omega) hj))
      have hij : i = j ∧ e.action = if j = 0 then .pullFromSource
          else if j = m + 1 then .pushToSink ⟨c.stream (j - 1)⟩
          else .processElement ⟨c.stream (j - 1)⟩ := by
        rcases hcases with ⟨hsource, hact⟩ | ⟨si, hsi, hin, hrest⟩
        · rw [hsource] at hrole'
          have h₀ : i = 0 := by
            by_contra hne
            rw [if_neg hne] at hrole'
            split at hrole' <;> cases hrole'
          have hj₀ : j = 0 := by omega
          exact ⟨by omega, by rw [if_pos hj₀, hact]⟩
        · obtain ⟨i', hi', rfl, rfl⟩ := c.eq_of_mem_inputs hi hsi
          have hlen := h.lenAt_eq hk hi'
          rw [hasInputAt_eq_true_iff, hlen] at hin
          have hij : i' + 1 = j := by
            by_contra hne
            rw [if_neg hne] at hin
            omega
          subst hij
          refine ⟨rfl, ?_⟩
          rw [if_neg (Nat.succ_ne_zero i'), Nat.add_sub_cancel]
          rw [if_neg (Nat.succ_ne_zero i')] at hrole'
          rcases hrest with ⟨hsink, hact⟩ | ⟨-, hnot, hact⟩
          · rw [hsink] at hrole'
            split at hrole'
            · rw [if_pos ‹_›, hact]
            · cases hrole'
          · split at hrole'
            · exact absurd hrole' hnot
            · rw [if_neg ‹_›, hact]
      obtain ⟨rfl, hact⟩ := hij
      refine ⟨stage'', hstage', ?_⟩
      rw [hindex, hchosen, ← hact, ← hcomponent, hstagei]

/-- A push onto a stream that is empty is accepted. -/
theorem emit_of_empty {s : StreamState} (hcontents : s.queue.contents = [])
    (elem : StreamElementRef) : s.queue.isFull = false ∧
      (s.emit elem).2.recordEnqueue.queue.contents = [elem] := by
  have hlen := s.queue.length_contents
  rw [hcontents, List.length_nil] at hlen
  have hcap := s.queue.capacity_pos
  have hfull : s.queue.isFull = false := by
    rw [← Bool.not_eq_true, BoundedQueue.isFull_iff]
    omega
  refine ⟨hfull, ?_⟩
  show (s.queue.push elem).2.contents = [elem]
  rw [BoundedQueue.contents_push, hfull, hcontents]
  rfl

/-- **The source is asked for the element of number `k`**, which is queued on the first
stream. -/
theorem Carrying.executePull (hindex : d.streamIndex = .build t)
    (h : Carrying c fn clock source k 0 d) {element : OutputElement}
    (helement : source[k]? = some element) {r : Round} (hclock : r.timestampNs = clock k)
    {component : ComponentId} (hanswer : r.invoker.pull component = .ok (some element)) :
    (d.executePull r (c.stage 0) component).2 = .ok () ∧
      Carrying c fn clock source k 1 (d.executePull r (c.stage 0) component).1 := by
  obtain ⟨s, hs, hcomplete, htotal, hcontents⟩ := h.streams 0 (Nat.zero_le m)
  set dl := d.log (.invoked component (.pull (.ok (some element)))) with hdl
  have hexec : d.executePull r (c.stage 0) component =
      (dl.pushPulled r element (c.stream 0), .ok ()) := by
    simp only [FlowDriver.executePull, hanswer, Answer.toExcept, ← hdl]
    have hout : dl.streamIndex.outputs (c.stage 0) = [c.stream 0] := by
      rw [← c.outputs_eq (Nat.zero_le m), ← hindex]
      rfl
    rw [hout]
    rfl
  set elem := FlowDriver.stamp d.nextGlobalSequence d.nextGlobalSequence r.timestampNs element
    with helem
  have hcarried : elem = carried c fn clock k element 0 := by
    rw [helem, h.sequence, hclock]
    rfl
  obtain ⟨hfull, hqueued⟩ := emit_of_empty (by simpa using hcontents) elem
  have hpush : dl.pushPulled r element (c.stream 0) = { dl with
      nextGlobalSequence := d.nextGlobalSequence + 1
      currentElementSequence := some d.nextGlobalSequence
      streams := d.streams.set (c.stream 0) (s.emit elem).2.recordEnqueue
      events := dl.events ++ [.pushed s.id elem (s.emit elem).1, .recordElementTransfer s.id
        d.nextGlobalSequence ((s.emit elem).2.queue.len % 2 ^ 32)] } := by
    have := FlowDriver.pushPulled_eq (d := dl) r element hs
    simp only [hfull, Bool.false_eq_true, if_false] at this
    exact this
  have hevents : Quiet [.pushed s.id elem (s.emit elem).1, .recordElementTransfer s.id
      d.nextGlobalSequence ((s.emit elem).2.queue.len % 2 ^ 32)] := by
    simp [Quiet, FlowEvent.isPull, FlowEvent.pushedElement]
  rw [hexec, hpush]
  refine ⟨rfl, h.state, h.uncancelled, ?_, ?_, ?_, fun i hi => ?_⟩
  · show d.nextGlobalSequence + 1 = k * (m + 1) + 1
    rw [h.sequence]
  · show pulls (dl.events ++ _) = k + 1
    rw [hevents.pulls_append, hdl]
    show pulls (d.events ++ [_]) = k + 1
    rw [pulls, List.countP_append, ← pulls, h.pulls_eq]
    rfl
  · show received (dl.events ++ _) = _
    rw [hevents.received_append, ← h.received_eq]
    show received (d.events ++ [_]) = _
    rw [received, List.filterMap_append]
    exact List.append_nil _
  · have hlt := (List.getElem?_eq_some_iff.mp hs).1
    by_cases hi₀ : i = 0
    · subst hi₀
      refine ⟨_, List.getElem?_set_self hlt, hcomplete, ?_, ?_⟩
      · show s.metrics.elementsTotal + 1 = _
        rw [htotal]
        simp
      · rw [hqueued, helement, if_pos rfl, hcarried]
        rfl
    · obtain ⟨s', hs', hcomplete', htotal', hcontents'⟩ := h.streams i hi
      have hne : c.stream 0 ≠ c.stream i := fun heq =>
        hi₀ (c.stream_inj (Nat.zero_le m) hi heq).symm
      refine ⟨s', (List.getElem?_set_ne hne).trans hs', hcomplete', ?_, ?_⟩
      · rw [htotal', if_neg (by omega), if_neg (by omega)]
      · rw [hcontents', if_neg (by omega), if_neg (by omega)]

/-- The element under way is taken from its queue. -/
theorem Carrying.takeInput (hw : Wired t d.streams) (h : Carrying c fn clock source k (j + 1) d)
    (hj : j ≤ m) {element : OutputElement} (helement : source[k]? = some element) :
    ∃ s, d.streams[c.stream j]? = some s ∧ s.take.2.queue.contents = [] ∧
      d.takeInput ⟨c.stream j⟩ = some (carried c fn clock k element j,
        { d with
          streams := d.streams.set (c.stream j) s.take.2
          currentElementSequence := some (carried c fn clock k element j).originSequence }) := by
  obtain ⟨s, hs, -, -, hcontents⟩ := h.streams j hj
  rw [if_pos rfl, helement] at hcontents
  have hpos : 0 < s.queue.len := by
    rw [← s.queue.length_contents, hcontents]
    exact Nat.one_pos
  obtain ⟨elem, hcons, htake⟩ := FlowDriver.takeInput_of_wired hw hs hpos
  rw [hcontents] at hcons
  obtain ⟨rfl, hnil⟩ := List.cons.inj hcons
  exact ⟨s, hs, hnil.symm, htake⟩

/-- **The processor at position `j + 1` handles the element under way**, and its output is
queued on the next stream. -/
theorem Carrying.executeProcess (hindex : d.streamIndex = .build t) (hw : Wired t d.streams)
    (h : Carrying c fn clock source k (j + 1) d) (hj : j + 1 ≤ m) {element : OutputElement}
    (helement : source[k]? = some element) {r : Round} {component : ComponentId}
    (hanswer : ∀ x, r.invoker.process component x = .ok (.output (fn (c.stage (j + 1)) x))) :
    (d.executeProcess r (c.stage (j + 1)) component ⟨c.stream j⟩).2 = .ok () ∧
      Carrying c fn clock source k (j + 2)
        (d.executeProcess r (c.stage (j + 1)) component ⟨c.stream j⟩).1 := by
  obtain ⟨s, hs, hrest, htake⟩ := h.takeInput hw (by omega) helement
  set x := carried c fn clock k element j with hx
  set output := fn (c.stage (j + 1)) ⟨x.metadata, x.bufferHandle⟩ with houtput
  obtain ⟨s₁, hs₁, hcomplete₁, htotal₁, hcontents₁⟩ := h.streams (j + 1) hj
  rw [if_neg (by omega)] at hcontents₁
  have hne : c.stream j ≠ c.stream (j + 1) := fun heq => by
    have := c.stream_inj (by omega) hj heq
    omega
  set dt : FlowDriver := { d with
    streams := d.streams.set (c.stream j) s.take.2
    currentElementSequence := some x.originSequence
    events := d.events ++
      [.invoked component (.process ⟨x.metadata, x.bufferHandle⟩ (.ok (.output output)))] } with hdt
  have hexec : d.executeProcess r (c.stage (j + 1)) component ⟨c.stream j⟩ =
      (dt.pushOutput x output (c.stream (j + 1)), .ok ()) := by
    simp only [FlowDriver.executeProcess, htake, hanswer, Answer.toExcept]
    have hout : dt.streamIndex.outputs (c.stage (j + 1)) = [c.stream (j + 1)] := by
      rw [← c.outputs_eq hj, ← hindex]
    show (dt.pushAll x (FlowDriver.targets (.output output) (dt.streamIndex.outputs _)), _) = _
    rw [hout]
    rfl
  have hs₁' : dt.streams[c.stream (j + 1)]? = some s₁ := (List.getElem?_set_ne hne).trans hs₁
  have hpush := FlowDriver.pushOutput_eq x output hs₁'
  set elem := FlowDriver.stamp dt.nextGlobalSequence x.originSequence x.metadata.timestampNs output
    with helem
  have hcarried : elem = carried c fn clock k element (j + 1) := by
    rw [helem]
    show FlowDriver.stamp d.nextGlobalSequence _ _ _ = _
    rw [h.sequence]
    rfl
  obtain ⟨-, hqueued⟩ := emit_of_empty hcontents₁ elem
  rw [hexec, hpush]
  refine ⟨rfl, h.state, h.uncancelled, ?_, ?_, ?_, fun i hi => ?_⟩
  · show d.nextGlobalSequence + 1 = k * (m + 1) + (j + 2)
    rw [h.sequence]
    rfl
  · show pulls (d.events ++ [_] ++ [_]) = k + 1
    rw [List.append_assoc, Quiet.pulls_append, h.pulls_eq, if_neg (Nat.succ_ne_zero j)]
    simp [Quiet, FlowEvent.isPull, FlowEvent.pushedElement]
  · show received (d.events ++ [_] ++ [_]) = _
    rw [List.append_assoc, Quiet.received_append, h.received_eq]
    simp [Quiet, FlowEvent.isPull, FlowEvent.pushedElement]
  · have hlt := (List.getElem?_eq_some_iff.mp hs₁').1
    show ∃ s, (dt.streams.set (c.stream (j + 1)) _)[c.stream i]? = some s ∧ _
    by_cases hi₁ : i = j + 1
    · subst hi₁
      refine ⟨_, List.getElem?_set_self hlt, hcomplete₁, ?_, ?_⟩
      · show s₁.metrics.elementsTotal + 1 = _
        rw [htotal₁, if_neg (by omega), if_pos (by omega)]
      · rw [hqueued, helement, if_pos rfl, hcarried]
        rfl
    · have hne₁ : c.stream (j + 1) ≠ c.stream i := fun heq => hi₁ (c.stream_inj hj hi heq).symm
      rw [List.getElem?_set_ne hne₁]
      obtain ⟨s', hs', hcomplete', htotal', hcontents'⟩ := h.streams i hi
      have htotal'' : s'.metrics.elementsTotal = if i < j + 2 then k + 1 else k := by
        rw [htotal']
        split <;> split <;> omega
      by_cases hi₀ : i = j
      · subst hi₀
        obtain rfl : s = s' := Option.some.inj (hs.symm.trans hs')
        refine ⟨_, List.getElem?_set_self (List.getElem?_eq_some_iff.mp hs).1, hcomplete', htotal'', ?_⟩
        rw [hrest, if_neg (by omega)]
      · have hne₀ : c.stream j ≠ c.stream i := fun heq => hi₀ (c.stream_inj (by omega) hi heq).symm
        refine ⟨s', (List.getElem?_set_ne hne₀).trans hs', hcomplete', htotal'', ?_⟩
        rw [hcontents', if_neg (by omega), if_neg (by omega)]

/-- The image of one element more. -/
theorem take_image_succ {element : OutputElement} (helement : source[k]? = some element) :
    (image c fn clock source).take (k + 1) = (image c fn clock source).take k ++
      [⟨(carried c fn clock k element m).metadata, (carried c fn clock k element m).bufferHandle⟩] := by
  have hget : (image c fn clock source)[k]? = some
      ⟨(carried c fn clock k element m).metadata, (carried c fn clock k element m).bufferHandle⟩ := by
    simp [image, List.getElem?_zipIdx, helement]
  rw [List.take_add_one, hget]
  rfl

/-- **The sink receives the element under way**, and the next one is due. -/
theorem Carrying.executePush (hw : Wired t d.streams)
    (h : Carrying c fn clock source k (m + 1) d) {element : OutputElement}
    (helement : source[k]? = some element) {r : Round} {component : ComponentId}
    (hanswer : ∀ x, ∃ signal, r.invoker.push component x = .ok signal) :
    (d.executePush r component ⟨c.stream m⟩).2 = .ok () ∧
      Carrying c fn clock source (k + 1) 0 (d.executePush r component ⟨c.stream m⟩).1 := by
  obtain ⟨s, hs, hrest, htake⟩ := h.takeInput hw le_rfl helement
  set x := carried c fn clock k element m with hx
  obtain ⟨signal, hsignal⟩ := hanswer ⟨x.metadata, x.bufferHandle⟩
  have hexec : d.executePush r component ⟨c.stream m⟩ = ({ d with
      streams := d.streams.set (c.stream m) s.take.2
      currentElementSequence := some x.originSequence
      events := d.events ++ [.invoked component (.push ⟨x.metadata, x.bufferHandle⟩ (.ok signal))] ++
        [.recordFlowLatency (r.timestampNs - x.metadata.timestampNs)] }, .ok ()) := by
    simp only [FlowDriver.executePush, htake, hsignal, Answer.toExcept]
    rfl
  rw [hexec]
  refine ⟨rfl, h.state, h.uncancelled, ?_, ?_, ?_, fun i hi => ?_⟩
  · show d.nextGlobalSequence = (k + 1) * (m + 1) + 0
    rw [h.sequence]
    ring
  · show pulls (d.events ++ [_] ++ [_]) = k + 1
    rw [List.append_assoc, pulls, List.countP_append, ← pulls, h.pulls_eq,
      if_neg (Nat.succ_ne_zero m)]
    rfl
  · show received (d.events ++ [_] ++ [_]) = _
    rw [List.append_assoc, received, List.filterMap_append, ← received, h.received_eq,
      take_image_succ helement]
    rfl
  · obtain ⟨s', hs', hcomplete', htotal', hcontents'⟩ := h.streams i hi
    have htotal'' : s'.metrics.elementsTotal = if i < 0 then k + 1 + 1 else k + 1 := by
      rw [htotal', if_pos (by omega), if_neg (by omega)]
    show ∃ s₁, (d.streams.set (c.stream m) s.take.2)[c.stream i]? = some s₁ ∧ _
    by_cases him : i = m
    · subst him
      obtain rfl : s = s' := Option.some.inj (hs.symm.trans hs')
      refine ⟨_, List.getElem?_set_self (List.getElem?_eq_some_iff.mp hs).1, hcomplete', htotal'', ?_⟩
      rw [hrest, if_neg (by omega)]
    · have hne : c.stream m ≠ c.stream i := fun heq => him (c.stream_inj le_rfl hi heq).symm
      refine ⟨s', (List.getElem?_set_ne hne).trans hs', hcomplete', htotal'', ?_⟩
      rw [hcontents', if_neg (by omega), if_neg (by omega)]

end Carrying

end Torvyn.Reactor
