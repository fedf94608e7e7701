/-
# What the execution of a stage does

`executeStage_executed` describes one execution by a `Transfer`: the stream an element
is taken from, the streams the answer is pushed onto, and the streams it completes.
Each stream changes only as its part of the transfer says, the rest of the driver
stays as it is, and the log says whether a push was rejected.
-/
import Torvyn.Reactor.Driver

namespace Torvyn.Reactor

/-! ## Transfers -/

/-- Which streams the execution of a stage takes from, pushes onto and completes. -/
structure Transfer where
  taken : Option ℕ
  pushed : List ℕ
  completed : List ℕ
  deriving DecidableEq, Repr

/-- The length of a queue once the element of a transfer has been taken from it. -/
def Transfer.lenAfterTake (x : Transfer) (si : ℕ) (s : StreamState) : ℕ :=
  s.queue.len - if x.taken = some si then 1 else 0

/-- How a transfer changes the stream of index `si`. -/
structure Transfer.Moves (x : Transfer) (si : ℕ) (s s' : StreamState) : Prop where
  id_eq : s'.id = s.id
  capacity_eq : s'.queue.capacity = s.queue.capacity
  backpressure_eq : s'.backpressure = s.backpressure
  complete_eq : s'.producerComplete = (s.producerComplete || decide (si ∈ x.completed))
  len_eq : s'.queue.len =
    if si ∈ x.pushed then min (x.lenAfterTake si s + 1) s.queue.capacity else x.lenAfterTake si s
  credit : s.Credit → s'.Credit

/-- A transfer changes every stream by its part of it. -/
structure Transfer.Applies (x : Transfer) (streams streams' : List StreamState) : Prop where
  length_eq : streams'.length = streams.length
  stream : ∀ (si : ℕ) (s : StreamState), streams[si]? = some s →
    ∃ s', streams'[si]? = some s' ∧ x.Moves si s s'

namespace FlowDriver

/-- The element an execution takes from the stream with this id. -/
def inputElement (d : FlowDriver) (inputStreamId : StreamId) : Option StreamElementRef :=
  (d.streams.findIdx? fun s => s.id = inputStreamId).bind fun inputSi =>
    d.streams[inputSi]?.bind fun stream => stream.take.1

/-- The streams an execution pushes its answer onto. -/
def addressed (d : FlowDriver) (r : Round) (e : StageExecution) : List ℕ :=
  let outputs := d.streamIndex.outputs e.stageIndex
  match e.action with
  | .pullFromSource =>
      match r.invoker.pull e.componentId with
      | .ok (some _) => outputs.head?.toList
      | _ => []
  | .processElement inputStream =>
      match d.inputElement inputStream with
      | none => []
      | some elemRef =>
          match r.invoker.process e.componentId ⟨elemRef.metadata, elemRef.bufferHandle⟩ with
          | .ok result => (targets result outputs).map Prod.snd
          | _ => []
  | .pushToSink _ => []

/-- The stream an execution takes its input from. -/
def takenFrom (d : FlowDriver) (e : StageExecution) : Option ℕ :=
  match e.action with
  | .pullFromSource => none
  | .processElement inputStream | .pushToSink inputStream =>
      (d.streams.findIdx? fun s => s.id = inputStream).filter fun si => hasInputAt d.streams si

/-- The streams an execution completes. -/
def completedBy (d : FlowDriver) (r : Round) (e : StageExecution) : List ℕ :=
  match e.action, r.invoker.pull e.componentId with
  | .pullFromSource, .ok none => d.streamIndex.outputs e.stageIndex
  | _, _ => []

/-- The transfer of an execution. -/
def transfer (d : FlowDriver) (r : Round) (e : StageExecution) : Transfer :=
  ⟨d.takenFrom e, d.addressed r e, d.completedBy r e⟩

/-- Whether some push so far has been rejected. -/
def rejected (d : FlowDriver) : Bool := d.events.any FlowEvent.isRejection

/-! ## What stays as it is -/

/-- A part of a driver that the execution of a stage does not touch. -/
structure Context where
  flowId : FlowId
  topology : FlowTopology
  streamIndex : StreamIndex
  cancellation : FlowCancellation
  timeouts : TimeoutConfig
  errorPolicy : ErrorPolicy
  state : FlowState
  startedAt : Option ℕ
  epochAnchor : Option (ℕ × ℕ)
  drainReason : Option CancellationReason
  drainDeadline : ℕ

/-- The context of a driver. -/
def context (d : FlowDriver) : Context where
  flowId := d.flowId
  topology := d.topology
  streamIndex := d.streamIndex
  cancellation := d.cancellation
  timeouts := d.timeouts
  errorPolicy := d.errorPolicy
  state := d.state
  startedAt := d.startedAt
  epochAnchor := d.epochAnchor
  drainReason := d.drainReason
  drainDeadline := d.drainDeadline

@[simp] theorem context_log (d : FlowDriver) (event : FlowEvent) :
    (d.log event).context = d.context := rfl

@[simp] theorem context_markComplete (d : FlowDriver) (sis : List ℕ) :
    (d.markComplete sis).context = d.context := rfl

@[simp] theorem streams_log (d : FlowDriver) (event : FlowEvent) :
    (d.log event).streams = d.streams := rfl

@[simp] theorem rejected_log (d : FlowDriver) (event : FlowEvent) :
    (d.log event).rejected = (d.rejected || event.isRejection) := by
  simp [rejected, log]

/-! ## What is logged -/

/-- What is logged on the way from `d` to `d'` discards nothing, and rejects an element
exactly when `P` holds. -/
def Logs (d d' : FlowDriver) (P : Prop) : Prop :=
  ∃ new, d'.events = d.events ++ new ∧ (∀ ev ∈ new, ev.isDiscard = false) ∧
    ((∃ ev ∈ new, ev.isRejection = true) ↔ P)

section Logs

variable {d d₁ d' : FlowDriver} {P Q : Prop}

theorem Logs.rejected (h : Logs d d' P) : d'.rejected = true ↔ d.rejected = true ∨ P := by
  obtain ⟨new, hevents, -, hnew⟩ := h
  rw [FlowDriver.rejected, hevents, List.any_append, Bool.or_eq_true, FlowDriver.rejected, ← hnew,
    List.any_eq_true (l := new)]

theorem Logs.of_events_eq (h : d'.events = d.events) : Logs d d' False :=
  ⟨[], by rw [h, List.append_nil], by simp, by simp⟩

/-- One event that discards nothing, and others that do not reject anything either. -/
theorem Logs.of_cons {ev : FlowEvent} {more : List FlowEvent}
    (h : d'.events = d.events ++ ev :: more) (hdiscard : ev.isDiscard = false)
    (hmore : ∀ ev' ∈ more, ev'.isRejection = false ∧ ev'.isDiscard = false) :
    Logs d d' (ev.isRejection = true) := by
  refine ⟨ev :: more, h, ?_, ?_⟩
  · rw [List.forall_mem_cons]
    exact ⟨hdiscard, fun ev' hev' => (hmore ev' hev').2⟩
  · simp only [List.mem_cons, exists_eq_or_imp, or_iff_left_iff_imp]
    rintro ⟨ev', hev', htrue⟩
    rw [(hmore ev' hev').1] at htrue
    cases htrue

theorem Logs.trans (h : Logs d d₁ P) (h' : Logs d₁ d' Q) : Logs d d' (P ∨ Q) := by
  obtain ⟨new, hevents, hdiscard, hnew⟩ := h
  obtain ⟨new', hevents', hdiscard', hnew'⟩ := h'
  refine ⟨new ++ new', by rw [hevents', hevents, List.append_assoc], ?_, ?_⟩
  · intro ev hev
    exact (List.mem_append.mp hev).elim (hdiscard ev) (hdiscard' ev)
  · rw [← hnew, ← hnew']
    simp only [List.mem_append, or_and_right, exists_or]

theorem Logs.congr (h : Logs d d' P) (hiff : P ↔ Q) : Logs d d' Q := by
  rwa [← propext hiff]

/-- An event that is neither a rejection nor a discard. -/
theorem Logs.log (d : FlowDriver) {ev : FlowEvent} (hrejection : ev.isRejection = false)
    (hdiscard : ev.isDiscard = false) : Logs d (d.log ev) False :=
  (Logs.of_cons rfl hdiscard (by simp)).congr (by simp [hrejection])

end Logs

/-! ## Single pushes -/

section Push

variable {d : FlowDriver} {si : ℕ} {s : StreamState}

/-- The result of emitting an element is a rejection exactly when the queue is full. -/
theorem isRejection_pushed (s : StreamState) (id : StreamId) (elem : StreamElementRef) :
    (FlowEvent.pushed id elem (s.emit elem).1).isRejection = s.queue.isFull := by
  by_cases hfull : s.queue.len = s.queue.capacity
  · have hpush := BoundedQueue.push_of_full (q := s.queue) elem hfull
    have : (s.emit elem).1 = .full elem := congrArg Prod.fst hpush
    rw [this, BoundedQueue.isFull_iff.mpr hfull]
    rfl
  · have hnot : s.queue.isFull = false := by
      rw [← Bool.not_eq_true, BoundedQueue.isFull_iff]
      exact hfull
    rw [StreamState.emit_fst_eq_ok_iff.mpr hnot, hnot]
    rfl

/-- The effect of `pushOutput`. -/
theorem pushOutput_eq (input : StreamElementRef) (output : OutputElement)
    (hs : d.streams[si]? = some s) :
    let elem := stamp d.nextGlobalSequence input.originSequence input.metadata.timestampNs output
    d.pushOutput input output si =
      { d with
        nextGlobalSequence := d.nextGlobalSequence + 1
        streams := d.streams.set si (s.emit elem).2.recordEnqueue
        events := d.events ++ [.pushed s.id elem (s.emit elem).1] } := by
  intro elem
  simp only [pushOutput, hs]
  rfl

@[simp] theorem context_pushOutput (d : FlowDriver) (input : StreamElementRef)
    (output : OutputElement) (si : ℕ) : (d.pushOutput input output si).context = d.context := by
  unfold pushOutput
  cases hs : d.streams[si]? <;> simp only [hs] <;> rfl

@[simp] theorem context_pushPulled (d : FlowDriver) (r : Round) (element : OutputElement)
    (si : ℕ) : (d.pushPulled r element si).context = d.context := by
  unfold pushPulled
  cases hs : d.streams[si]? with
  | none =>
      simp only [hs]
      rfl
  | some s =>
      simp only [hs]
      split <;> rfl

/-- The effect of `pushPulled`. -/
theorem pushPulled_eq (r : Round) (element : OutputElement) (hs : d.streams[si]? = some s) :
    let elem := stamp d.nextGlobalSequence d.nextGlobalSequence r.timestampNs element
    d.pushPulled r element si =
      { d with
        nextGlobalSequence := d.nextGlobalSequence + 1
        currentElementSequence := some d.nextGlobalSequence
        streams := d.streams.set si
          (if s.queue.isFull then (s.emit elem).2 else (s.emit elem).2.recordEnqueue)
        events := d.events ++ (.pushed s.id elem (s.emit elem).1 ::
          if s.queue.isFull then []
          else [.recordElementTransfer s.id d.nextGlobalSequence
            ((s.emit elem).2.queue.len % 2 ^ 32)]) } := by
  intro elem
  simp only [pushPulled, hs]
  by_cases hfull : s.queue.isFull = true
  · have hne : (s.emit elem).1 ≠ .ok := by
      rw [ne_eq, StreamState.emit_fst_eq_ok_iff, hfull]
      exact Bool.true_eq_false.mp
    rw [if_pos hfull, if_pos hfull]
    split
    · exact absurd ‹_› hne
    · rfl
  · have hok : (s.emit elem).1 = .ok := StreamState.emit_fst_eq_ok_iff.mpr (by simpa using hfull)
    rw [if_neg hfull, if_neg hfull]
    split
    · simp only [log, List.append_assoc, List.cons_append, List.nil_append]
      rfl
    · exact absurd hok ‹_›

end Push

/-! ## Several pushes -/

section Pushes

variable {input : StreamElementRef}

@[simp] theorem context_pushAll (ts : List (OutputElement × ℕ)) (d : FlowDriver) :
    (d.pushAll input ts).context = d.context := by
  induction ts generalizing d with
  | nil => rfl
  | cons t ts ih =>
      show ((d.pushOutput input t.1 t.2).pushAll input ts).context = d.context
      rw [ih, context_pushOutput]

@[simp] theorem length_pushAll (ts : List (OutputElement × ℕ)) (d : FlowDriver) :
    (d.pushAll input ts).streams.length = d.streams.length := by
  induction ts generalizing d with
  | nil => rfl
  | cons t ts ih =>
      show ((d.pushOutput input t.1 t.2).pushAll input ts).streams.length = d.streams.length
      rw [ih, pushOutput]
      cases hs : d.streams[t.2]? with
      | none => rfl
      | some s => exact List.length_set

/-- A stream that is not among the targets keeps its state. -/
theorem getElem?_pushAll_of_notMem (ts : List (OutputElement × ℕ)) (d : FlowDriver) {si : ℕ}
    (h : si ∉ ts.map Prod.snd) : (d.pushAll input ts).streams[si]? = d.streams[si]? := by
  induction ts generalizing d with
  | nil => rfl
  | cons t ts ih =>
      rw [List.map_cons, List.mem_cons, not_or] at h
      show ((d.pushOutput input t.1 t.2).pushAll input ts).streams[si]? = d.streams[si]?
      rw [ih _ h.2]
      cases hs : d.streams[t.2]? with
      | none => simp only [pushOutput, hs]
      | some s =>
          rw [pushOutput_eq input t.1 hs]
          exact List.getElem?_set_ne (Ne.symm h.1)

/-- A target receives one element, and some push is rejected exactly when some target
is full. -/
theorem pushAll_spec (input : StreamElementRef) (ts : List (OutputElement × ℕ)) (d : FlowDriver)
    (hnodup : (ts.map Prod.snd).Nodup) :
    (∀ si ∈ ts.map Prod.snd, ∀ s, d.streams[si]? = some s →
        ∃ elem, (d.pushAll input ts).streams[si]? = some (s.emit elem).2.recordEnqueue) ∧
      Logs d (d.pushAll input ts)
        (∃ si ∈ ts.map Prod.snd, ∃ s, d.streams[si]? = some s ∧ s.queue.isFull = true) := by
  induction ts generalizing d with
  | nil => exact ⟨by simp, (Logs.of_events_eq rfl).congr (by simp)⟩
  | cons t ts ih =>
      obtain ⟨hnot, hnodup⟩ := List.nodup_cons.mp hnodup
      obtain ⟨hstreams, hlogs⟩ := ih (d.pushOutput input t.1 t.2) hnodup
      -- the first push changes only its own stream, which the others do not touch
      have hother : ∀ si ∈ ts.map Prod.snd,
          (d.pushOutput input t.1 t.2).streams[si]? = d.streams[si]? := by
        intro si hsi
        have hne : si ∉ [t].map Prod.snd := fun h => hnot (List.mem_singleton.mp h ▸ hsi)
        exact getElem?_pushAll_of_notMem [t] d hne
      refine ⟨?_, ?_⟩
      · intro si hsi s hs
        rw [List.map_cons, List.mem_cons] at hsi
        show ∃ elem, ((d.pushOutput input t.1 t.2).pushAll input ts).streams[si]? = _
        rcases hsi with rfl | hsi
        · rw [getElem?_pushAll_of_notMem ts _ hnot, pushOutput_eq input t.1 hs]
          exact ⟨_, List.getElem?_set_self (List.getElem?_eq_some_iff.mp hs).1⟩
        · exact hstreams si hsi s (by rw [hother si hsi, hs])
      · have hrest : (∃ si ∈ ts.map Prod.snd, ∃ s,
              (d.pushOutput input t.1 t.2).streams[si]? = some s ∧ s.queue.isFull = true) ↔
            ∃ si ∈ ts.map Prod.snd, ∃ s, d.streams[si]? = some s ∧ s.queue.isFull = true := by
          constructor
          · rintro ⟨si, hsi, s, hs, hfull⟩
            exact ⟨si, hsi, s, by rwa [← hother si hsi], hfull⟩
          · rintro ⟨si, hsi, s, hs, hfull⟩
            exact ⟨si, hsi, s, by rwa [hother si hsi], hfull⟩
        have hfirst : Logs d (d.pushOutput input t.1 t.2)
            (∃ s, d.streams[t.2]? = some s ∧ s.queue.isFull = true) := by
          cases hs : d.streams[t.2]? with
          | none => exact (Logs.of_events_eq (by simp only [pushOutput, hs])).congr (by simp)
          | some s =>
              rw [pushOutput_eq input t.1 hs]
              exact (Logs.of_cons rfl rfl (by simp)).congr (by simp [isRejection_pushed])
        refine (hfirst.trans (hlogs.congr hrest)).congr ?_
        simp only [List.map_cons, List.mem_cons, exists_eq_or_imp]

end Pushes

/-! ## Taking the input -/

/-- Where an input is taken: the first stream with the id, if it holds an element. -/
theorem takeInput_cases (d : FlowDriver) (id : StreamId) :
    (d.takeInput id = none ∧ d.inputElement id = none ∧
        ((d.streams.findIdx? fun s => s.id = id).filter fun si => hasInputAt d.streams si) = none) ∨
      ∃ si s elem, d.streams[si]? = some s ∧ 0 < s.queue.len ∧ d.inputElement id = some elem ∧
        ((d.streams.findIdx? fun s => s.id = id).filter fun si => hasInputAt d.streams si)
          = some si ∧
        d.takeInput id = some (elem,
          { d with
            streams := d.streams.set si s.take.2
            currentElementSequence := some elem.originSequence }) := by
  cases hidx : d.streams.findIdx? fun s => s.id = id with
  | none => exact Or.inl ⟨by simp [takeInput, hidx], by simp [inputElement, hidx], by simp⟩
  | some si =>
      have hlt : si < d.streams.length := by
        obtain ⟨h, -⟩ := List.findIdx?_eq_some_iff_getElem.mp hidx
        exact h
      have hs : d.streams[si]? = some d.streams[si] := List.getElem?_eq_getElem hlt
      set s := d.streams[si] with hsdef
      by_cases hpos : 0 < s.queue.len
      · right
        obtain ⟨elem, hpop, -⟩ := BoundedQueue.pop_of_pos hpos
        have htake : s.take.1 = some elem := congrArg Prod.fst hpop
        have hin := (hasInputAt_of_getElem? hs).mpr hpos
        exact ⟨si, s, elem, hs, hpos, by simp [inputElement, hidx, hs, htake],
          by simp [Option.filter, hin], by simp [takeInput, hidx, hs, htake]⟩
      · left
        have hpop := BoundedQueue.pop_of_empty (q := s.queue) (by omega)
        have htake : s.take.1 = none := congrArg Prod.fst hpop
        have hin : hasInputAt d.streams si = false := by
          rw [← Bool.not_eq_true, hasInputAt_of_getElem? hs]
          exact hpos
        exact ⟨by simp [takeInput, hidx, hs, htake], by simp [inputElement, hidx, hs, htake],
          by simp [Option.filter, hin]⟩

/-- The chosen input of a wired driver is found, and its first element taken. -/
theorem takeInput_of_wired {d : FlowDriver} {t : FlowTopology} (hw : Wired t d.streams) {si : ℕ}
    {s : StreamState} (hs : d.streams[si]? = some s) (hpos : 0 < s.queue.len) :
    ∃ elem, s.queue.contents = elem :: s.take.2.queue.contents ∧
      d.takeInput ⟨si⟩ = some (elem,
        { d with
          streams := d.streams.set si s.take.2
          currentElementSequence := some elem.originSequence }) := by
  have hlt := (List.getElem?_eq_some_iff.mp hs).1
  have hfind : d.streams.findIdx? (fun s => s.id = ⟨si⟩) = some si := by
    rw [List.findIdx?_eq_some_iff_getElem]
    refine ⟨hlt, ?_, ?_⟩
    · simpa using hw.id_eq si _ (List.getElem?_eq_getElem hlt)
    · intro j hj
      have := hw.id_eq j _ (List.getElem?_eq_getElem (hj.trans hlt))
      simp [this]
      omega
  obtain ⟨elem, hpop, hcontents⟩ := BoundedQueue.pop_of_pos hpos
  have htake : s.take.1 = some elem := congrArg Prod.fst hpop
  have hrest : s.take.2.queue = s.queue.dequeue hpos := congrArg Prod.snd hpop
  exact ⟨elem, by rw [hrest, hcontents], by simp [takeInput, hfind, hs, htake]⟩

/-! ## The execution of a stage -/

/-- Marking streams complete changes nothing else. -/
theorem getElem?_markComplete (sis : List ℕ) (d : FlowDriver) (si : ℕ) :
    (d.markComplete sis).streams[si]? = d.streams[si]?.map fun s =>
      if si ∈ sis then s.markComplete else s := by
  show (sis.foldl (fun streams si => streams.modify si .markComplete) d.streams)[si]? = _
  generalize d.streams = streams
  induction sis generalizing streams with
  | nil => simp
  | cons sj sis ih =>
      rw [List.foldl_cons, ih, List.getElem?_modify]
      cases streams[si]? with
      | none => rfl
      | some s =>
          by_cases hj : sj = si
          · subst hj
            by_cases hin : sj ∈ sis <;> simp [hin, StreamState.markComplete]
          · simp [hj, Ne.symm hj]

theorem length_markComplete (sis : List ℕ) (d : FlowDriver) :
    (d.markComplete sis).streams.length = d.streams.length := by
  show (sis.foldl (fun streams si => streams.modify si .markComplete) d.streams).length = _
  generalize d.streams = streams
  induction sis generalizing streams with
  | nil => rfl
  | cons sj sis ih => rw [List.foldl_cons, ih, List.length_modify]

/-- A transfer that completes nothing, assembled from its take and its push. -/
theorem Moves_of_take_push {x : Transfer} {si : ℕ} {s s₁ s' : StreamState}
    (hcompleted : x.completed = []) (hpos : x.taken = some si → 0 < s.queue.len)
    (htake : s₁ = if x.taken = some si then s.take.2 else s)
    (hpush : if si ∈ x.pushed then
      ∃ elem, s' = (s₁.emit elem).2 ∨ s' = (s₁.emit elem).2.recordEnqueue else s' = s₁) :
    x.Moves si s s' := by
  have hs₁ : s₁.id = s.id ∧ s₁.queue.capacity = s.queue.capacity ∧
      s₁.backpressure = s.backpressure ∧ s₁.producerComplete = s.producerComplete ∧
      s₁.queue.len = x.lenAfterTake si s ∧ (s.Credit → s₁.Credit) := by
    rw [htake, Transfer.lenAfterTake]
    by_cases h : x.taken = some si
    · rw [if_pos h, if_pos h]
      exact ⟨rfl, s.capacity_take, rfl, rfl, s.len_take, fun hc => hc.take (hpos h)⟩
    · rw [if_neg h, if_neg h]
      exact ⟨rfl, rfl, rfl, rfl, rfl, id⟩
  obtain ⟨hid, hcap, hbp, hcomplete, hlen, hcredit⟩ := hs₁
  have hnone : decide (si ∈ x.completed) = false := by simp [hcompleted]
  by_cases h : si ∈ x.pushed
  · rw [if_pos h] at hpush
    obtain ⟨elem, hs'⟩ := hpush
    have hqueue : s'.queue = (s₁.emit elem).2.queue := by rcases hs' with rfl | rfl <;> rfl
    constructor
    · rcases hs' with rfl | rfl <;> exact hid
    · rw [hqueue, StreamState.capacity_emit, hcap]
    · rcases hs' with rfl | rfl <;> exact hbp
    · rw [hnone, Bool.or_false]
      rcases hs' with rfl | rfl <;> exact hcomplete
    · rw [if_pos h, hqueue, StreamState.len_emit, hlen, hcap]
    · intro hc
      have := (hcredit hc).emit elem
      rcases hs' with rfl | rfl
      · exact this
      · exact ⟨this.law, this.bound⟩
  · rw [if_neg h] at hpush
    subst hpush
    exact ⟨hid, hcap, hbp, by rw [hnone, Bool.or_false, hcomplete], by rw [if_neg h, hlen], hcredit⟩

/-- A transfer that does nothing. -/
theorem Applies_refl {x : Transfer} {streams : List StreamState} (htaken : x.taken = none)
    (hpushed : x.pushed = []) (hcompleted : x.completed = []) : x.Applies streams streams where
  length_eq := rfl
  stream := fun si s hs => by
    have htake : s = if x.taken = some si then s.take.2 else s := by simp [htaken]
    exact ⟨s, hs, Moves_of_take_push hcompleted (by simp [htaken]) htake (by simp [hpushed])⟩

/-- What an action does to the streams and to the log. -/
structure Executed (d : FlowDriver) (x : Transfer) (d' : FlowDriver) : Prop where
  applies : x.Applies d.streams d'.streams
  context : d'.context = d.context
  logs : Logs d d'
    (∃ si ∈ x.pushed, ∃ s, d.streams[si]? = some s ∧ x.lenAfterTake si s = s.queue.capacity)

/-- An action that does nothing but log. -/
theorem Executed.of_streams_eq {d d' : FlowDriver} {x : Transfer} (htaken : x.taken = none)
    (hpushed : x.pushed = []) (hcompleted : x.completed = []) (hstreams : d'.streams = d.streams)
    (hcontext : d'.context = d.context) (hlogs : Logs d d' False) :
    Executed d x d' where
  applies := by
    rw [hstreams]
    exact Applies_refl htaken hpushed hcompleted
  context := hcontext
  logs := hlogs.congr (by simp [hpushed])

section Stage

variable (d : FlowDriver) (r : Round) (stageIdx : ℕ) (componentId : ComponentId)

/-- The effect of pushing a pulled element. -/
theorem pushPulled_executed (element : OutputElement) (si : ℕ) :
    Executed d ⟨none, [si], []⟩ (d.pushPulled r element si) := by
  refine ⟨?_, context_pushPulled d r element si, ?_⟩
  · cases hs : d.streams[si]? with
    | none =>
        have hstreams : (d.pushPulled r element si).streams = d.streams := by
          simp only [pushPulled, hs]
        rw [hstreams]
        refine ⟨rfl, fun sj s hsj => ⟨s, hsj, Moves_of_take_push rfl (by simp) rfl ?_⟩⟩
        have hne : sj ∉ [si] := by
          intro hmem
          rw [List.mem_singleton.mp hmem, hs] at hsj
          cases hsj
        rw [if_neg hne]
        rfl
    | some s =>
        rw [pushPulled_eq r element hs]
        refine ⟨List.length_set, fun sj s' hsj => ?_⟩
        by_cases hj : si = sj
        · subst hj
          obtain rfl : s = s' := Option.some.inj (hs.symm.trans hsj)
          refine ⟨_, List.getElem?_set_self (List.getElem?_eq_some_iff.mp hs).1,
            Moves_of_take_push rfl (by simp) rfl ?_⟩
          rw [if_pos (List.mem_singleton_self si)]
          by_cases hfull : s.queue.isFull = true
          · exact ⟨_, Or.inl (if_pos hfull)⟩
          · exact ⟨_, Or.inr (if_neg hfull)⟩
        · refine ⟨s', (List.getElem?_set_ne hj).trans hsj, Moves_of_take_push rfl (by simp) rfl ?_⟩
          have hne : sj ∉ [si] := fun hmem => hj (List.mem_singleton.mp hmem).symm
          rw [if_neg hne]
          rfl
  · cases hs : d.streams[si]? with
    | none => exact (Logs.of_events_eq (by simp only [pushPulled, hs])).congr (by simp [hs])
    | some s =>
        refine (Logs.of_cons (congrArg events (pushPulled_eq r element hs)) rfl ?_).congr ?_
        · by_cases hfull : s.queue.isFull = true <;>
            simp [hfull, FlowEvent.isRejection, FlowEvent.isDiscard]
        · rw [isRejection_pushed, BoundedQueue.isFull_iff]
          simp [hs, Transfer.lenAfterTake]

/-- **The transfer of a pull.** -/
theorem executePull_executed :
    Executed d (d.transfer r ⟨componentId, stageIdx, .pullFromSource⟩)
      (d.executePull r stageIdx componentId).1 := by
  cases hanswer : r.invoker.pull componentId with
  | error | timeout =>
      exact .of_streams_eq rfl (by simp [transfer, addressed, hanswer])
        (by simp [transfer, completedBy, hanswer]) (by simp [executePull, hanswer, Answer.toExcept])
        (by simp [executePull, hanswer, Answer.toExcept])
        (by simp only [executePull, hanswer, Answer.toExcept]; exact .log d rfl rfl)
  | ok output =>
      set dl := d.log (.invoked componentId (.pull (.ok output))) with hdl
      have hlog : Logs d dl False := .log d rfl rfl
      cases output with
      | none =>
          have hx : d.transfer r ⟨componentId, stageIdx, .pullFromSource⟩
              = ⟨none, [], d.streamIndex.outputs stageIdx⟩ := by
            simp [transfer, takenFrom, addressed, completedBy, hanswer]
          have hd : (d.executePull r stageIdx componentId).1 =
              dl.markComplete (d.streamIndex.outputs stageIdx) := by
            simp only [executePull, hanswer, Answer.toExcept]
            rfl
          rw [hx, hd]
          refine ⟨⟨length_markComplete _ _, fun si s hs => ?_⟩, rfl, hlog.congr (by simp)⟩
          refine ⟨_, by rw [getElem?_markComplete, streams_log, hs, Option.map_some], ?_⟩
          by_cases hin : si ∈ d.streamIndex.outputs stageIdx
          · rw [if_pos hin]
            exact ⟨rfl, rfl, rfl, by simp [hin, StreamState.markComplete],
              by simp [Transfer.lenAfterTake, StreamState.markComplete],
              fun hc => ⟨hc.law, hc.bound⟩⟩
          · rw [if_neg hin]
            exact ⟨rfl, rfl, rfl, by simp [hin], by simp [Transfer.lenAfterTake], id⟩
      | some element =>
          cases hhead : (d.streamIndex.outputs stageIdx).head? with
          | none =>
              have hd : (d.executePull r stageIdx componentId).1 = dl := by
                simp [executePull, hanswer, Answer.toExcept, hhead, log, hdl]
              rw [hd]
              exact .of_streams_eq rfl (by simp [transfer, addressed, hanswer, hhead])
                (by simp [transfer, completedBy, hanswer]) rfl rfl hlog
          | some si =>
              have hx : d.transfer r ⟨componentId, stageIdx, .pullFromSource⟩ = ⟨none, [si], []⟩ := by
                simp [transfer, takenFrom, addressed, completedBy, hanswer, hhead]
              have hd : (d.executePull r stageIdx componentId).1 = dl.pushPulled r element si := by
                simp [executePull, hanswer, Answer.toExcept, hhead, log, hdl]
              have hex := pushPulled_executed dl r element si
              rw [hx, hd]
              exact ⟨hex.applies, hex.context, (hlog.trans hex.logs).congr (false_or _).to_iff⟩

/-- An action that takes an element and pushes onto distinct streams. -/
theorem takePush_executed {d d₁ : FlowDriver} {x : Transfer} {si : ℕ} {s : StreamState}
    (input : StreamElementRef) (ts : List (OutputElement × ℕ)) (hs : d.streams[si]? = some s)
    (hpos : 0 < s.queue.len) (htaken : x.taken = some si) (hcompleted : x.completed = [])
    (hpushed : x.pushed = ts.map Prod.snd) (hnodup : (ts.map Prod.snd).Nodup)
    (hd₁ : d₁.streams = d.streams.set si s.take.2) (hcontext : d₁.context = d.context)
    (hlogs : Logs d d₁ False) : Executed d x (d₁.pushAll input ts) := by
  obtain ⟨hstreams, hpush⟩ := pushAll_spec input ts d₁ hnodup
  have hlt := (List.getElem?_eq_some_iff.mp hs).1
  -- the streams after the take
  have htake : ∀ (sj : ℕ) (s' : StreamState), d.streams[sj]? = some s' →
      d₁.streams[sj]? = some (if x.taken = some sj then s'.take.2 else s') := by
    intro sj s' hs'
    rw [hd₁, htaken]
    by_cases hj : si = sj
    · subst hj
      obtain rfl : s = s' := Option.some.inj (hs.symm.trans hs')
      rw [if_pos rfl, List.getElem?_set_self hlt]
    · rw [if_neg (fun h => hj (Option.some.inj h)), List.getElem?_set_ne hj, hs']
  refine ⟨⟨?_, ?_⟩, by rw [context_pushAll, hcontext], ?_⟩
  · rw [length_pushAll, hd₁, List.length_set]
  · intro sj s' hs'
    have h₁ := htake sj s' hs'
    have hposj : x.taken = some sj → 0 < s'.queue.len := by
      intro h
      obtain rfl : si = sj := Option.some.inj (htaken.symm.trans h)
      obtain rfl : s = s' := Option.some.inj (hs.symm.trans hs')
      exact hpos
    by_cases hj : sj ∈ ts.map Prod.snd
    · obtain ⟨out, hout⟩ := hstreams sj hj _ h₁
      refine ⟨_, hout, Moves_of_take_push hcompleted hposj rfl ?_⟩
      rw [hpushed, if_pos hj]
      exact ⟨out, Or.inr rfl⟩
    · refine ⟨_, (getElem?_pushAll_of_notMem ts d₁ hj).trans h₁,
        Moves_of_take_push hcompleted hposj rfl ?_⟩
      rw [hpushed, if_neg hj]
  · rw [hpushed]
    refine (hlogs.trans hpush).congr ?_
    rw [false_or]
    have hlen : ∀ (sj : ℕ) (s' : StreamState),
        (if x.taken = some sj then s'.take.2 else s').queue.isFull = true ↔
          x.lenAfterTake sj s' = s'.queue.capacity := by
      intro sj s'
      rw [BoundedQueue.isFull_iff, Transfer.lenAfterTake]
      split_ifs <;> simp
    constructor
    · rintro ⟨sj, hsj, s₁, hs₁, hfull⟩
      cases hs' : d.streams[sj]? with
      | none =>
          have hge := List.getElem?_eq_none_iff.mp hs'
          have hlt' := (List.getElem?_eq_some_iff.mp hs₁).1
          rw [hd₁, List.length_set] at hlt'
          omega
      | some s' =>
          obtain rfl := Option.some.inj (hs₁.symm.trans (htake sj s' hs'))
          exact ⟨sj, hsj, s', hs', (hlen sj s').mp hfull⟩
    · rintro ⟨sj, hsj, s', hs', hfull⟩
      exact ⟨sj, hsj, _, htake sj s' hs', (hlen sj s').mpr hfull⟩

/-- The streams a result is pushed onto are listed as the outputs of the stage are. -/
theorem targets_sublist (result : ProcessResult) (outputs : List ℕ) :
    ((targets result outputs).map Prod.snd).Sublist outputs := by
  cases result with
  | output output => cases outputs <;> simp [targets]
  | filtered => simp [targets]
  | multiple elements =>
      show ((elements.zip outputs).map Prod.snd).Sublist outputs
      induction elements generalizing outputs with
      | nil => simp
      | cons element elements ih =>
          cases outputs with
          | nil => simp
          | cons o outputs => exact (ih outputs).cons_cons o

/-- **The transfer of a processor invocation.** -/
theorem executeProcess_executed (inputStream : StreamId)
    (hnodup : (d.streamIndex.outputs stageIdx).Nodup) :
    Executed d (d.transfer r ⟨componentId, stageIdx, .processElement inputStream⟩)
      (d.executeProcess r stageIdx componentId inputStream).1 := by
  rcases d.takeInput_cases inputStream with
    ⟨htake, helem, hfrom⟩ | ⟨si, s, elem, hs, hpos, helem, hfrom, htake⟩
  · exact .of_streams_eq hfrom (by simp [transfer, addressed, helem]) rfl
      (by simp [executeProcess, htake]) (by simp [executeProcess, htake])
      (.of_events_eq (by simp [executeProcess, htake]))
  · cases hanswer : r.invoker.process componentId ⟨elem.metadata, elem.bufferHandle⟩ with
    | error | timeout =>
        have hx : (d.transfer r ⟨componentId, stageIdx, .processElement inputStream⟩).pushed = [] := by
          simp [transfer, addressed, helem, hanswer]
        simp only [executeProcess, htake, hanswer, Answer.toExcept]
        exact takePush_executed elem [] hs hpos hfrom rfl hx List.nodup_nil rfl
          rfl (.log _ rfl rfl)
    | ok result =>
        have hx : (d.transfer r ⟨componentId, stageIdx, .processElement inputStream⟩).pushed =
            (targets result (d.streamIndex.outputs stageIdx)).map Prod.snd := by
          simp [transfer, addressed, helem, hanswer]
        simp only [executeProcess, htake, hanswer, Answer.toExcept]
        exact takePush_executed elem _ hs hpos hfrom rfl hx ((targets_sublist _ _).nodup hnodup) rfl rfl
          (.log _ rfl rfl)

/-- **The transfer of a push to a sink.** -/
theorem executePush_executed (inputStream : StreamId) :
    Executed d (d.transfer r ⟨componentId, stageIdx, .pushToSink inputStream⟩)
      (d.executePush r componentId inputStream).1 := by
  rcases d.takeInput_cases inputStream with
    ⟨htake, -, hfrom⟩ | ⟨si, s, elem, hs, hpos, -, hfrom, htake⟩
  · exact .of_streams_eq hfrom rfl rfl (by simp [executePush, htake])
      (by simp [executePush, htake]) (.of_events_eq (by simp [executePush, htake]))
  · have hd : ∃ d₁ : FlowDriver, d₁ = (d.executePush r componentId inputStream).1 ∧
        d₁.streams = d.streams.set si s.take.2 ∧ d₁.context = d.context ∧
        Logs d d₁ False := by
      refine ⟨_, rfl, ?_⟩
      simp only [executePush, htake]
      cases r.invoker.push componentId ⟨elem.metadata, elem.bufferHandle⟩ with
      | error | timeout => exact ⟨rfl, rfl, .log _ rfl rfl⟩
      | ok => exact ⟨rfl, rfl, ((Logs.log _ rfl rfl).trans (.log _ rfl rfl)).congr (by simp)⟩
    obtain ⟨d₁, hd₁, hstreams, hcontext, hlogs⟩ := hd
    rw [← hd₁]
    exact takePush_executed elem [] hs hpos hfrom rfl rfl (by simp) hstreams
      hcontext hlogs

end Stage

/-- Recording an execution touches neither streams nor context. -/
theorem recordExecution_frame (d : FlowDriver) (r : Round) (e : StageExecution)
    (result : Except FlowError Unit) :
    (d.recordExecution r e result).streams = d.streams ∧
      (d.recordExecution r e result).context = d.context ∧
      Logs d (d.recordExecution r e result) False := by
  unfold recordExecution
  simp only
  split
  · exact ⟨rfl, rfl, ((Logs.log _ rfl rfl).trans (.log _ rfl rfl)).congr (by simp)⟩
  · exact ⟨rfl, rfl, .log _ rfl rfl⟩

/-- An execution is reported, and so is the element it handled, if there was one. -/
theorem events_recordExecution (d : FlowDriver) (r : Round) (e : StageExecution)
    (result : Except FlowError Unit) :
    ∃ startNs endNs status, (d.recordExecution r e result).events =
      d.events ++ .recordInvocation e.componentId startNs endNs status ::
        d.currentElementSequence.toList.map fun seq =>
          .recordElementSpan e.componentId seq startNs endNs status := by
  unfold recordExecution
  cases hseq : d.currentElementSequence with
  | none =>
      dsimp only [log]
      exact ⟨_, _, _, rfl⟩
  | some seq =>
      dsimp only [log]
      exact ⟨_, _, _, List.append_assoc _ _ _⟩

/-- **The execution of a stage is its transfer.** -/
theorem executeStage_executed (d : FlowDriver) (r : Round) (e : StageExecution)
    (hnodup : (d.streamIndex.outputs e.stageIndex).Nodup) :
    Executed d (d.transfer r e) (d.executeStage r e).1 := by
  set d₀ : FlowDriver := { d with currentElementSequence := none } with hd₀
  have haction : Executed d₀ (d.transfer r e) (d₀.executeAction r e).1 := by
    obtain ⟨componentId, stageIdx, action⟩ := e
    cases action with
    | pullFromSource => exact executePull_executed d₀ r stageIdx componentId
    | processElement id => exact executeProcess_executed d₀ r stageIdx componentId id hnodup
    | pushToSink id => exact executePush_executed d₀ r stageIdx componentId id
  obtain ⟨hstreams, hcontext, hlogs⟩ :=
    recordExecution_frame (d₀.executeAction r e).1 r e (d₀.executeAction r e).2
  exact ⟨by rw [executeStage, hstreams]; exact haction.applies,
    by rw [executeStage, hcontext]; exact haction.context,
    (haction.logs.trans hlogs).congr (or_false _).to_iff⟩

end FlowDriver

end Torvyn.Reactor
