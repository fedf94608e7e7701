/-
# What a round does to single elements

`Acted` lists what the action of a stage can do: it takes an element, asks the component
and pushes the answer.  A part of a round that neither moves an element nor speaks of one is
`Quiet`.  `step_effect` puts a round together from the two, and the laws about single elements
are derived from it.
-/
import Torvyn.Reactor.Loss

namespace Torvyn.Reactor

/-- The events that do not speak of an element that a component has been asked about. -/
def FlowEvent.isQuiet : FlowEvent → Bool
  | .invoked _ (.notifyBackpressure _) => true
  | .invoked _ _ | .pushed _ _ _ | .recordElementSpan _ _ _ _ _ => false
  | _ => true

/-- The events that the action of a stage can log. -/
def FlowEvent.isOfAction : FlowEvent → Bool
  | .invoked _ (.notifyBackpressure _) => false
  | .invoked _ _ | .pushed _ _ _ | .recordElementTransfer _ _ _ | .recordFlowLatency _ => true
  | _ => false

/-- The events that an execution of a stage can log. -/
def FlowEvent.isOfStage : FlowEvent → Bool
  | .invoked _ (.notifyBackpressure _) => false
  | .invoked _ _ | .pushed _ _ _ | .recordElementTransfer _ _ _ | .recordFlowLatency _ => true
  | .recordInvocation _ _ _ _ | .recordElementSpan _ _ _ _ _ => true
  | _ => false

/-- The events that a check of the streams can log, with the notifications that follow it. -/
def FlowEvent.isNotice : FlowEvent → Bool
  | .recordBackpressure _ _ _ _ | .invoked _ (.notifyBackpressure _) => true
  | _ => false

/-- The events that a check of the streams can log, with all that follows it in a round. -/
def FlowEvent.isOfCheck : FlowEvent → Bool
  | .recordBackpressure _ _ _ _ | .invoked _ (.notifyBackpressure _) | .flowYielded _ => true
  | _ => false

/-- The form in which a queued element is handed to a component. -/
def StreamElementRef.toStreamElement (elem : StreamElementRef) : StreamElement :=
  ⟨elem.metadata, elem.bufferHandle⟩

namespace FlowDriver

/-! ## Actions -/

/-- The driver once the first element of a stream has been taken as the input. -/
def taking (d : FlowDriver) (si : ℕ) (s : StreamState) (elem : StreamElementRef) : FlowDriver :=
  { d with
    streams := d.streams.set si s.take.2
    currentElementSequence := some elem.originSequence }

/-- What the action of a stage can do. -/
inductive Acted (d : FlowDriver) (r : Round) (e : StageExecution) : FlowDriver → Prop
  /-- there is no input -/
  | starved : d.takenFrom e = none → d.addressed r e = [] → Acted d r e d
  /-- a source answers with an error, or with an element that has nowhere to go -/
  | asked (answer : Answer (Option OutputElement)) :
      d.takenFrom e = none → d.addressed r e = [] →
      Acted d r e (d.log (.invoked e.componentId (.pull answer)))
  | exhausted (sis : List ℕ) : d.takenFrom e = none → d.addressed r e = [] →
      Acted d r e ((d.log (.invoked e.componentId (.pull (.ok none)))).markComplete sis)
  | produced (element : OutputElement) (si : ℕ) : e.action = .pullFromSource →
      d.takenFrom e = none → d.addressed r e = [si] →
      si ∈ d.streamIndex.outputs e.stageIndex →
      Acted d r e
        ((d.log (.invoked e.componentId (.pull (.ok (some element))))).pushPulled r element si)
  | processed (si : ℕ) (s : StreamState) (elem : StreamElementRef) (answer : Answer ProcessResult)
      (ts : List (OutputElement × ℕ)) (id : StreamId) : e.action = .processElement id →
      d.takenFrom e = some si → d.addressed r e = ts.map Prod.snd →
      d.streams[si]? = some s → 0 < s.queue.len → s.take.1 = some elem →
      Acted d r e (((d.taking si s elem).log
        (.invoked e.componentId (.process elem.toStreamElement answer))).pushAll elem ts)
  /-- a sink has been asked, and answered or not -/
  | consumed (si : ℕ) (s : StreamState) (elem : StreamElementRef)
      (answer : Answer BackpressureSignal) (latency : Option ℕ) :
      d.takenFrom e = some si → d.addressed r e = [] →
      d.streams[si]? = some s → 0 < s.queue.len → s.take.1 = some elem →
      Acted d r e { (d.taking si s elem) with
        events := d.events ++ .invoked e.componentId (.push elem.toStreamElement answer) ::
          latency.toList.map .recordFlowLatency }

/-- The input is the first element of its stream. -/
theorem take_of_inputElement {d : FlowDriver} {id : StreamId} {si : ℕ} {s : StreamState}
    {elem : StreamElementRef} (hs : d.streams[si]? = some s)
    (hfrom : ((d.streams.findIdx? fun s => s.id = id).filter fun si => hasInputAt d.streams si) =
      some si) (helem : d.inputElement id = some elem) : s.take.1 = some elem := by
  obtain ⟨hidx, -⟩ := Option.filter_eq_some_iff.mp hfrom
  simpa [inputElement, hidx, hs] using helem

section Acted

variable (d : FlowDriver) (r : Round) (stageIdx : ℕ) (componentId : ComponentId)

theorem executePull_acted :
    Acted d r ⟨componentId, stageIdx, .pullFromSource⟩ (d.executePull r stageIdx componentId).1 := by
  have htaken : d.takenFrom ⟨componentId, stageIdx, .pullFromSource⟩ = none := rfl
  unfold executePull
  cases hanswer : r.invoker.pull componentId with
  | error | timeout => exact .asked _ htaken (by simp [addressed, hanswer])
  | ok output =>
      cases output with
      | none => exact .exhausted _ htaken (by simp [addressed, hanswer])
      | some element =>
          simp only [Answer.toExcept]
          cases hhead : (d.streamIndex.outputs stageIdx).head? with
          | none =>
              have haddressed : d.addressed r ⟨componentId, stageIdx, .pullFromSource⟩ = [] := by
                simp [addressed, hanswer, hhead]
              simp only [log, hhead]
              exact .asked _ htaken haddressed
          | some si =>
              have haddressed : d.addressed r ⟨componentId, stageIdx, .pullFromSource⟩ = [si] := by
                simp [addressed, hanswer, hhead]
              simp only [log, hhead]
              exact .produced element si rfl htaken haddressed (List.mem_of_head? hhead)

theorem executeProcess_acted (inputStream : StreamId) :
    Acted d r ⟨componentId, stageIdx, .processElement inputStream⟩
      (d.executeProcess r stageIdx componentId inputStream).1 := by
  unfold executeProcess
  rcases d.takeInput_cases inputStream with
    ⟨htake, helem, hfrom⟩ | ⟨si, s, elem, hs, hpos, helem, hfrom, htake⟩
  · simp only [htake]
    exact .starved hfrom (by simp [addressed, helem])
  · have hfirst : s.take.1 = some elem := take_of_inputElement hs hfrom helem
    simp only [htake]
    cases hanswer : r.invoker.process componentId ⟨elem.metadata, elem.bufferHandle⟩ with
    | error | timeout =>
        exact .processed si s elem _ [] inputStream rfl hfrom (by simp [addressed, helem, hanswer]) hs hpos hfirst
    | ok result =>
        exact .processed si s elem _ (targets result (d.streamIndex.outputs stageIdx)) inputStream rfl
          hfrom (by simp [addressed, helem, hanswer]) hs hpos hfirst

theorem executePush_acted (inputStream : StreamId) :
    Acted d r ⟨componentId, stageIdx, .pushToSink inputStream⟩
      (d.executePush r componentId inputStream).1 := by
  unfold executePush
  rcases d.takeInput_cases inputStream with
    ⟨htake, helem, hfrom⟩ | ⟨si, s, elem, hs, hpos, helem, hfrom, htake⟩
  · simp only [htake]
    exact .starved hfrom rfl
  · have hfirst : s.take.1 = some elem := take_of_inputElement hs hfrom helem
    simp only [htake]
    cases r.invoker.push componentId ⟨elem.metadata, elem.bufferHandle⟩ with
    | error | timeout => exact .consumed si s elem _ none hfrom rfl hs hpos hfirst
    | ok signal =>
        have hevents : ∀ latency, d.events ++ [FlowEvent.invoked componentId
            (.push elem.toStreamElement (.ok signal))] ++ [.recordFlowLatency latency] =
            d.events ++ .invoked componentId (.push elem.toStreamElement (.ok signal)) ::
              (some latency).toList.map .recordFlowLatency :=
          fun latency => List.append_assoc _ _ _
        have hacted : Acted d r ⟨componentId, stageIdx, .pushToSink inputStream⟩ _ :=
          .consumed si s elem (.ok signal) (some (r.timestampNs - elem.metadata.timestampNs))
            hfrom rfl hs hpos hfirst
        rw [← hevents] at hacted
        exact hacted

/-- **The action of a stage.** -/
theorem executeAction_acted (e : StageExecution) : Acted d r e (d.executeAction r e).1 := by
  obtain ⟨componentId, stageIdx, action⟩ := e
  cases action with
  | pullFromSource => exact d.executePull_acted r stageIdx componentId
  | processElement id => exact d.executeProcess_acted r stageIdx componentId id
  | pushToSink id => exact d.executePush_acted r stageIdx componentId id

end Acted

/-! ## Quiet parts -/

/-- Between the two states no element is moved, counted or stamped, and nothing that is logged
speaks of one. -/
structure Quiet (d d' : FlowDriver) : Prop where
  length_eq : d'.streams.length = d.streams.length
  stream : ∀ (si : ℕ) (s : StreamState), d.streams[si]? = some s →
    ∃ s', d'.streams[si]? = some s' ∧ s'.id = s.id ∧ s'.queue = s.queue ∧
      s'.metrics.elementsTotal = s.metrics.elementsTotal
  streamIndex : d'.streamIndex = d.streamIndex
  sequence : d'.nextGlobalSequence = d.nextGlobalSequence
  events : ∃ more, d'.events = d.events ++ more ∧ ∀ ev ∈ more, ev.isQuiet = true

namespace Quiet

variable {d d₁ d' : FlowDriver}

/-- Without a change of the streams only the log matters. -/
theorem of_streams_eq (more : List FlowEvent) (hstreams : d'.streams = d.streams)
    (hindex : d'.streamIndex = d.streamIndex) (hseq : d'.nextGlobalSequence = d.nextGlobalSequence)
    (hevents : d'.events = d.events ++ more) (hmore : ∀ ev ∈ more, ev.isQuiet = true) :
    Quiet d d' :=
  ⟨by rw [hstreams], fun si s hs => ⟨s, hstreams ▸ hs, rfl, rfl, rfl⟩, hindex, hseq,
    more, hevents, hmore⟩

theorem trans (h : Quiet d d₁) (h' : Quiet d₁ d') : Quiet d d' := by
  obtain ⟨more, hevents, hmore⟩ := h.events
  obtain ⟨more', hevents', hmore'⟩ := h'.events
  refine ⟨h'.length_eq.trans h.length_eq, fun si s hs => ?_, h'.streamIndex.trans h.streamIndex,
    h'.sequence.trans h.sequence, more ++ more', ?_, ?_⟩
  · obtain ⟨s₁, hs₁, hid₁, hqueue₁, htotal₁⟩ := h.stream si s hs
    obtain ⟨s', hs', hid', hqueue', htotal'⟩ := h'.stream si s₁ hs₁
    exact ⟨s', hs', hid'.trans hid₁, hqueue'.trans hqueue₁, htotal'.trans htotal₁⟩
  · rw [hevents', hevents, List.append_assoc]
  · intro ev hev
    exact (List.mem_append.mp hev).elim (hmore ev) (hmore' ev)

/-- Streams of which some have been marked complete. -/
theorem of_marks {marked : ℕ → Prop} (hmarks : Marks marked d.streams d'.streams)
    (hindex : d'.streamIndex = d.streamIndex) (hseq : d'.nextGlobalSequence = d.nextGlobalSequence)
    (hevents : d'.events = d.events) : Quiet d d' := by
  refine ⟨hmarks.length_eq, fun si s hs => ?_, hindex, hseq, [], by simpa using hevents, by simp⟩
  rcases hmarks.stream si s hs with ⟨-, hs'⟩ | ⟨-, hs'⟩
  · exact ⟨_, hs', rfl, rfl, rfl⟩
  · exact ⟨_, hs', rfl, rfl, rfl⟩

end Quiet

section QuietSteps

variable (d : FlowDriver) (r : Round)

theorem quiet_cancelled (c : FlowCancellation) : Quiet d (d.withCancellation c) :=
  .of_streams_eq [] rfl rfl rfl (List.append_nil _).symm (by simp)

theorem quiet_markComplete (sis : List ℕ) : Quiet d (d.markComplete sis) :=
  .of_marks (d.marks_markComplete sis) rfl rfl rfl

theorem quiet_propagateStage (v : ℕ) : Quiet d (d.propagateStage v) := by
  refine .of_marks (d.propagateStage_marks v) (congrArg Context.streamIndex (d.context_propagateStage v))
    ?_ (d.events_propagateStage v)
  unfold propagateStage
  simp only
  split
  · rfl
  · split <;> rfl

theorem quiet_markSource (v : ℕ) : Quiet d (d.markSource v) := by
  unfold markSource
  split
  · exact d.quiet_markComplete _
  · exact d.quiet_cancelled d.cancellation

/-- A quiet change for each of a list of stages. -/
theorem quiet_foldl {f : FlowDriver → ℕ → FlowDriver} (hf : ∀ d v, Quiet d (f d v)) (vs : List ℕ) :
    Quiet d (vs.foldl f d) := by
  induction vs generalizing d with
  | nil => exact d.quiet_cancelled d.cancellation
  | cons v vs ih => exact (hf d v).trans (ih _)

theorem quiet_propagateProducerComplete : Quiet d d.propagateProducerComplete :=
  d.quiet_foldl quiet_propagateStage _

theorem quiet_beginDrain : Quiet d (d.beginDrain r) := by
  have hmarks : Quiet d d.markSourcesComplete := d.quiet_foldl quiet_markSource _
  exact hmarks.trans (.of_streams_eq _ rfl rfl rfl rfl (by simp [FlowEvent.isQuiet]))

/-- A check and the notifications after it log nothing else. -/
theorem notified_events : ∃ more,
    ((d.checkBackpressureAll r).1.notifyProducers (d.checkBackpressureAll r).2).events =
      d.events ++ more ∧ ∀ ev ∈ more, ev.isNotice = true := by
  refine ⟨_, List.append_assoc _ _ _, fun ev hev => ?_⟩
  rcases List.mem_append.mp hev with hev | hev
  · obtain ⟨⟨signal, s⟩, -, hev⟩ := List.mem_filterMap.mp hev
    obtain ⟨signal', -, rfl⟩ := Option.map_eq_some_iff.mp hev
    rfl
  · obtain ⟨⟨si, signal⟩, -, hev⟩ := List.mem_filterMap.mp hev
    obtain ⟨v, -, hev⟩ := Option.bind_eq_some_iff.mp hev
    obtain ⟨stage, -, hev⟩ := Option.bind_eq_some_iff.mp hev
    split at hev
    · obtain rfl := Option.some.inj hev
      rfl
    · cases hev

/-- A check, the notifications after it and the yield log nothing else. -/
theorem afterStage_events : ∃ more, (d.afterStage r).events = d.events ++ more ∧
    ∀ ev ∈ more, ev.isOfCheck = true := by
  obtain ⟨rest, hrest, hyield⟩ : ∃ rest, (d.afterStage r).events =
      ((d.checkBackpressureAll r).1.notifyProducers (d.checkBackpressureAll r).2).events ++ rest ∧
      ∀ ev ∈ rest, ev.isOfCheck = true := by
    unfold afterStage yieldCheck
    simp only
    split
    · exact ⟨[_], rfl, by simp [FlowEvent.isOfCheck]⟩
    · exact ⟨[], (List.append_nil _).symm, by simp⟩
  obtain ⟨more, hmore, hnotice⟩ := d.notified_events r
  refine ⟨more ++ rest, by rw [hrest, hmore, List.append_assoc], fun ev hev => ?_⟩
  rcases List.mem_append.mp hev with hev | hev
  · have hcheck := hnotice ev hev
    cases ev with
    | invoked componentId call => cases call <;> first | rfl | cases hcheck
    | _ => first | rfl | cases hcheck
  · exact hyield ev hev

theorem quiet_afterStage : Quiet d (d.afterStage r) := by
  obtain ⟨hstreams, hcontext, -⟩ := d.afterStage_frame r
  obtain ⟨more, hevents, hmore⟩ := d.afterStage_events r
  refine ⟨?_, fun si s hs => ?_, congrArg Context.streamIndex hcontext, ?_, more, hevents,
    fun ev hev => ?_⟩
  · rw [hstreams, checkAll, List.length_map]
  · obtain ⟨hid, hqueue, -, -, htotal⟩ := s.checkBackpressure_frame r.finish
    refine ⟨(s.checkBackpressure r.finish).2, ?_, hid, hqueue, htotal⟩
    rw [hstreams, checkAll, List.getElem?_map, hs, Option.map_some]
  · unfold afterStage yieldCheck
    simp only
    split <;> rfl
  · have hcheck := hmore ev hev
    cases ev with
    | invoked componentId call => cases call <;> first | rfl | cases hcheck
    | _ => first | rfl | cases hcheck

end QuietSteps

/-! ## Rounds -/

/-- A driver that is about to execute a stage, with whatever token it has then. -/
def prepared (d : FlowDriver) (c : FlowCancellation) : FlowDriver :=
  { d with cancellation := c, currentElementSequence := none }

/-- What a round can do: nothing to any element, the action of the chosen stage, or the end of
the run. -/
inductive Effect (d : FlowDriver) (r : Round) : FlowDriver → Prop
  | quiet (d' : FlowDriver) : d.chosen r = none → d.state ≠ .draining → Quiet d d' → Effect d r d'
  | executed (e : StageExecution) (c : FlowCancellation) (acted : FlowDriver)
      (result : Except FlowError Unit) (d' : FlowDriver) : d.chosen r = some e →
      Acted (d.prepared c) r e acted → Quiet (acted.recordExecution r e result) d' →
      Effect d r d'
  | finished : d.chosen r = none → d.state = .draining → Effect d r (d.finish r)

/-- **Every round.** -/
theorem step_effect (d : FlowDriver) (r : Round) : Effect d r (d.step r) := by
  have hexecute : ∀ (c : FlowCancellation) (e : StageExecution),
      ∃ acted result, Acted (d.prepared c) r e acted ∧
        ((d.withCancellation c).executeStage r e).1 = acted.recordExecution r e result :=
    fun c e => ⟨_, _, executeAction_acted (d.prepared c) r e, rfl⟩
  by_cases hrun : d.state = .running
  · rcases step_running hrun r with ⟨hcancel, hstep⟩ | ⟨e, c, hcancel, he, hstep⟩ | ⟨c, hnone, hstep⟩
    · rw [hstep]
      refine .quiet _ (by simp only [chosen, hrun, if_pos hcancel]) (by simp [hrun]) ?_
      exact (d.quiet_cancelled _).trans (quiet_beginDrain _ r)
    · have hchosen : d.chosen r = some e := by
        simp only [chosen, hrun, hcancel, Bool.false_eq_true, if_false, he]
      obtain ⟨acted, result, hacted, hexecuted⟩ :=
        hexecute (d.cancelBy r.cancelBefore).cancellation e
      have hexecuted : ((d.cancelBy r.cancelBefore).executeStage r e).1 =
          acted.recordExecution r e result := hexecuted
      refine .executed e _ acted result _ hchosen hacted ?_
      rcases hstep with hstep | hstep
      · rw [hstep, hexecuted]
        exact (quiet_cancelled _ c).trans (quiet_beginDrain _ r)
      · rw [hstep, hexecuted]
        exact (quiet_cancelled _ c).trans (quiet_afterStage _ r)
    · have hchosen : d.chosen r = none := by
        simp only [chosen, hrun, hnone, ite_self]
      have hpropagated : Quiet d ((d.cancelBy r.cancelBefore).propagateProducerComplete) :=
        (d.quiet_cancelled _).trans (quiet_propagateProducerComplete _)
      refine .quiet _ hchosen (by simp [hrun]) ?_
      rcases hstep with hstep | hstep
      · rw [hstep]
        exact (hpropagated.trans (quiet_cancelled _ c)).trans (quiet_beginDrain _ r)
      · rw [hstep]
        exact hpropagated.trans (quiet_cancelled _ c)
  · by_cases hdrain : d.state = .draining
    · rcases step_draining hdrain r with ⟨e, hlt, he, hstep⟩ | ⟨hnone, hstep⟩
      · have hchosen : d.chosen r = some e := by
          simp only [chosen, hdrain, if_pos hlt, he]
        obtain ⟨acted, result, hacted, hexecuted⟩ := hexecute d.cancellation e
        have hexecuted : (d.executeStage r e).1 = acted.recordExecution r e result := hexecuted
        rw [hstep, hexecuted]
        exact .executed e _ acted result _ hchosen hacted (quiet_cancelled _ _)
      · have hchosen : d.chosen r = none := by
          simp only [chosen, hdrain]
          split
          · exact hnone ‹_›
          · rfl
        rw [hstep]
        exact .finished hchosen hdrain
    · rw [step_of_not_live hrun hdrain]
      refine .quiet _ ?_ hdrain (d.quiet_cancelled d.cancellation)
      unfold chosen
      split
      · exact absurd ‹_› hrun
      · exact absurd ‹_› hdrain
      · rfl

/-- A round that executes a stage executes one that is ready, in a live state. -/
theorem ready_of_chosen {d : FlowDriver} {r : Round} {e : StageExecution}
    (h : d.chosen r = some e) :
    (d.state = .running ∨ d.state = .draining) ∧ d.nextReady = some e := by
  unfold chosen at h
  split at h
  · split_ifs at h
    exact ⟨.inl ‹_›, h⟩
  · split_ifs at h
    exact ⟨.inr ‹_›, h⟩
  · cases h

/-- After the execution of the chosen stage the round leaves the queues alone. -/
theorem quiet_step_of_chosen {d : FlowDriver} {r : Round} {e : StageExecution}
    (h : d.chosen r = some e) :
    ∃ c, Quiet ((d.withCancellation c).executeStage r e).1 (d.step r) := by
  by_cases hrun : d.state = .running
  · rcases step_running hrun r with ⟨hcancel, -⟩ | ⟨e', c, hcancel, he, hstep⟩ | ⟨c, hnone, -⟩
    · simp only [chosen, hrun, if_pos hcancel] at h
      cases h
    · simp only [chosen, hrun, hcancel, Bool.false_eq_true, if_false, he] at h
      obtain rfl := Option.some.inj h
      refine ⟨(d.cancelBy r.cancelBefore).cancellation, ?_⟩
      rcases hstep with hstep | hstep
      · rw [hstep]
        exact (quiet_cancelled _ c).trans (quiet_beginDrain _ r)
      · rw [hstep]
        exact (quiet_cancelled _ c).trans (quiet_afterStage _ r)
    · simp only [chosen, hrun, hnone, ite_self] at h
      cases h
  · have hdrain : d.state = .draining := (ready_of_chosen h).1.resolve_left hrun
    rcases step_draining hdrain r with ⟨e', hbefore, he, hstep⟩ | ⟨hidle, -⟩
    · simp only [chosen, hdrain, if_pos hbefore, he] at h
      obtain rfl := Option.some.inj h
      refine ⟨d.cancellation, ?_⟩
      rw [hstep]
      exact quiet_cancelled _ _
    · simp only [chosen, hdrain] at h
      split at h
      · rw [hidle ‹_›] at h
        cases h
      · cases h

theorem length_pushPulled (d : FlowDriver) (r : Round) (element : OutputElement) (si : ℕ) :
    (d.pushPulled r element si).streams.length = d.streams.length := by
  cases hs : d.streams[si]? with
  | none => simp only [pushPulled, hs]
  | some s =>
      rw [pushPulled_eq r element hs]
      exact List.length_set

/-- No action adds or removes a stream. -/
theorem Acted.length_eq {d d' : FlowDriver} {r : Round} {e : StageExecution}
    (h : Acted d r e d') : d'.streams.length = d.streams.length := by
  cases h with
  | starved => rfl
  | asked answer => rfl
  | exhausted sis => exact length_markComplete sis _
  | produced element si => exact length_pushPulled _ r element si
  | processed si s elem answer ts => exact (length_pushAll ts _).trans List.length_set
  | consumed si s elem answer latency => exact List.length_set

section Logged

variable {d d₁ d' : FlowDriver}

/-- Between the two states only events of an action have been logged. -/
def ActionLogged (d d' : FlowDriver) : Prop :=
  ∃ more, d'.events = d.events ++ more ∧ ∀ ev ∈ more, ev.isOfAction = true

theorem ActionLogged.of_events_eq (h : d'.events = d.events) : ActionLogged d d' :=
  ⟨[], by rw [h, List.append_nil], by simp⟩

theorem ActionLogged.trans (h : ActionLogged d d₁) (h' : ActionLogged d₁ d') : ActionLogged d d' := by
  obtain ⟨more, hevents, hmore⟩ := h
  obtain ⟨more', hevents', hmore'⟩ := h'
  refine ⟨more ++ more', by rw [hevents', hevents, List.append_assoc], fun ev hev => ?_⟩
  exact (List.mem_append.mp hev).elim (hmore ev) (hmore' ev)

theorem actionLogged_pushPulled (d : FlowDriver) (r : Round) (element : OutputElement) (si : ℕ) :
    ActionLogged d (d.pushPulled r element si) := by
  cases hs : d.streams[si]? with
  | none => exact .of_events_eq (by simp only [pushPulled, hs])
  | some s =>
      refine ⟨_, congrArg FlowDriver.events (pushPulled_eq r element hs), fun ev hev => ?_⟩
      rcases List.mem_cons.mp hev with rfl | hev
      · rfl
      · split at hev
        · cases hev
        · obtain rfl := List.mem_singleton.mp hev
          rfl

theorem actionLogged_pushAll (input : StreamElementRef) (ts : List (OutputElement × ℕ))
    (d : FlowDriver) : ActionLogged d (d.pushAll input ts) := by
  induction ts generalizing d with
  | nil => exact .of_events_eq rfl
  | cons t ts ih =>
      have hone : ActionLogged d (d.pushOutput input t.1 t.2) := by
        cases hs : d.streams[t.2]? with
        | none => exact .of_events_eq (by simp only [pushOutput, hs])
        | some s =>
            refine ⟨_, congrArg FlowDriver.events (pushOutput_eq input t.1 hs), fun ev hev => ?_⟩
            obtain rfl := List.mem_singleton.mp hev
            rfl
      exact hone.trans (ih _)

theorem Acted.actionLogged {r : Round} {e : StageExecution} (h : Acted d r e d') :
    ActionLogged d d' := by
  cases h with
  | starved => exact .of_events_eq rfl
  | asked answer => exact ⟨_, rfl, by simp [FlowEvent.isOfAction]⟩
  | exhausted sis => exact ⟨_, rfl, by simp [FlowEvent.isOfAction]⟩
  | produced element si =>
      have hasked : ActionLogged d (d.log (.invoked e.componentId (.pull (.ok (some element))))) :=
        ⟨_, rfl, by simp [FlowEvent.isOfAction]⟩
      exact hasked.trans (actionLogged_pushPulled _ r element si)
  | processed si s elem answer ts =>
      have hasked : ActionLogged d ((d.taking si s elem).log
          (.invoked e.componentId (.process elem.toStreamElement answer))) :=
        ⟨_, rfl, by simp [FlowEvent.isOfAction]⟩
      exact hasked.trans (actionLogged_pushAll elem ts _)
  | consumed si s elem answer latency =>
      refine ⟨_, rfl, fun ev hev => ?_⟩
      rcases List.mem_cons.mp hev with rfl | hev
      · rfl
      · obtain ⟨latency, -, rfl⟩ := List.mem_map.mp hev
        rfl

/-- **What an execution logs**: the events of its action, one report of the execution, and the
span of the element it handled, if there was one. -/
theorem executeStage_events (d : FlowDriver) (r : Round) (e : StageExecution) :
    ∃ acted startNs endNs status, ∃ seqs : List ℕ,
      (d.executeStage r e).1.events = d.events ++ acted ++
        .recordInvocation e.componentId startNs endNs status ::
          seqs.map (.recordElementSpan e.componentId · startNs endNs status) ∧
      ∀ ev ∈ acted, ev.isOfAction = true := by
  obtain ⟨acted, hacted, hmore⟩ :=
    (executeAction_acted (d.prepared d.cancellation) r e).actionLogged
  obtain ⟨startNs, endNs, status, hevents⟩ :=
    events_recordExecution ((d.prepared d.cancellation).executeAction r e).1 r e
      ((d.prepared d.cancellation).executeAction r e).2
  rw [hacted] at hevents
  exact ⟨acted, startNs, endNs, status, _, hevents, hmore⟩

/-- Between the two states only events of an execution have been logged. -/
def StageLogged (d d' : FlowDriver) : Prop :=
  ∃ more, d'.events = d.events ++ more ∧ ∀ ev ∈ more, ev.isOfStage = true

theorem stageLogged_executeStage (d : FlowDriver) (r : Round) (e : StageExecution) :
    StageLogged d (d.executeStage r e).1 := by
  obtain ⟨acted, startNs, endNs, status, seqs, hevents, hacted⟩ := d.executeStage_events r e
  refine ⟨_, hevents.trans (List.append_assoc _ _ _), fun ev hev => ?_⟩
  rcases List.mem_append.mp hev with hev | hev
  · have haction := hacted ev hev
    cases ev with
    | invoked componentId call => cases call <;> first | rfl | cases haction
    | _ => first | rfl | cases haction
  · rcases List.mem_cons.mp hev with rfl | hev
    · rfl
    · obtain ⟨seq, -, rfl⟩ := List.mem_map.mp hev
      rfl

end Logged

/-- No action touches the context. -/
theorem Acted.context_eq {d d' : FlowDriver} {r : Round} {e : StageExecution}
    (h : Acted d r e d') : d'.context = d.context := by
  cases h with
  | starved | asked | exhausted | consumed => rfl
  | produced element si => exact context_pushPulled _ r element si
  | processed si s elem answer ts => exact context_pushAll ts _

theorem context_executeStage (d : FlowDriver) (r : Round) (e : StageExecution) :
    (d.executeStage r e).1.context = d.context := by
  have hacted := (executeAction_acted (d.prepared d.cancellation) r e).context_eq
  exact (recordExecution_frame _ r e _).2.1.trans hacted

/-- No round adds or removes a stream. -/
theorem length_step (d : FlowDriver) (r : Round) : (d.step r).streams.length = d.streams.length := by
  have heffect := d.step_effect r
  generalize d.step r = d' at heffect ⊢
  cases heffect with
  | quiet d' _ _ hquiet => exact hquiet.length_eq
  | executed e c acted result d' _ hacted hquiet =>
      rw [hquiet.length_eq, (recordExecution_frame acted r e result).1]
      exact hacted.length_eq
  | finished => exact List.length_map _

theorem length_run (d : FlowDriver) (rounds : List Round) :
    (d.run rounds).streams.length = d.streams.length := by
  induction rounds generalizing d with
  | nil => rfl
  | cons r rounds ih => exact (ih _).trans (d.length_step r)

end FlowDriver

end Torvyn.Reactor
