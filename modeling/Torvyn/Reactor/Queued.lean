/-
# The buffers in the queues

Which buffers the elements in the queues of a flow have, and what a round does to them.  An
execution takes the buffer of its input out and puts the buffer of its output in, provided that
the stage has an output stream with room; nothing else in a round moves a buffer.
-/
import Torvyn.Reactor.Record

namespace Torvyn.Reactor

/-! ## Calls -/

/-- The calls that hand an element to a component or ask one for an element. -/
def FlowEvent.isCall : FlowEvent → Bool
  | .invoked _ (.notifyBackpressure _) => false
  | .invoked _ _ => true
  | _ => false

namespace Invocation

/-- The element that a component is handed. -/
def input? : Invocation → Option StreamElement
  | .process element _ | .push element _ => some element
  | _ => none

/-- The element that a component returns. -/
def output? : Invocation → Option OutputElement
  | .pull (.ok output) => output
  | .process _ (.ok (.output output)) => some output
  | _ => none

end Invocation

/-- The buffers of the queued elements of a stream. -/
def StreamState.buffers (s : StreamState) : List BufferHandle :=
  s.queue.contents.map StreamElementRef.bufferHandle

/-- A stream with room takes the buffer of an element in. -/
theorem StreamState.buffers_emit {s : StreamState} (hroom : s.queue.len < s.queue.capacity)
    (elem : StreamElementRef) : (s.emit elem).2.buffers = s.buffers ++ [elem.bufferHandle] := by
  have hfull : ¬s.queue.isFull = true := by
    rw [BoundedQueue.isFull_iff]
    omega
  show (s.queue.push elem).2.contents.map _ = _
  rw [BoundedQueue.contents_push, if_neg hfull, List.map_append]
  rfl

/-- The first element of a queue is taken out with its buffer. -/
theorem StreamState.buffers_take {s : StreamState} {elem : StreamElementRef}
    (hpos : 0 < s.queue.len) (helem : s.take.1 = some elem) :
    s.buffers = elem.bufferHandle :: s.take.2.buffers := by
  obtain ⟨a, hpop, hcontents⟩ := BoundedQueue.pop_of_pos hpos
  obtain rfl : a = elem := Option.some.inj ((congrArg Prod.fst hpop).symm.trans helem)
  have hrest : s.take.2.queue = s.queue.dequeue hpos := congrArg Prod.snd hpop
  simp only [buffers, hcontents, hrest, List.map_cons]

namespace FlowDriver

/-! ## Queued buffers -/

/-- The buffers of all queued elements. -/
def inQueues (d : FlowDriver) : List BufferHandle := d.streams.flatMap StreamState.buffers

/-- The first output stream of a stage has room. -/
def HasRoom (d : FlowDriver) (v : ℕ) : Prop :=
  ∃ si s, (d.streamIndex.outputs v).head? = some si ∧ d.streams[si]? = some s ∧
    s.queue.len < s.queue.capacity

section Queued

variable {d d' : FlowDriver} {si : ℕ} {s s' : StreamState}

/-- What one stream has is apart from what the others have. -/
theorem inQueues_set (hs : d.streams[si]? = some s) (hstreams : d'.streams = d.streams.set si s') :
    ∃ rest, d.inQueues.Perm (s.buffers ++ rest) ∧ d'.inQueues.Perm (s'.buffers ++ rest) := by
  obtain ⟨hlt, hget⟩ := List.getElem?_eq_some_iff.mp hs
  have hlt' : si < d'.streams.length := by rwa [hstreams, List.length_set]
  have hget' : d'.streams[si] = s' := by simp only [hstreams, List.getElem_set_self]
  refine ⟨(d.streams.eraseIdx si).flatMap StreamState.buffers, ?_, ?_⟩
  · have hperm := (List.getElem_cons_eraseIdx_perm hlt).symm.flatMap_right StreamState.buffers
    rwa [hget, List.flatMap_cons] at hperm
  · have hperm := (List.getElem_cons_eraseIdx_perm hlt').symm.flatMap_right StreamState.buffers
    rw [hget', List.flatMap_cons, hstreams, List.eraseIdx_set_eq] at hperm
    rw [inQueues, hstreams]
    exact hperm

/-- Only the queues matter. -/
theorem inQueues_congr (hlength : d'.streams.length = d.streams.length)
    (hqueue : ∀ (si : ℕ) (s : StreamState), d.streams[si]? = some s →
      ∃ s', d'.streams[si]? = some s' ∧ s'.queue = s.queue) : d'.inQueues = d.inQueues := by
  have hmap : d'.streams.map StreamState.buffers = d.streams.map StreamState.buffers := by
    refine List.ext_getElem? fun si => ?_
    rw [List.getElem?_map, List.getElem?_map]
    cases hs : d.streams[si]? with
    | none =>
        have hnone : d'.streams[si]? = none := by
          rw [List.getElem?_eq_none_iff] at hs ⊢
          omega
        rw [hnone]
    | some s =>
        obtain ⟨s', hs', hsame⟩ := hqueue si s hs
        rw [hs', Option.map_some, Option.map_some]
        simp only [StreamState.buffers, hsame]
  rw [inQueues, inQueues, List.flatMap_def, List.flatMap_def, hmap]

/-- What is quiet moves no buffer. -/
theorem Quiet.inQueues_eq (h : Quiet d d') : d'.inQueues = d.inQueues :=
  inQueues_congr h.length_eq fun si s hs => by
    obtain ⟨s', hs', -, hqueue, -⟩ := h.stream si s hs
    exact ⟨s', hs', hqueue⟩

/-- What is quiet makes no call. -/
theorem Quiet.calls (h : Quiet d d') :
    ∃ more, d'.events = d.events ++ more ∧ ∀ ev ∈ more, ev.isCall = false := by
  obtain ⟨more, hevents, hmore⟩ := h.events
  refine ⟨more, hevents, fun ev hev => ?_⟩
  have hquiet := hmore ev hev
  cases ev with
  | invoked component call => cases call <;> first | rfl | cases hquiet
  | _ => rfl

/-- The input comes out of a queue. -/
theorem inQueues_takeInput {id : StreamId} {elem : StreamElementRef}
    (htake : d.takeInput id = some (elem, d')) :
    d.inQueues.Perm (elem.bufferHandle :: d'.inQueues) ∧ d'.events = d.events ∧
      ∀ v, d.HasRoom v → d'.HasRoom v := by
  rcases d.takeInput_cases id with ⟨hnone, -⟩ | ⟨sj, s, found, hs, hpos, helem, hfrom, hsome⟩
  · cases hnone.symm.trans htake
  obtain ⟨rfl, rfl⟩ := Prod.mk.inj (Option.some.inj (hsome.symm.trans htake))
  obtain ⟨rest, hbefore, hafter⟩ := @inQueues_set d { d with
    streams := d.streams.set sj s.take.2
    currentElementSequence := some found.originSequence } sj s s.take.2 hs rfl
  refine ⟨?_, rfl, ?_⟩
  · rw [StreamState.buffers_take hpos (take_of_inputElement hs hfrom helem)] at hbefore
    exact hbefore.trans (List.Perm.cons _ hafter.symm)
  · rintro v ⟨si, s', hhead, hs', hroom⟩
    by_cases hsi : sj = si
    · subst hsi
      obtain rfl := Option.some.inj (hs.symm.trans hs')
      refine ⟨sj, s.take.2, hhead, List.getElem?_set_self (List.getElem?_eq_some_iff.mp hs).1, ?_⟩
      rw [StreamState.len_take, StreamState.capacity_take]
      omega
    · exact ⟨si, s', hhead, (List.getElem?_set_ne hsi).trans hs', hroom⟩

/-- An output goes into a queue. -/
theorem inQueues_emit {elem : StreamElementRef} (hs : d.streams[si]? = some s)
    (hroom : s.queue.len < s.queue.capacity) (hqueue : s'.queue = (s.emit elem).2.queue)
    (hstreams : d'.streams = d.streams.set si s') :
    d'.inQueues.Perm (elem.bufferHandle :: d.inQueues) := by
  obtain ⟨rest, hbefore, hafter⟩ := inQueues_set hs hstreams
  have hbuffers : s'.buffers = s.buffers ++ [elem.bufferHandle] := by
    rw [← StreamState.buffers_emit hroom, StreamState.buffers, hqueue]
    rfl
  rw [hbuffers, List.append_assoc] at hafter
  exact hafter.trans (List.perm_middle.trans (List.Perm.cons _ hbefore.symm))

end Queued

/-! ## What a round does -/

/-- The call is the one that the action asks for, with the invoker's answer. -/
def Asks (r : Round) (e : StageExecution) (call : Invocation) : Prop :=
  match e.action, call with
  | .pullFromSource, .pull answer => answer = r.invoker.pull e.componentId
  | .processElement _, .process element answer => answer = r.invoker.process e.componentId element
  | .pushToSink _, .push element answer => answer = r.invoker.push e.componentId element
  | _, _ => False

/-- What a round does to the buffers in the queues: nothing, or it makes one call, takes its
input out and puts its output in. -/
inductive Exchanged (d : FlowDriver) (r : Round) (e : StageExecution) (d' : FlowDriver) : Prop
  | idle (more : List FlowEvent) : d'.events = d.events ++ more →
      (∀ ev ∈ more, ev.isCall = false) → d'.inQueues.Perm d.inQueues → Exchanged d r e d'
  | called (call : Invocation) (rest : List BufferHandle) (more : List FlowEvent) :
      Asks r e call → d'.events = d.events ++ .invoked e.componentId call :: more →
      (∀ ev ∈ more, ev.isCall = false) →
      d.inQueues.Perm ((call.input?.map StreamElement.payload).toList ++ rest) →
      d'.inQueues.Perm ((call.output?.map OutputElement.payload).toList ++ rest) →
      Exchanged d r e d'

/-- What follows a call in a round makes no call and moves no buffer. -/
theorem Exchanged.trans {d d₁ d' : FlowDriver} {r : Round} {e : StageExecution}
    (h : Exchanged d r e d₁)
    (hlogged : ∃ more, d'.events = d₁.events ++ more ∧ ∀ ev ∈ more, ev.isCall = false)
    (hsame : d'.inQueues = d₁.inQueues) : Exchanged d r e d' := by
  obtain ⟨more', hevents', hmore'⟩ := hlogged
  cases h with
  | idle more hevents hmore hqueued =>
      refine .idle (more ++ more') (by rw [hevents', hevents, List.append_assoc])
        (fun ev hev => ?_) (hsame ▸ hqueued)
      exact (List.mem_append.mp hev).elim (hmore ev) (hmore' ev)
  | called call rest more hasks hevents hmore hbefore hafter =>
      refine .called call rest (more ++ more') hasks
        (by rw [hevents', hevents, List.append_assoc, List.cons_append]) (fun ev hev => ?_) hbefore
        (hsame ▸ hafter)
      exact (List.mem_append.mp hev).elim (hmore ev) (hmore' ev)

/-- The token of a driver has nothing to do with its buffers. -/
theorem Exchanged.of_prepared {d d' : FlowDriver} {r : Round} {e : StageExecution}
    {c : FlowCancellation} (h : Exchanged (d.prepared c) r e d') : Exchanged d r e d' := by
  cases h with
  | idle more hevents hmore hqueued => exact .idle more hevents hmore hqueued
  | called call rest more hasks hevents hmore hbefore hafter =>
      exact .called call rest more hasks hevents hmore hbefore hafter

section Actions

variable {d : FlowDriver} {r : Round} {v : ℕ} {componentId : ComponentId}

theorem executePull_exchanged
    (hroom : (∃ element, r.invoker.pull componentId = .ok (some element)) → d.HasRoom v) :
    Exchanged d r ⟨componentId, v, .pullFromSource⟩ (d.executePull r v componentId).1 := by
  unfold executePull
  cases hanswer : r.invoker.pull componentId with
  | error | timeout =>
      exact .called (.pull _) d.inQueues [] hanswer.symm rfl (by simp) (.refl _) (.refl _)
  | ok output =>
      cases output with
      | none =>
          have hmarks : (markComplete (d.log (.invoked componentId (.pull (.ok none))))
              (d.streamIndex.outputs v)).inQueues = d.inQueues :=
            ((d.log (.invoked componentId (.pull (.ok none)))).quiet_markComplete _).inQueues_eq
          exact .called (.pull (.ok none)) d.inQueues [] hanswer.symm rfl (by simp) (.refl _)
            (hmarks ▸ .refl _)
      | some element =>
          obtain ⟨si, s, hhead, hs, hlt⟩ := hroom ⟨element, hanswer⟩
          simp only [Answer.toExcept, log, hhead]
          let asked := d.log (.invoked componentId (.pull (.ok (some element))))
          have hpushed := @pushPulled_eq asked si s r element hs
          have hqueued : (asked.pushPulled r element si).inQueues.Perm
              (element.payload :: d.inQueues) := by
            refine @inQueues_emit asked _ si s _
              (stamp asked.nextGlobalSequence asked.nextGlobalSequence r.timestampNs element)
              hs hlt ?_ (congrArg streams hpushed)
            split <;> rfl
          refine .called (.pull (.ok (some element))) d.inQueues _ hanswer.symm
            ((congrArg events hpushed).trans (List.append_assoc _ _ _)) (fun ev hev => ?_)
            (.refl _) hqueued
          rcases List.mem_cons.mp hev with rfl | hev
          · rfl
          · split at hev
            · cases hev
            · obtain rfl := List.mem_singleton.mp hev
              rfl

theorem executeProcess_exchanged {id : StreamId}
    (hroom : (∃ element output,
      r.invoker.process componentId element = .ok (.output output)) → d.HasRoom v)
    (hsingle : ∀ element outputs, r.invoker.process componentId element ≠ .ok (.multiple outputs)) :
    Exchanged d r ⟨componentId, v, .processElement id⟩ (d.executeProcess r v componentId id).1 := by
  unfold executeProcess
  cases htake : d.takeInput id with
  | none => exact .idle [] (List.append_nil _).symm (by simp) (.refl _)
  | some taken =>
      obtain ⟨elem, d₁⟩ := taken
      obtain ⟨hperm, hevents, hkept⟩ := inQueues_takeInput htake
      dsimp only
      cases hanswer : r.invoker.process componentId ⟨elem.metadata, elem.bufferHandle⟩ with
      | error | timeout =>
          refine .called (.process elem.toStreamElement _) d₁.inQueues [] hanswer.symm ?_ (by simp)
            hperm (.refl _)
          simp only [Answer.toExcept, log, hevents]
          rfl
      | ok result =>
          cases result with
          | filtered =>
              refine .called (.process elem.toStreamElement (.ok .filtered)) d₁.inQueues []
                hanswer.symm ?_ (by simp) hperm (.refl _)
              simp only [Answer.toExcept, log, hevents]
              rfl
          | multiple outputs => exact absurd hanswer (hsingle _ outputs)
          | output output =>
              obtain ⟨si, s, hhead, hs, hlt⟩ := hkept v (hroom ⟨_, output, hanswer⟩)
              let asked := d₁.log (.invoked componentId
                (.process elem.toStreamElement (.ok (.output output))))
              have hall : asked.pushAll elem (targets (.output output) (d₁.streamIndex.outputs v)) =
                  asked.pushOutput elem output si := by
                rw [targets, hhead]
                rfl
              have hpushed := @pushOutput_eq asked si s elem output hs
              let outRef := stamp asked.nextGlobalSequence elem.originSequence
                elem.metadata.timestampNs output
              have hqueued : (asked.pushOutput elem output si).inQueues.Perm
                  (output.payload :: d₁.inQueues) :=
                @inQueues_emit asked _ si s (s.emit outRef).2.recordEnqueue outRef hs hlt rfl
                  (congrArg streams hpushed)
              have hlogged : (asked.pushOutput elem output si).events = d.events ++
                  .invoked componentId (.process elem.toStreamElement (.ok (.output output))) ::
                    [.pushed s.id outRef (s.emit outRef).1] := by
                rw [hpushed, ← hevents]
                exact List.append_assoc _ _ _
              show Exchanged d r _
                (asked.pushAll elem (targets (.output output) (d₁.streamIndex.outputs v)))
              rw [hall]
              refine .called (.process elem.toStreamElement (.ok (.output output))) d₁.inQueues _
                hanswer.symm hlogged (fun ev hev => ?_) hperm hqueued
              obtain rfl := List.mem_singleton.mp hev
              rfl

theorem executePush_exchanged {id : StreamId} :
    Exchanged d r ⟨componentId, v, .pushToSink id⟩ (d.executePush r componentId id).1 := by
  unfold executePush
  cases htake : d.takeInput id with
  | none => exact .idle [] (List.append_nil _).symm (by simp) (.refl _)
  | some taken =>
      obtain ⟨elem, d₁⟩ := taken
      obtain ⟨hperm, hevents, -⟩ := inQueues_takeInput htake
      dsimp only
      cases hanswer : r.invoker.push componentId ⟨elem.metadata, elem.bufferHandle⟩ with
      | error | timeout =>
          refine .called (.push elem.toStreamElement _) d₁.inQueues [] hanswer.symm ?_ (by simp)
            hperm (.refl _)
          simp only [Answer.toExcept, log, hevents]
          rfl
      | ok signal =>
          refine .called (.push elem.toStreamElement (.ok signal)) d₁.inQueues
            [.recordFlowLatency (r.timestampNs - elem.metadata.timestampNs)] hanswer.symm ?_
            (by simp [FlowEvent.isCall]) hperm (.refl _)
          simp only [Answer.toExcept, log, hevents, List.append_assoc]
          rfl

end Actions

/-- What the buffers of a round depend on: a stage that returns an element has an output stream
with room, and returns one element. -/
structure Placeable (d : FlowDriver) (r : Round) (e : StageExecution) : Prop where
  room : ∀ call, Asks r e call → call.output? ≠ none → d.HasRoom e.stageIndex
  single : ∀ element outputs,
    r.invoker.process e.componentId element ≠ .ok (.multiple outputs)

/-- An execution is reported without a call. -/
theorem calls_recordExecution (d : FlowDriver) (r : Round) (e : StageExecution)
    (result : Except FlowError Unit) : ∃ more, (d.recordExecution r e result).events =
      d.events ++ more ∧ ∀ ev ∈ more, ev.isCall = false := by
  obtain ⟨startNs, endNs, status, hevents⟩ := events_recordExecution d r e result
  refine ⟨_, hevents, fun ev hev => ?_⟩
  rcases List.mem_cons.mp hev with rfl | hev
  · rfl
  · obtain ⟨seq, -, rfl⟩ := List.mem_map.mp hev
    rfl

/-- **A round that executes a stage** makes one call, takes the buffer of its input out of the
queues and puts that of its output in. -/
theorem step_exchanged {d : FlowDriver} {r : Round} {e : StageExecution}
    (hchosen : d.chosen r = some e) (hplace : Placeable d r e) : Exchanged d r e (d.step r) := by
  obtain ⟨c, hquiet⟩ := quiet_step_of_chosen hchosen
  have hacted : Exchanged (d.prepared c) r e ((d.prepared c).executeAction r e).1 := by
    obtain ⟨componentId, v, action⟩ := e
    cases action with
    | pullFromSource =>
        refine executePull_exchanged ?_
        rintro ⟨element, helement⟩
        exact hplace.room (.pull (.ok (some element))) helement.symm (by simp [Invocation.output?])
    | processElement id =>
        refine executeProcess_exchanged ?_ hplace.single
        rintro ⟨element, output, houtput⟩
        exact hplace.room (.process element (.ok (.output output))) houtput.symm
          (by simp [Invocation.output?])
    | pushToSink id => exact executePush_exchanged
  have hexecuted : Exchanged d r e ((d.withCancellation c).executeStage r e).1 := by
    refine hacted.of_prepared.trans (calls_recordExecution _ r e _) ?_
    rw [inQueues, inQueues]
    exact congrArg _ (recordExecution_frame _ r e _).1
  exact hexecuted.trans hquiet.calls hquiet.inQueues_eq

/-- A round that executes no stage makes no call. -/
theorem calls_unchosen {d : FlowDriver} {r : Round} (hchosen : d.chosen r = none) :
    ∃ more, (d.step r).events = d.events ++ more ∧ ∀ ev ∈ more, ev.isCall = false := by
  have heffect := d.step_effect r
  generalize d.step r = d' at heffect ⊢
  cases heffect with
  | quiet d' _ _ hquiet => exact hquiet.calls
  | executed e c acted result d' hsome => cases hchosen.symm.trans hsome
  | finished =>
      refine ⟨_, (List.append_assoc _ _ _).trans (List.append_assoc _ _ _), fun ev hev => ?_⟩
      rcases List.mem_append.mp hev with hev | hev
      · obtain ⟨s, -, hev⟩ := List.mem_filterMap.mp hev
        split at hev
        · cases hev
        · obtain rfl := Option.some.inj hev
          rfl
      · rcases List.mem_cons.mp hev with rfl | hev
        · rfl
        · obtain rfl := List.mem_singleton.mp hev
          rfl

/-- A round that executes no stage moves no buffer, unless the run ends. -/
theorem inQueues_unchosen {d : FlowDriver} {r : Round} (hchosen : d.chosen r = none)
    (hlive : (d.step r).state.isTerminal = false) : (d.step r).inQueues = d.inQueues := by
  have heffect := d.step_effect r
  generalize d.step r = d' at heffect hlive ⊢
  cases heffect with
  | quiet d' _ _ hquiet => exact hquiet.inQueues_eq
  | executed e c acted result d' hsome => cases hchosen.symm.trans hsome
  | finished => cases (d.isTerminal_finish r).symm.trans hlive

/-- Nothing is queued at the start. -/
theorem inQueues_start (f : BuiltFlow) : f.start.inQueues = [] := by
  obtain ⟨-, hspec⟩ := spawnStreamsFrom_spec f.built
  refine List.flatMap_eq_nil_iff.mpr fun s hs => ?_
  obtain ⟨si, hsi⟩ := List.mem_iff_getElem?.mp hs
  have hlen := (hspec si s hsi).2.2.1
  rw [← BoundedQueue.length_contents, List.length_eq_zero_iff] at hlen
  rw [StreamState.buffers, hlen, List.map_nil]

end FlowDriver

end Torvyn.Reactor
