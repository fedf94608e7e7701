/-
# Runs as data flow

A run of a flow is a run of a network of processes.  Its calls, each with the stage that it was
made for and the element that had been taken for it, account for all that the streams carry: what
a call returns is offered on the output streams of its stage, a single output on the first of
them and the `i`-th of several on the `i`-th, and what has been accepted on a stream is taken by
the calls of the stage that the stream feeds (`runs_are_networks`).  Which call comes next is a
matter of the scheduler, the policies and the times; what the calls do to the data is not.

So a stage whose component computes a function of the elements is a function of streams, and a
path of such stages carries the images of what goes in at its beginning (`path_image`).
-/
import Torvyn.Reactor.Channels
import Torvyn.Reactor.LinearRun

namespace Torvyn.Reactor

/-! ## Calls -/

/-- What components and streams pass on of an element: its payload, and the type of its content. -/
abbrev Content := BufferHandle × String

def outputContent (output : OutputElement) : Content :=
  (output.payload, output.metadata.contentType)

def inputContent (x : StreamElement) : Content := (x.payload, x.metadata.contentType)

def StreamElementRef.content (elem : StreamElementRef) : Content :=
  (elem.bufferHandle, elem.metadata.contentType)

/-- What a call returns for the stream of index `si`, by the output streams of its stage. -/
def Invocation.outputsOn (outputs : List ℕ) (si : ℕ) : Invocation → List OutputElement
  | .pull (.ok (some element)) => if outputs.head? = some si then [element] else []
  | .process _ (.ok result) =>
      ((FlowDriver.targets result outputs).filter fun p => p.2 = si).map Prod.fst
  | _ => []

/-- The call is one that the reactor makes to a component of the role. -/
def Invocation.isOfRole : ComponentRole → Invocation → Bool
  | .source, .pull _ | .sink, .push _ _ => true
  | .processor, .process _ _ | .filter, .process _ _ | .router, .process _ _ => true
  | _, _ => false

/-- A call of the component of a stage, with the element that has been taken for it and the stream
it came from. -/
structure Call where
  stage : ℕ
  component : ComponentId
  taken : Option (ℕ × StreamElementRef)
  invocation : Invocation

namespace Call

/-- What the call offers on a stream. -/
def offers (t : FlowTopology) (si : ℕ) (call : Call) : List Content :=
  (call.invocation.outputsOn ((StreamIndex.build t).outputs call.stage) si).map
    outputContent

/-- The call is one of its stage: of its component, in its role, and for an element of a stream
that feeds it. -/
structure Fits (t : FlowTopology) (call : Call) : Prop where
  stage : ∃ s, t.stages[call.stage]? = some s ∧ s.componentId = call.component ∧
    call.invocation.isOfRole s.role = true
  input : call.invocation.input? = call.taken.map fun p => p.2.toStreamElement
  feeds : ∀ p, call.taken = some p → p.1 ∈ (StreamIndex.build t).inputs call.stage

end Call

/-! ## What the log says of them -/

namespace FlowEvent

/-- The call that an event records. -/
def called? : FlowEvent → Option (ComponentId × Invocation)
  | .invoked _ (.notifyBackpressure _) => none
  | .invoked component call => some (component, call)
  | _ => none

/-- An element that a stream did not take as offered. -/
def isRefusal : FlowEvent → Bool
  | .pushed _ _ result => result != .ok
  | _ => false

/-- What an event says has been offered on a stream, whether or not there was room for it. -/
def offeredOn (id : StreamId) : FlowEvent → Option Content
  | .pushed id' elem _ => if id' = id then some elem.content else none
  | _ => none

end FlowEvent

/-- The calls in a log. -/
def calledIn (events : List FlowEvent) : List (ComponentId × Invocation) :=
  events.filterMap FlowEvent.called?

/-- What has been offered on a stream, in order. -/
def offered (events : List FlowEvent) (id : StreamId) : List Content :=
  events.filterMap (FlowEvent.offeredOn id)

section Log

variable {events more : List FlowEvent}

theorem calledIn_append (events more : List FlowEvent) :
    calledIn (events ++ more) = calledIn events ++ calledIn more := List.filterMap_append

theorem offered_append (events more : List FlowEvent) (id : StreamId) :
    offered (events ++ more) id = offered events id ++ offered more id := List.filterMap_append

theorem calledIn_quiet (hquiet : ∀ ev ∈ more, ev.isQuiet = true) : calledIn more = [] := by
  refine List.filterMap_eq_nil_iff.mpr fun ev hev => ?_
  have h := hquiet ev hev
  cases ev with
  | invoked component call =>
      cases call with
      | notifyBackpressure => rfl
      | pull | process | push => cases h
  | _ => rfl

theorem offered_quiet (hquiet : ∀ ev ∈ more, ev.isQuiet = true) (id : StreamId) :
    offered more id = [] := by
  refine List.filterMap_eq_nil_iff.mpr fun ev hev => ?_
  have h := hquiet ev hev
  cases ev with
  | pushed => cases h
  | _ => rfl

end Log

namespace FlowDriver

variable {t : FlowTopology} {calls : List Call} {taken : List (ℕ × StreamElementRef)}
  {d d' : FlowDriver}

/-! ## Pushes -/

/-- The pushes of a result offer each of its outputs on its stream, and call nobody. -/
theorem offered_pushAll (h : Channelled t taken d) (input : StreamElementRef)
    (ts : List (OutputElement × ℕ)) (hlt : ∀ p ∈ ts, p.2 < d.streams.length) :
    calledIn (d.pushAll input ts).events = calledIn d.events ∧
      ∀ si, offered (d.pushAll input ts).events ⟨si⟩ = offered d.events ⟨si⟩ ++
        ((ts.filter fun p => p.2 = si).map Prod.fst).map outputContent := by
  induction ts generalizing d with
  | nil => exact ⟨rfl, fun si => (List.append_nil _).symm⟩
  | cons p ts ih =>
      have hs := List.getElem?_eq_getElem (hlt p List.mem_cons_self)
      have hid := h.id_eq p.2 _ hs
      have hpush := pushOutput_eq input p.1 hs
      have hnext : Channelled t taken (d.pushOutput input p.1 p.2) := h.pushAll [p] input
      have hlength : (d.pushOutput input p.1 p.2).streams.length = d.streams.length := by
        rw [hpush]
        exact List.length_set
      obtain ⟨hcalled, hoffered⟩ := ih hnext fun q hq =>
        hlength ▸ hlt q (List.mem_cons_of_mem _ hq)
      have hall : d.pushAll input (p :: ts) = (d.pushOutput input p.1 p.2).pushAll input ts := rfl
      rw [hall]
      refine ⟨?_, fun si => ?_⟩
      · rw [hcalled, hpush, calledIn_append]
        exact List.append_nil _
      · rw [hoffered, hpush, offered_append, hid, List.append_assoc]
        congr 1
        by_cases hsi : p.2 = si
        · subst hsi
          simp [offered, FlowEvent.offeredOn, stamp, StreamElementRef.content,
            outputContent]
        · simp [offered, FlowEvent.offeredOn, hsi]

/-- The push of an element that was pulled. -/
theorem offered_pushPulled (h : Channelled t taken d) (r : Round) (element : OutputElement)
    {si : ℕ} (hlt : si < d.streams.length) :
    calledIn (d.pushPulled r element si).events = calledIn d.events ∧
      ∀ sj, offered (d.pushPulled r element si).events ⟨sj⟩ = offered d.events ⟨sj⟩ ++
        if si = sj then [outputContent element] else [] := by
  have hs := List.getElem?_eq_getElem hlt
  have hid := h.id_eq si _ hs
  have hpush := pushPulled_eq r element hs
  have hrest : ∀ ev ∈ (if d.streams[si].queue.isFull then [] else [FlowEvent.recordElementTransfer
      d.streams[si].id d.nextGlobalSequence ((d.streams[si].emit (stamp d.nextGlobalSequence
        d.nextGlobalSequence r.timestampNs element)).2.queue.len % 2 ^ 32)]),
      ev.isQuiet = true := by
    intro ev hev
    split at hev
    · cases hev
    · rw [List.mem_singleton.mp hev]
      rfl
  have hcons : ∀ (ev : FlowEvent) (more : List FlowEvent), ev :: more = [ev] ++ more :=
    fun _ _ => rfl
  rw [hpush]
  refine ⟨?_, fun sj => ?_⟩
  · rw [calledIn_append, hcons, calledIn_append, calledIn_quiet hrest]
    exact List.append_nil _
  · rw [offered_append, hcons, offered_append, offered_quiet hrest, List.append_nil, hid]
    congr 1
    by_cases hsj : si = sj
    · subst hsj
      simp [offered, FlowEvent.offeredOn, stamp, StreamElementRef.content, outputContent]
    · simp [offered, FlowEvent.offeredOn, hsj]

/-! ## The network of a run -/

/-- The calls account for the log and for all streams. -/
structure Networked (t : FlowTopology) (calls : List Call) (d : FlowDriver) : Prop where
  channelled : Channelled t (calls.filterMap Call.taken) d
  called : calledIn d.events = calls.map fun call => (call.component, call.invocation)
  offered : ∀ si, offered d.events ⟨si⟩ = calls.flatMap (Call.offers t si)
  fits : ∀ call ∈ calls, call.Fits t

namespace Networked

/-- Quiet parts of a round add nothing. -/
theorem quiet (h : Networked t calls d) (hquiet : Quiet d d') (hkept : Kept d d') :
    Networked t calls d' := by
  have hchannelled := h.channelled.of_quiet hquiet (List.append_nil _).symm hkept
  obtain ⟨more, hevents, hmore⟩ := hquiet.events
  refine ⟨hchannelled, ?_, fun si => ?_, h.fits⟩
  · rw [hevents, calledIn_append, calledIn_quiet hmore, List.append_nil, h.called]
  · rw [hevents, offered_append, offered_quiet hmore, List.append_nil, h.offered]

/-- One more call. -/
theorem snoc (h : Networked t calls d) {call : Call}
    (hchannelled : Channelled t ((calls ++ [call]).filterMap Call.taken) d')
    (hcalled : calledIn d'.events = calledIn d.events ++ [(call.component, call.invocation)])
    (hoffered : ∀ si, Torvyn.Reactor.offered d'.events ⟨si⟩ =
      Torvyn.Reactor.offered d.events ⟨si⟩ ++ call.offers t si)
    (hfits : call.Fits t) : Networked t (calls ++ [call]) d' where
  channelled := hchannelled
  called := by rw [hcalled, h.called, List.map_append, List.map_singleton]
  offered si := by rw [hoffered, h.offered, List.flatMap_append, List.flatMap_singleton]
  fits := by
    intro call' hmem
    rcases List.mem_append.mp hmem with hold | hnew
    · exact h.fits call' hold
    · exact List.mem_singleton.mp hnew ▸ hfits

/-- A source that is asked takes nothing. -/
theorem channelled_asked (h : Networked t calls d) (c : ComponentId)
    (answer : Answer (Option OutputElement)) :
    Channelled t (calls.filterMap Call.taken) (d.log (.invoked c (.pull answer))) := by
  refine h.channelled.of_streams_eq _ rfl rfl fun ev hev => ?_
  rw [List.mem_singleton.mp hev]
  exact ⟨fun _ => rfl, fun _ => ite_self none, fun _ => rfl⟩

/-- A source is asked for an element. -/
theorem executePull (h : Networked t calls d) (hindex : d.streamIndex = .build t)
    (hw : Wired t d.streams) (r : Round) {v : ℕ} {stage : StageDefinition}
    (hstage : t.stages[v]? = some stage) (hrole : stage.role = .source) :
    ∃ last, Networked t (calls ++ last) (d.executePull r v stage.componentId).1 := by
  have hfits : ∀ answer, Call.Fits t ⟨v, stage.componentId, none, .pull answer⟩ := fun answer =>
    ⟨⟨stage, hstage, rfl, by rw [hrole]; rfl⟩, rfl, fun p hp => by cases hp⟩
  generalize stage.componentId = c at hfits ⊢
  have htaken : ∀ answer, (calls ++ [(⟨v, c, none, .pull answer⟩ : Call)]).filterMap Call.taken =
      calls.filterMap Call.taken := by
    intro answer
    rw [List.filterMap_append]
    exact List.append_nil _
  -- a call whose answer is offered nowhere
  have hasked : ∀ answer, (∀ si, Call.offers t si ⟨v, c, none, .pull answer⟩ = []) →
      Networked t (calls ++ [⟨v, c, none, .pull answer⟩])
        (d.log (.invoked c (.pull answer))) := by
    intro answer hoffers
    refine h.snoc ?_ (calledIn_append _ _) (fun si => ?_) (hfits answer)
    · rw [htaken]
      exact h.channelled_asked c answer
    · rw [hoffers]
      exact offered_append _ _ _
  unfold FlowDriver.executePull
  cases hanswer : r.invoker.pull c with
  | error | timeout => exact ⟨_, hasked _ fun si => rfl⟩
  | ok output =>
      cases output with
      | none =>
          exact ⟨_, (hasked (.ok none) fun si => rfl).quiet (quiet_markComplete _ _)
            (.of_events_eq rfl)⟩
      | some element =>
          simp only [Answer.toExcept]
          cases hhead : (d.streamIndex.outputs v).head? with
          | none =>
              simp only [log, hhead]
              refine ⟨_, hasked (.ok (some element)) fun si => ?_⟩
              simp [Call.offers, Invocation.outputsOn, ← hindex, hhead]
          | some si =>
              simp only [log, hhead]
              have hmem : si ∈ (StreamIndex.build t).outputs v := hindex ▸ List.mem_of_head? hhead
              have hlog := h.channelled_asked c (.ok (some element))
              obtain ⟨hcalled, hoffered⟩ :=
                offered_pushPulled hlog r element (hw.lt_of_mem_outputs hmem)
              refine ⟨[⟨v, c, none, .pull (.ok (some element))⟩], h.snoc ?_ ?_ (fun sj => ?_)
                (hfits _)⟩
              · rw [htaken]
                exact hlog.pushPulled r element si
              · exact hcalled.trans (calledIn_append _ _)
              · refine (hoffered sj).trans ?_
                have hlogged : Torvyn.Reactor.offered (d.log (.invoked c
                    (.pull (.ok (some element))))).events ⟨sj⟩ =
                    Torvyn.Reactor.offered d.events ⟨sj⟩ :=
                  (offered_append _ _ _).trans (List.append_nil _)
                rw [hlogged]
                congr 1
                simp only [Call.offers, Invocation.outputsOn, ← hindex, hhead, Option.some.injEq]
                split <;> rfl

/-- The element that has been taken for a call, with the stream it came from. -/
theorem filterMap_taken_snoc (calls : List Call) (call : Call) (p : ℕ × StreamElementRef)
    (h : call.taken = some p) :
    (calls ++ [call]).filterMap Call.taken = calls.filterMap Call.taken ++ [p] := by
  rw [List.filterMap_append]
  simp [h]

/-- A processor is handed an element. -/
theorem executeProcess (h : Networked t calls d) (hindex : d.streamIndex = .build t)
    (hw : Wired t d.streams) (r : Round) {v : ℕ} {stage : StageDefinition} {id : StreamId}
    (hstage : t.stages[v]? = some stage) (hrole : stage.role ≠ .source ∧ stage.role ≠ .sink)
    (hfeeds : ∀ si, d.takenFrom ⟨stage.componentId, v, .processElement id⟩ = some si →
      si ∈ (StreamIndex.build t).inputs v) :
    ∃ last, Networked t (calls ++ last) (d.executeProcess r v stage.componentId id).1 := by
  have hrole' : ∀ x answer, (Invocation.process x answer).isOfRole stage.role = true := by
    intro x answer
    cases hcases : stage.role with
    | source => exact absurd hcases hrole.1
    | sink => exact absurd hcases hrole.2
    | processor | filter | router => rfl
  unfold FlowDriver.executeProcess
  rcases d.takeInput_cases id with
    ⟨htake, -, -⟩ | ⟨si, s, elem, hs, hpos, helem, hfrom, htake⟩
  · -- there is nothing to take, and nobody is called
    simp only [htake]
    exact ⟨[], by rwa [List.append_nil]⟩
  · have hinput := hfeeds si hfrom
    have hconsumer := consumerOf_eq hinput hstage
    have hfirst : s.take.1 = some elem := take_of_inputElement hs hfrom helem
    simp only [htake]
    generalize r.invoker.process stage.componentId ⟨elem.metadata, elem.bufferHandle⟩ = answer
    have htaken : Channelled t (calls.filterMap Call.taken ++ [(si, elem)])
        ((d.taking si s elem).log
          (.invoked stage.componentId (.process elem.toStreamElement answer))) :=
      h.channelled.take hs hpos hfirst hconsumer rfl rfl rfl (by simp)
    have hfits : Call.Fits t
        ⟨v, stage.componentId, some (si, elem), .process elem.toStreamElement answer⟩ :=
      ⟨⟨stage, hstage, rfl, hrole' _ _⟩, rfl, fun p hp => by cases hp; exact hinput⟩
    have hlogged : ∀ sj, Torvyn.Reactor.offered ((d.taking si s elem).log
        (.invoked stage.componentId (.process elem.toStreamElement answer))).events ⟨sj⟩ =
        Torvyn.Reactor.offered d.events ⟨sj⟩ :=
      fun sj => (offered_append _ _ _).trans (List.append_nil _)
    refine ⟨[⟨v, stage.componentId, some (si, elem), .process elem.toStreamElement answer⟩], ?_⟩
    cases answer with
    | error | timeout =>
        -- the element is gone, and nothing is offered for it
        refine h.snoc ?_ (calledIn_append _ _) (fun sj => ?_) hfits
        · rw [filterMap_taken_snoc _ _ _ rfl]
          exact htaken
        · exact (hlogged sj).trans (List.append_nil _).symm
    | ok result =>
        -- each output goes to a stream that the stage feeds, so that there is such a stream
        have houts : ∀ p ∈ targets result (d.streamIndex.outputs v),
            p.2 < ((d.taking si s elem).log (.invoked stage.componentId
              (.process elem.toStreamElement (.ok result)))).streams.length := by
          intro p hp
          have hmem : p.2 ∈ (StreamIndex.build t).outputs v :=
            hindex ▸ (targets_sublist result _).subset (List.mem_map_of_mem hp)
          have hlt := hw.lt_of_mem_outputs hmem
          rwa [← List.length_set (i := si) (a := s.take.2)] at hlt
        obtain ⟨hcalled, hoffered⟩ := offered_pushAll htaken elem _ houts
        refine h.snoc ?_ (hcalled.trans (calledIn_append _ _)) (fun sj => ?_) hfits
        · rw [filterMap_taken_snoc _ _ _ rfl]
          exact htaken.pushAll _ elem
        · refine (hoffered sj).trans ?_
          rw [hlogged sj, hindex]
          rfl

/-- A sink is handed an element. -/
theorem executePush (h : Networked t calls d) (r : Round) {v : ℕ} {stage : StageDefinition}
    {id : StreamId} (hstage : t.stages[v]? = some stage) (hrole : stage.role = .sink)
    (hfeeds : ∀ si, d.takenFrom ⟨stage.componentId, v, .pushToSink id⟩ = some si →
      si ∈ (StreamIndex.build t).inputs v) :
    ∃ last, Networked t (calls ++ last) (d.executePush r stage.componentId id).1 := by
  unfold FlowDriver.executePush
  rcases d.takeInput_cases id with
    ⟨htake, -, -⟩ | ⟨si, s, elem, hs, hpos, helem, hfrom, htake⟩
  · simp only [htake]
    exact ⟨[], by rwa [List.append_nil]⟩
  · have hinput := hfeeds si hfrom
    have hconsumer := consumerOf_eq hinput hstage
    have hfirst : s.take.1 = some elem := take_of_inputElement hs hfrom helem
    simp only [htake]
    generalize r.invoker.push stage.componentId ⟨elem.metadata, elem.bufferHandle⟩ = answer
    have hfits : Call.Fits t
        ⟨v, stage.componentId, some (si, elem), .push elem.toStreamElement answer⟩ :=
      ⟨⟨stage, hstage, rfl, by rw [hrole]; rfl⟩, rfl, fun p hp => by cases hp; exact hinput⟩
    have htaken : Channelled t (calls.filterMap Call.taken ++ [(si, elem)])
        ((d.taking si s elem).log
          (.invoked stage.componentId (.push elem.toStreamElement answer))) :=
      h.channelled.take hs hpos hfirst hconsumer rfl rfl rfl (by simp)
    have hcall : Networked t
        (calls ++ [⟨v, stage.componentId, some (si, elem), .push elem.toStreamElement answer⟩])
        ((d.taking si s elem).log
          (.invoked stage.componentId (.push elem.toStreamElement answer))) := by
      refine h.snoc ?_ (calledIn_append _ _) (fun sj => ?_) hfits
      · rw [filterMap_taken_snoc _ _ _ rfl]
        exact htaken
      · exact offered_append _ _ _
    refine ⟨[⟨v, stage.componentId, some (si, elem), .push elem.toStreamElement answer⟩], ?_⟩
    cases answer with
    | error | timeout => exact hcall
    | ok signal =>
        have hlatency : ∀ d ns, Kept d (d.log (.recordFlowLatency ns)) := fun d ns =>
          ⟨[_], rfl, fun ev hev => by rw [List.mem_singleton.mp hev]; rfl⟩
        refine hcall.quiet (.of_streams_eq [_] rfl rfl rfl rfl fun ev hev => ?_) (hlatency _ _)
        rw [List.mem_singleton.mp hev]
        rfl

/-- The execution is one that the scheduler can choose. -/
def Ready (t : FlowTopology) (d : FlowDriver) (e : StageExecution) : Prop :=
  ∃ stage, t.stages[e.stageIndex]? = some stage ∧ e.componentId = stage.componentId ∧
    (∀ si, d.takenFrom e = some si → si ∈ (StreamIndex.build t).inputs e.stageIndex) ∧
      (stage.role = .source ∧ e.action = .pullFromSource ∨ ∃ si : ℕ,
        stage.role = .sink ∧ e.action = .pushToSink ⟨si⟩ ∨
          stage.role ≠ .source ∧ stage.role ≠ .sink ∧ e.action = .processElement ⟨si⟩)

/-- The execution of a stage. -/
theorem executeStage (h : Networked t calls d) (hindex : d.streamIndex = .build t)
    (hw : Wired t d.streams) (r : Round) {e : StageExecution} (hready : Ready t d e) :
    ∃ last, Networked t (calls ++ last) (d.executeStage r e).1 := by
  have hprepared : Networked t calls { d with currentElementSequence := none } :=
    ⟨h.channelled.of_streams_eq [] rfl (List.append_nil _).symm (by simp), h.called, h.offered,
      h.fits⟩
  have haction : ∃ last, Networked t (calls ++ last)
      ({ d with currentElementSequence := none }.executeAction r e).1 := by
    obtain ⟨stage, hstage, hcomponent, hfeeds, hrole⟩ := hready
    obtain ⟨c, v, action⟩ := e
    obtain rfl : c = stage.componentId := hcomponent
    rcases hrole with ⟨hrole, rfl⟩ | ⟨si, ⟨hrole, rfl⟩ | ⟨hsource, hsink, rfl⟩⟩
    · exact hprepared.executePull hindex hw r hstage hrole
    · exact hprepared.executePush r hstage hrole hfeeds
    · exact hprepared.executeProcess hindex hw r hstage ⟨hsource, hsink⟩ hfeeds
  obtain ⟨last, hlast⟩ := haction
  refine ⟨last, ?_⟩
  generalize hdone : { d with currentElementSequence := none }.executeAction r e = done at hlast
  have hstage : (d.executeStage r e).1 = done.1.recordExecution r e done.2 := by
    rw [FlowDriver.executeStage, hdone]
  obtain ⟨startNs, endNs, status, hrecord⟩ := done.1.events_recordExecution r e done.2
  have hquiet : ∀ ev ∈ FlowEvent.recordInvocation e.componentId startNs endNs status ::
      done.1.currentElementSequence.toList.map fun seq =>
        FlowEvent.recordElementSpan e.componentId seq startNs endNs status,
      ev.IsMute ∧ ev.called? = none ∧ ∀ id, ev.offeredOn id = none := by
    intro ev hev
    rcases List.mem_cons.mp hev with rfl | hev
    · exact ⟨⟨fun _ => rfl, fun _ => rfl, fun _ => rfl⟩, rfl, fun _ => rfl⟩
    · obtain ⟨seq, -, rfl⟩ := List.mem_map.mp hev
      exact ⟨⟨fun _ => rfl, fun _ => rfl, fun _ => rfl⟩, rfl, fun _ => rfl⟩
  rw [hstage]
  refine ⟨hlast.channelled.of_streams_eq _ (recordExecution_frame done.1 r e done.2).1 hrecord
    fun ev hev => (hquiet ev hev).1, ?_, fun si => ?_, hlast.fits⟩
  · rw [hrecord, calledIn_append, ← hlast.called]
    exact (congrArg _ (List.filterMap_eq_nil_iff.mpr fun ev hev => (hquiet ev hev).2.1)).trans
      (List.append_nil _)
  · rw [hrecord, offered_append, ← hlast.offered]
    exact (congrArg _ (List.filterMap_eq_nil_iff.mpr fun ev hev => (hquiet ev hev).2.2 _)).trans
      (List.append_nil _)

/-- The chosen stage is called in its role, and for an element of a stream that feeds it. -/
theorem ready_of_next (ht : t.Valid) (h : DriverInv t d) {e : StageExecution}
    (he : d.nextReady = some e) (r : Round) : Ready t d e := by
  obtain ⟨stage, hstage, hcomponent, hx, -⟩ :=
    nextReady_spec ht h.topology h.streamIndex h.streams.wired he r
  obtain ⟨stage', hstage', haction⟩ := h.stageAction_of_ready ht he
  obtain rfl := Option.some.inj (hstage.symm.trans hstage')
  obtain ⟨-, hcases⟩ := stageAction_cases h.streams.wired.id_eq haction
  refine ⟨stage, hstage, hcomponent, fun si htaken => ?_, ?_⟩
  · rcases hx.taken with ⟨-, hnone, -⟩ | ⟨-, -, i, hi, -, hsome⟩
    · cases hnone.symm.trans htaken
    · obtain rfl := Option.some.inj (hsome.symm.trans htaken)
      exact hi
  · rcases hcases with hsource | ⟨si, -, -, hrest⟩
    · exact .inl hsource
    · exact .inr ⟨si, hrest⟩

/-- **A round** that does not end the run makes at most the calls of one stage. -/
theorem step (ht : t.Valid) (hinv : DriverInv t d) (h : Networked t calls d) (r : Round)
    (hgoes : d.chosen r ≠ none ∨ d.state ≠ .draining) :
    ∃ last, Networked t (calls ++ last) (d.step r) := by
  have hcancelled : ∀ {calls : List Call} {d : FlowDriver} (c : FlowCancellation),
      Networked t calls d → Networked t calls (d.withCancellation c) :=
    fun c h => h.quiet (quiet_cancelled _ c) (.of_events_eq rfl)
  have hcancel : Networked t calls (d.cancelBy r.cancelBefore) := hcancelled _ h
  by_cases hrun : d.state = .running
  · rcases step_running hrun r with ⟨-, hstep⟩ | ⟨e, c, -, he, hstep⟩ | ⟨c, -, hstep⟩
    · rw [hstep]
      refine ⟨[], ?_⟩
      rw [List.append_nil]
      exact hcancel.quiet (quiet_beginDrain _ r) (kept_beginDrain _ r)
    · have hready : Ready t (d.cancelBy r.cancelBefore) e := ready_of_next ht hinv he r
      obtain ⟨last, hlast⟩ := hcancel.executeStage hinv.streamIndex hinv.streams.wired r hready
      refine ⟨last, ?_⟩
      rcases hstep with hstep | hstep <;> rw [hstep]
      · exact (hcancelled c hlast).quiet (quiet_beginDrain _ r) (kept_beginDrain _ r)
      · exact (hcancelled c hlast).quiet (quiet_afterStage _ r) (kept_afterStage _ r)
    · have hpropagated := hcancelled c
        (hcancel.quiet (quiet_propagateProducerComplete _) (kept_propagateProducerComplete _))
      refine ⟨[], ?_⟩
      rw [List.append_nil]
      rcases hstep with hstep | hstep <;> rw [hstep]
      · exact hpropagated.quiet (quiet_beginDrain _ r) (kept_beginDrain _ r)
      · exact hpropagated
  · by_cases hdrain : d.state = .draining
    · rcases step_draining hdrain r with ⟨e, -, he, hstep⟩ | ⟨hidle, -⟩
      · rw [hstep]
        exact h.executeStage hinv.streamIndex hinv.streams.wired r (ready_of_next ht hinv he r)
      · exact absurd ((chosen_eq_none_iff hdrain).mpr hidle) (hgoes.resolve_right (absurd hdrain))
    · rw [step_of_not_live hrun hdrain]
      exact ⟨[], by rwa [List.append_nil]⟩

end Networked

/-- When a run begins nobody has been called. -/
theorem networked_start (f : SpawnedFlow) : Networked f.config.topology [] f.start where
  channelled := channelled_start f
  called := rfl
  offered _ := rfl
  fits _ hmem := by cases hmem

end FlowDriver

/-! ## Runs -/

open FlowDriver

/-- The calls of a run, in order, and what they make of the streams. -/
structure Network (t : FlowTopology) (calls : List Call) (d : FlowDriver) : Prop where
  /-- the log has just these calls -/
  called : calledIn d.events = calls.map fun call => (call.component, call.invocation)
  /-- each is one of its stage -/
  fits : ∀ call ∈ calls, call.Fits t
  /-- a stream is offered what the calls return for it, in their order -/
  offered : ∀ si, offered d.events ⟨si⟩ = calls.flatMap (Call.offers t si)
  /-- and what it accepts is what the calls take from it, in their order, and what is left -/
  carried : Carried t (calls.filterMap Call.taken) d

theorem FlowDriver.Networked.network {t : FlowTopology} {calls : List Call} {d : FlowDriver}
    (h : Networked t calls d) : Network t calls d :=
  ⟨h.called, h.fits, h.offered, h.channelled.carried⟩

/-- The end of a run calls nobody. -/
theorem FlowDriver.Networked.finish {t : FlowTopology} {calls : List Call} {d : FlowDriver}
    (h : Networked t calls d) (r : Round) : Network t calls (d.finish r) := by
  obtain ⟨more, hevents, hmore, -⟩ := d.finish_events r
  have hquiet : ∀ ev ∈ more, ev.isQuiet = true := by
    intro ev hev
    rcases hmore ev hev with ⟨s, -, -, rfl⟩ | ⟨_, _, rfl⟩ | ⟨_, rfl⟩ <;> rfl
  refine ⟨?_, h.fits, fun si => ?_, h.channelled.finish r⟩
  · rw [hevents, calledIn_append, calledIn_quiet hquiet, List.append_nil, h.called]
  · rw [hevents, offered_append, offered_quiet hquiet, List.append_nil, h.offered]

/-- Every run is the run of a network. -/
theorem exists_network (f : SpawnedFlow) (rounds : List Round) :
    ∃ calls, Network f.config.topology calls (f.run rounds) := by
  have hrun := run_or_ended f (fun d => ∃ calls, Networked f.config.topology calls d)
    (fun d => ∃ calls, Network f.config.topology calls d) ⟨[], networked_start f⟩
    (fun d r hinv ⟨calls, hcalls⟩ hgoes =>
      let ⟨last, hlast⟩ := hcalls.step f.valid hinv r hgoes
      ⟨calls ++ last, hlast⟩)
    (fun d r ⟨calls, hcalls⟩ => ⟨calls, hcalls.finish r⟩) rounds
  exact hrun.elim (fun ⟨calls, h⟩ => ⟨calls, h.network⟩) id

/-- What is accepted on a stream has been offered, and without refusals all of it. -/
theorem accepted_offered (events : List FlowEvent) (id : StreamId) :
    ((accepted events id).map StreamElementRef.content).Sublist (offered events id) ∧
      ((∀ ev ∈ events, ev.isRefusal = false) →
        (accepted events id).map StreamElementRef.content = offered events id) := by
  induction events with
  | nil => exact ⟨List.Sublist.refl _, fun _ => rfl⟩
  | cons ev events ih =>
      obtain ⟨hsub, heq⟩ := ih
      have hcons : accepted (ev :: events) id = accepted [ev] id ++ accepted events id :=
        accepted_append [ev] events id
      have hcons' : offered (ev :: events) id = offered [ev] id ++ offered events id :=
        offered_append [ev] events id
      rw [hcons, hcons', List.map_append]
      refine ⟨List.Sublist.append ?_ hsub, fun hok => ?_⟩
      · cases ev with
        | pushed id' elem result =>
            by_cases hid : id' = id
            · subst hid
              cases result <;> simp [accepted, offered, FlowEvent.acceptedOn, FlowEvent.offeredOn]
            · cases result <;>
                simp [accepted, offered, FlowEvent.acceptedOn, FlowEvent.offeredOn, hid]
        | _ => exact List.Sublist.refl _
      · rw [heq fun ev h => hok ev (List.mem_cons_of_mem _ h)]
        congr 1
        cases ev with
        | pushed id' elem result =>
            have hresult := hok _ List.mem_cons_self
            obtain rfl : result = .ok := by simpa [FlowEvent.isRefusal] using hresult
            by_cases hid : id' = id
            · simp [accepted, offered, FlowEvent.acceptedOn, FlowEvent.offeredOn, hid]
            · simp [accepted, offered, FlowEvent.acceptedOn, FlowEvent.offeredOn, hid]
        | _ => rfl

/-- **Runs are networks.**  Every run, whatever the scheduler chooses, the components answer and
the streams refuse, is made of calls of its stages.  Each is for the element that was taken for
it, and what it returns is offered once on the streams that it is for; of this, in order, a
stream accepts what it has room for, and hands it on. -/
theorem runs_are_networks (f : SpawnedFlow) (rounds : List Round) :
    ∃ calls : List Call,
      calledIn (f.run rounds).events = (calls.map fun call => (call.component, call.invocation)) ∧
      (∀ call ∈ calls, call.Fits f.config.topology) ∧
      ∀ (si : ℕ) (s : StreamState), (f.run rounds).streams[si]? = some s →
        ((accepted (f.run rounds).events s.id).map StreamElementRef.content).Sublist
          (calls.flatMap (Call.offers f.config.topology si)) ∧
        accepted (f.run rounds).events s.id = takenOf si (calls.filterMap Call.taken) ++
          discarded (f.run rounds).events s.id ++ s.queue.contents := by
  obtain ⟨calls, hnetwork⟩ := exists_network f rounds
  refine ⟨calls, hnetwork.called, hnetwork.fits, fun si s hs => ?_⟩
  obtain ⟨hid, hcarried⟩ := hnetwork.carried.stream si s hs
  obtain ⟨hsub, -⟩ := accepted_offered (f.run rounds).events ⟨si⟩
  rw [hnetwork.offered] at hsub
  exact ⟨hid ▸ hsub, hcarried⟩

/-! ## Stages as functions of streams -/

/-- By the log, what a component returns for a stream depends on the content alone that it has
been handed: it is what `g` makes of it. -/
def Computes (events : List FlowEvent) (c : ComponentId) (outputs : List ℕ) (si : ℕ)
    (g : Content → List Content) : Prop :=
  ∀ x result, .invoked c (.process x (.ok result)) ∈ events →
    ((Invocation.process x (.ok result)).outputsOn outputs si).map outputContent =
      g (inputContent x)

/-- There is a path from one stream to another through stages that read one stream each, and the
components on the path compute the function. -/
inductive Through (t : FlowTopology) (events : List FlowEvent) (si : ℕ) :
    ℕ → (Content → List Content) → Prop
  | refl : Through t events si si fun x => [x]
  | step {j sj v : ℕ} {stage : StageDefinition} {f g : Content → List Content} :
      Through t events si j f → (StreamIndex.build t).inputs v = [j] →
      sj ∈ (StreamIndex.build t).outputs v → t.stages[v]? = some stage →
      Computes events stage.componentId ((StreamIndex.build t).outputs v) sj g →
      Through t events si sj fun x => (f x).flatMap g

section Through

variable {t : FlowTopology} {calls : List Call} {events : List FlowEvent} {v j sj : ℕ}
  {stage : StageDefinition} {g : Content → List Content}

theorem Invocation.outputsOn_of_notMem {outputs : List ℕ} (hnot : sj ∉ outputs)
    (call : Invocation) : call.outputsOn outputs sj = [] := by
  unfold Invocation.outputsOn
  split
  · refine if_neg fun hhead => hnot (List.mem_of_head? hhead)
  · rename_i result
    rw [List.map_eq_nil_iff, List.filter_eq_nil_iff]
    intro p hp heq
    rw [decide_eq_true_eq] at heq
    exact hnot (heq ▸ (targets_sublist result outputs).subset (List.mem_map_of_mem hp))
  · rfl

/-- A call that takes an element of the stream offers what the component computes of it, or has
failed; other calls offer nothing. -/
theorem Call.offers_cases (ht : t.Valid) {call : Call} (hfits : call.Fits t)
    (hmem : .invoked call.component call.invocation ∈ events)
    (hin : (StreamIndex.build t).inputs v = [j]) (hout : sj ∈ (StreamIndex.build t).outputs v)
    (hstage : t.stages[v]? = some stage)
    (hg : Computes events stage.componentId ((StreamIndex.build t).outputs v) sj g) :
    (call.offers t sj = [] ∧ ∀ p, call.taken = some p → p.1 ≠ j) ∨
      ∃ elem, call.taken = some (j, elem) ∧ (call.offers t sj = g elem.content ∨
        call.offers t sj = [] ∧
          (FlowEvent.invoked call.component call.invocation).isFailure = true) := by
  obtain ⟨u, component, taken, invocation⟩ := call
  -- a stage feeds a stream that no other one feeds, and reads one that no other one reads
  by_cases hv : u = v
  · right
    subst hv
    obtain ⟨⟨stage', hstage', rfl, hrole⟩, hinput, hfeeds⟩ := hfits
    obtain rfl := Option.some.inj (hstage.symm.trans hstage')
    have hsource : stage.role ≠ .source := by
      rw [Ne, ← ht.inputs_eq_nil_iff hstage, hin]
      exact List.cons_ne_nil _ _
    have hsink : stage.role ≠ .sink := by
      intro hsink
      have hnone := StreamIndex.outputs_eq_nil_iff.mpr (ht.sinkOut u stage hstage hsink)
      rw [hnone] at hout
      cases hout
    obtain ⟨x, answer, rfl⟩ : ∃ x answer, invocation = .process x answer := by
      cases hcases : stage.role with
      | source => exact absurd hcases hsource
      | sink => exact absurd hcases hsink
      | processor | filter | router =>
          rw [hcases] at hrole
          cases invocation with
          | process x answer => exact ⟨x, answer, rfl⟩
          | pull | push | notifyBackpressure => cases hrole
    obtain ⟨⟨i, elem⟩, rfl, rfl⟩ := Option.map_eq_some_iff.mp hinput.symm
    have hi : i ∈ (StreamIndex.build t).inputs u := hfeeds _ rfl
    rw [hin] at hi
    obtain rfl := List.mem_singleton.mp hi
    refine ⟨elem, rfl, ?_⟩
    cases answer with
    | error | timeout => exact .inr ⟨rfl, rfl⟩
    | ok result => exact .inl (hg _ _ hmem)
  · refine .inl ⟨?_, fun p hp heq => hv ?_⟩
    · have hnot : sj ∉ (StreamIndex.build t).outputs u := fun h =>
        hv (StreamIndex.outputs_inj h hout)
      rw [Call.offers, Invocation.outputsOn_of_notMem hnot, List.map_nil]
    · obtain ⟨c, hc, rfl⟩ := StreamIndex.mem_inputs.mp (heq ▸ hfits.feeds p hp)
      have hj : j ∈ (StreamIndex.build t).inputs v := by rw [hin]; exact List.mem_singleton_self j
      obtain ⟨c', hc', rfl⟩ := StreamIndex.mem_inputs.mp hj
      rw [Option.some.inj (hc.symm.trans hc')]

theorem takenOf_cons (si : ℕ) (p : ℕ × StreamElementRef) (taken : List (ℕ × StreamElementRef)) :
    takenOf si (p :: taken) = (if p.1 = si then [p.2] else []) ++ takenOf si taken := by
  by_cases h : p.1 = si
  · simp [takenOf, h]
  · simp [takenOf, h]

/-- A stage offers images of the elements it takes, in their order, and all of them if no call
fails. -/
theorem flatMap_offers (hcases : ∀ call ∈ calls,
    (call.offers t sj = [] ∧ ∀ p, call.taken = some p → p.1 ≠ j) ∨
      ∃ elem, call.taken = some (j, elem) ∧ (call.offers t sj = g elem.content ∨
        call.offers t sj = [] ∧
          (FlowEvent.invoked call.component call.invocation).isFailure = true)) :
    (calls.flatMap (Call.offers t sj)).Sublist
        (((takenOf j (calls.filterMap Call.taken)).map StreamElementRef.content).flatMap g) ∧
      ((∀ call ∈ calls, (FlowEvent.invoked call.component call.invocation).isFailure = false) →
        calls.flatMap (Call.offers t sj) =
          ((takenOf j (calls.filterMap Call.taken)).map StreamElementRef.content).flatMap g) := by
  induction calls with
  | nil => exact ⟨List.Sublist.refl _, fun _ => rfl⟩
  | cons call calls ih =>
      obtain ⟨hsub, heq⟩ := ih fun c hc => hcases c (List.mem_cons_of_mem _ hc)
      have hrest : (∀ c ∈ call :: calls,
          (FlowEvent.invoked c.component c.invocation).isFailure = false) →
          ∀ c ∈ calls, (FlowEvent.invoked c.component c.invocation).isFailure = false :=
        fun h c hc => h c (List.mem_cons_of_mem _ hc)
      rw [List.flatMap_cons]
      rcases hcases call List.mem_cons_self with ⟨hnone, hother⟩ | ⟨elem, htaken, hoffers⟩
      · have hsame : takenOf j ((call :: calls).filterMap Call.taken) =
            takenOf j (calls.filterMap Call.taken) := by
          cases htaken : call.taken with
          | none => rw [List.filterMap_cons_none htaken]
          | some p =>
              rw [List.filterMap_cons_some htaken, takenOf_cons, if_neg (hother p htaken),
                List.nil_append]
        rw [hsame, hnone, List.nil_append]
        exact ⟨hsub, fun h => heq (hrest h)⟩
      · rw [List.filterMap_cons_some htaken, takenOf_cons, if_pos rfl, List.map_append,
          List.flatMap_append, List.map_singleton, List.flatMap_singleton]
        rcases hoffers with hoffers | ⟨hoffers, hfailed⟩
        · rw [hoffers]
          exact ⟨(List.Sublist.refl _).append hsub, fun h => by rw [heq (hrest h)]⟩
        · rw [hoffers]
          refine ⟨hsub.trans (List.sublist_append_right _ _), fun h => ?_⟩
          rw [h call List.mem_cons_self] at hfailed
          cases hfailed

end Through

/-- **Paths are functions of streams.**  Along a path of stages that read one stream each, and
whatever else the topology has, in every run the last stream carries images of what the first one
has accepted, in the same order and each at most once.  If no call fails and no stream refuses an
element, they are the images of the first elements, without a gap. -/
theorem path_image (f : SpawnedFlow) (rounds : List Round) {si sj : ℕ}
    {g : Content → List Content}
    (hpath : Through f.config.topology (f.run rounds).events si sj g) :
    ((accepted (f.run rounds).events ⟨sj⟩).map StreamElementRef.content).Sublist
        (((accepted (f.run rounds).events ⟨si⟩).map StreamElementRef.content).flatMap g) ∧
      ((∀ ev ∈ (f.run rounds).events, ev.isFailure = false) →
        (∀ ev ∈ (f.run rounds).events, ev.isRefusal = false) →
        (accepted (f.run rounds).events ⟨sj⟩).map StreamElementRef.content <+:
          ((accepted (f.run rounds).events ⟨si⟩).map StreamElementRef.content).flatMap g) := by
  obtain ⟨calls, hnetwork⟩ := exists_network f rounds
  have hlength : (f.run rounds).streams.length = f.config.topology.connections.length :=
    (f.start.length_run rounds).trans f.inv_start.streams.wired.length_eq
  have hlogged : ∀ call ∈ calls,
      .invoked call.component call.invocation ∈ (f.run rounds).events := by
    rintro ⟨u, component, taken, invocation⟩ hmem
    have hcalled : (component, invocation) ∈ calledIn (f.run rounds).events := by
      rw [hnetwork.called]
      exact List.mem_map.mpr ⟨_, hmem, rfl⟩
    obtain ⟨ev, hev, heq⟩ := List.mem_filterMap.mp hcalled
    cases ev with
    | invoked component' invocation' =>
        cases invocation' with
        | notifyBackpressure => cases heq
        | pull | process | push =>
            cases heq
            exact hev
    | _ => cases heq
  -- by induction on the path, from its first stream on
  induction hpath with
  | refl =>
      rw [List.flatMap_singleton']
      exact ⟨List.Sublist.refl _, fun _ _ => List.prefix_rfl⟩
  | @step j sj v stage f' g hpath hin hout hstage hg ih =>
      obtain ⟨hsub, hbegins⟩ := ih
      obtain ⟨hoffered, hall⟩ := flatMap_offers fun call hmem =>
        Call.offers_cases f.valid (hnetwork.fits call hmem) (hlogged call hmem) hin hout hstage hg
      obtain ⟨haccepted, hok⟩ := accepted_offered (f.run rounds).events ⟨sj⟩
      rw [← hnetwork.offered] at hoffered hall
      -- what has been taken of a stream comes first on it
      have htaken : (takenOf j (calls.filterMap Call.taken)).map StreamElementRef.content <+:
          (accepted (f.run rounds).events ⟨j⟩).map StreamElementRef.content := by
        have hj : j ∈ (StreamIndex.build f.config.topology).inputs v := by
          rw [hin]
          exact List.mem_singleton_self j
        have hs := List.getElem?_eq_getElem (hlength ▸ StreamIndex.lt_of_mem_inputs hj)
        obtain ⟨hid, hcarried⟩ := hnetwork.carried.stream j _ hs
        rw [hid, List.append_assoc] at hcarried
        rw [hcarried]
        exact (List.prefix_append _ _).map _
      rw [← List.flatMap_assoc]
      refine ⟨haccepted.trans (hoffered.trans (List.Sublist.flatMap ?_ g)), fun hfail hrefuse => ?_⟩
      · exact htaken.sublist.trans hsub
      · rw [hok hrefuse, hall fun call hmem => hfail _ (hlogged call hmem)]
        exact List.IsPrefix.flatMap (htaken.trans (hbegins hfail hrefuse)) g

/-- In a run of `chainFlow` the sink's stream carries the increments of what the source's does. -/
theorem path_image_chainFlow :
    ((accepted (chainFlow.run chainRounds).events ⟨1⟩).map StreamElementRef.content).Sublist
        (((accepted (chainFlow.run chainRounds).events ⟨0⟩).map
          StreamElementRef.content).flatMap fun x =>
            [x].flatMap fun x => [outputContent (smallElement (x.1.resourceId.index + 1))]) ∧
      (accepted (chainFlow.run chainRounds).events ⟨1⟩).map StreamElementRef.content <+:
        ((accepted (chainFlow.run chainRounds).events ⟨0⟩).map
          StreamElementRef.content).flatMap fun x =>
            [x].flatMap fun x => [outputContent (smallElement (x.1.resourceId.index + 1))] := by
  have hcalls : calledIn (chainFlow.run chainRounds).events =
      [(⟨0⟩, .pull (.ok (some (smallElement 7)))),
        (⟨1⟩, .process ⟨⟨0, 0, ""⟩, ⟨⟨7, 0⟩⟩⟩ (.ok (.output (smallElement 8)))),
        (⟨2⟩, .push ⟨⟨1, 0, ""⟩, ⟨⟨8, 0⟩⟩⟩ (.ok .ready)), (⟨0⟩, .pull (.ok none))] := by decide
  have hcomputes : Computes (chainFlow.run chainRounds).events ⟨1⟩
      ((StreamIndex.build chainFlow.config.topology).outputs 1) 1
      fun x => [outputContent (smallElement (x.1.resourceId.index + 1))] := by
    intro x result hmem
    have hcalled : ((⟨1⟩, .process x (.ok result)) : ComponentId × Invocation) ∈
        calledIn (chainFlow.run chainRounds).events := List.mem_filterMap.mpr ⟨_, hmem, rfl⟩
    rw [hcalls] at hcalled
    obtain ⟨rfl, rfl⟩ : x = ⟨⟨0, 0, ""⟩, ⟨⟨7, 0⟩⟩⟩ ∧ result = .output (smallElement 8) := by
      simpa using hcalled
    rfl
  have hpath : Through chainFlow.config.topology (chainFlow.run chainRounds).events 0 1 _ :=
    .step (v := 1) .refl (by decide) (by decide) rfl hcomputes
  obtain ⟨hsub, hbegins⟩ := path_image chainFlow chainRounds hpath
  exact ⟨hsub, hbegins (by decide) (by decide)⟩

end Torvyn.Reactor
