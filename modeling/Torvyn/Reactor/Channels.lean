/-
# Streams as channels

Every stream of a flow is a first-in, first-out channel.  What has been accepted on it is what
its consumer has been handed of it, followed by what was discarded when the run ended, followed
by what is queued: whatever the topology, the policies and the answers of the components, no
accepted element is lost, repeated or overtaken before the end of the run.

A stage may read several streams.  The elements that have been taken in a run are kept with the
streams they came from, in the order in which they were taken: those of one stream are what the
channel has passed on, and those of the streams of one component are what it has been handed.
-/
import Torvyn.Reactor.FanIn
import Torvyn.Reactor.Queued

namespace Torvyn.Reactor

/-! ## What the log says of a stream -/

namespace FlowEvent

/-- The element that an event says has been accepted on a stream. -/
def acceptedOn (id : StreamId) : FlowEvent → Option StreamElementRef
  | .pushed id' elem .ok => if id' = id then some elem else none
  | _ => none

/-- The element that an event says a component has been handed. -/
def handedTo (c : ComponentId) : FlowEvent → Option StreamElement
  | .invoked c' call => if c' = c then call.input? else none
  | _ => none

/-- The elements that an event says have been discarded on a stream. -/
def discardedOn (id : StreamId) : FlowEvent → List StreamElementRef
  | .discarded id' elems => if id' = id then elems else []
  | _ => []

/-- An event that says nothing of an element on a stream or in the hands of a component. -/
structure IsMute (ev : FlowEvent) : Prop where
  accepted : ∀ id, ev.acceptedOn id = none
  handed : ∀ c, ev.handedTo c = none
  discarded : ∀ id, ev.discardedOn id = []

end FlowEvent

/-- The elements that have been accepted on a stream. -/
def accepted (events : List FlowEvent) (id : StreamId) : List StreamElementRef :=
  events.filterMap (FlowEvent.acceptedOn id)

/-- The elements that a component has been handed. -/
def handed (events : List FlowEvent) (c : ComponentId) : List StreamElement :=
  events.filterMap (FlowEvent.handedTo c)

/-- The elements of a stream that have been discarded. -/
def discarded (events : List FlowEvent) (id : StreamId) : List StreamElementRef :=
  events.flatMap (FlowEvent.discardedOn id)

section Log

variable {events more : List FlowEvent}

theorem accepted_append (events more : List FlowEvent) (id : StreamId) :
    accepted (events ++ more) id = accepted events id ++ accepted more id :=
  List.filterMap_append

theorem handed_append (events more : List FlowEvent) (c : ComponentId) :
    handed (events ++ more) c = handed events c ++ handed more c :=
  List.filterMap_append

theorem discarded_append (events more : List FlowEvent) (id : StreamId) :
    discarded (events ++ more) id = discarded events id ++ discarded more id :=
  List.flatMap_append

theorem accepted_mute (h : ∀ ev ∈ more, ev.IsMute) (id : StreamId) : accepted more id = [] :=
  List.filterMap_eq_nil_iff.mpr fun ev hev => (h ev hev).accepted id

theorem handed_mute (h : ∀ ev ∈ more, ev.IsMute) (c : ComponentId) : handed more c = [] :=
  List.filterMap_eq_nil_iff.mpr fun ev hev => (h ev hev).handed c

theorem discarded_mute (h : ∀ ev ∈ more, ev.IsMute) (id : StreamId) : discarded more id = [] :=
  List.flatMap_eq_nil_iff.mpr fun ev hev => (h ev hev).discarded id

/-- What is quiet and discards nothing is mute. -/
theorem FlowEvent.isMute_of_isQuiet {ev : FlowEvent} (hquiet : ev.isQuiet = true)
    (hkept : ev.isDiscard = false) : ev.IsMute := by
  cases ev with
  | invoked c' call =>
      cases call with
      | notifyBackpressure signal => exact ⟨fun _ => rfl, fun _ => ite_self none, fun _ => rfl⟩
      | pull | process | push => cases hquiet
  | pushed => cases hquiet
  | discarded id' elems =>
      obtain rfl : elems = [] := by simpa [FlowEvent.isDiscard] using hkept
      exact ⟨fun _ => rfl, fun _ => rfl, fun _ => ite_self []⟩
  | _ => exact ⟨fun _ => rfl, fun _ => rfl, fun _ => rfl⟩

end Log

/-! ## The elements taken in a run -/

/-- Those of the taken elements that came from a stream. -/
def takenOf (si : ℕ) (taken : List (ℕ × StreamElementRef)) : List StreamElementRef :=
  (taken.filter fun p => p.1 = si).map Prod.snd

/-- Those of the taken elements that a component was given, as it was handed them. -/
def takenBy (t : FlowTopology) (c : ComponentId) (taken : List (ℕ × StreamElementRef)) :
    List StreamElement :=
  (taken.filter fun p => consumerOf t p.1 = some c).map fun p => p.2.toStreamElement

theorem takenOf_snoc (si sj : ℕ) (taken : List (ℕ × StreamElementRef)) (elem : StreamElementRef) :
    takenOf si (taken ++ [(sj, elem)]) = takenOf si taken ++ if sj = si then [elem] else [] := by
  by_cases h : sj = si
  · simp [takenOf, List.filter_append, h]
  · simp [takenOf, List.filter_append, h]

theorem takenBy_snoc {t : FlowTopology} {si : ℕ} {c' : ComponentId}
    (hconsumer : consumerOf t si = some c') (c : ComponentId)
    (taken : List (ℕ × StreamElementRef)) (elem : StreamElementRef) :
    takenBy t c (taken ++ [(si, elem)]) =
      takenBy t c taken ++ if c' = c then [elem.toStreamElement] else [] := by
  by_cases h : c' = c
  · simp [takenBy, List.filter_append, hconsumer, h]
  · simp [takenBy, List.filter_append, hconsumer, h]

namespace FlowDriver

/-- Each stream has passed on, of what was accepted on it, all but what is queued, and each
component has been handed what was taken from its streams. -/
structure Channelled (t : FlowTopology) (taken : List (ℕ × StreamElementRef)) (d : FlowDriver) :
    Prop where
  id_eq : ∀ (si : ℕ) (s : StreamState), d.streams[si]? = some s → s.id = ⟨si⟩
  accepted_eq : ∀ (si : ℕ) (s : StreamState), d.streams[si]? = some s →
    accepted d.events ⟨si⟩ = takenOf si taken ++ s.queue.contents
  handed_eq : ∀ c, handed d.events c = takenBy t c taken
  discarded_eq : ∀ id, discarded d.events id = []

namespace Channelled

variable {t : FlowTopology} {taken : List (ℕ × StreamElementRef)} {d d' : FlowDriver} {si : ℕ}
  {s : StreamState}

/-- What moves no element changes no channel. -/
theorem of_mute (h : Channelled t taken d) {more : List FlowEvent}
    (hlength : d'.streams.length = d.streams.length)
    (hstream : ∀ (si : ℕ) (s : StreamState), d.streams[si]? = some s →
      ∃ s', d'.streams[si]? = some s' ∧ s'.id = s.id ∧ s'.queue = s.queue)
    (hevents : d'.events = d.events ++ more) (hmore : ∀ ev ∈ more, ev.IsMute) :
    Channelled t taken d' := by
  -- every stream of the new state is one of the old state
  have hold : ∀ (si : ℕ) (s' : StreamState), d'.streams[si]? = some s' →
      ∃ s, d.streams[si]? = some s ∧ s'.id = s.id ∧ s'.queue = s.queue := by
    intro si s' hs'
    obtain ⟨hlt, -⟩ := List.getElem?_eq_some_iff.mp hs'
    have hs := List.getElem?_eq_getElem (hlength ▸ hlt)
    obtain ⟨s'', hs'', hid, hqueue⟩ := hstream si _ hs
    obtain rfl := Option.some.inj (hs''.symm.trans hs')
    exact ⟨_, hs, hid, hqueue⟩
  refine ⟨fun si s' hs' => ?_, fun si s' hs' => ?_, fun c => ?_, fun id => ?_⟩
  · obtain ⟨s, hs, hid, -⟩ := hold si s' hs'
    exact hid.trans (h.id_eq si s hs)
  · obtain ⟨s, hs, -, hqueue⟩ := hold si s' hs'
    rw [hevents, accepted_append, accepted_mute hmore, List.append_nil,
      h.accepted_eq si s hs, hqueue]
  · rw [hevents, handed_append, handed_mute hmore, List.append_nil, h.handed_eq c]
  · rw [hevents, discarded_append, discarded_mute hmore, List.append_nil, h.discarded_eq id]

/-- What is only logged, and is mute, changes no channel. -/
theorem of_streams_eq (h : Channelled t taken d) (more : List FlowEvent)
    (hstreams : d'.streams = d.streams) (hevents : d'.events = d.events ++ more)
    (hmore : ∀ ev ∈ more, ev.IsMute) : Channelled t taken d' :=
  h.of_mute (by rw [hstreams]) (fun _ s hs => ⟨s, hstreams ▸ hs, rfl, rfl⟩) hevents hmore

/-- A push puts its element at the end of its channel, or nothing anywhere. -/
theorem push (h : Channelled t taken d) (s' : StreamState) {elem : StreamElementRef}
    {more : List FlowEvent}
    (hs : d.streams[si]? = some s) (hid : s'.id = s.id) (hqueue : s'.queue = (s.emit elem).2.queue)
    (hstreams : d'.streams = d.streams.set si s')
    (hevents : d'.events = d.events ++ .pushed s.id elem (s.emit elem).1 :: more)
    (hmore : ∀ ev ∈ more, ev.IsMute) : Channelled t taken d' := by
  have hlt := (List.getElem?_eq_some_iff.mp hs).1
  have hpushed : accepted [.pushed s.id elem (s.emit elem).1] ⟨si⟩ =
        (if s.queue.isFull then [] else [elem]) ∧
      ∀ sj, sj ≠ si → accepted [.pushed s.id elem (s.emit elem).1] ⟨sj⟩ = [] := by
    have hsi := h.id_eq si s hs
    cases hresult : (s.emit elem).1 with
    | ok =>
        rw [StreamState.emit_fst_eq_ok_iff] at hresult
        refine ⟨by simp [accepted, FlowEvent.acceptedOn, hsi, hresult], fun sj hne => ?_⟩
        simp [accepted, FlowEvent.acceptedOn, hsi, Ne.symm hne]
    | _ =>
        have hfull : s.queue.isFull = true := by
          rw [← Bool.not_eq_false, ← @StreamState.emit_fst_eq_ok_iff s elem, hresult]
          simp
        exact ⟨by rw [hfull]; rfl, fun _ _ => rfl⟩
  have hcontents : s'.queue.contents =
      s.queue.contents ++ if s.queue.isFull then [] else [elem] := by
    rw [hqueue]
    show (s.queue.push elem).2.contents = _
    rw [BoundedQueue.contents_push]
    split <;> simp
  have hsplit : d'.events = d.events ++ ([.pushed s.id elem (s.emit elem).1] ++ more) := hevents
  refine ⟨fun sj x hx => ?_, fun sj x hx => ?_, fun c => ?_, fun id => ?_⟩
  · rw [hstreams] at hx
    by_cases hsj : si = sj
    · subst hsj
      rw [List.getElem?_set_self hlt] at hx
      obtain rfl := Option.some.inj hx
      exact hid.trans (h.id_eq si s hs)
    · rw [List.getElem?_set_ne hsj] at hx
      exact h.id_eq sj x hx
  · rw [hsplit, accepted_append, accepted_append, accepted_mute hmore, List.append_nil]
    rw [hstreams] at hx
    by_cases hsj : si = sj
    · subst hsj
      rw [List.getElem?_set_self hlt] at hx
      obtain rfl := Option.some.inj hx
      rw [h.accepted_eq si s hs, hpushed.1, hcontents, List.append_assoc]
    · rw [List.getElem?_set_ne hsj] at hx
      rw [h.accepted_eq sj x hx, hpushed.2 sj (Ne.symm hsj), List.append_nil]
  · rw [hsplit, handed_append, handed_append, handed_mute hmore, List.append_nil, h.handed_eq c]
    exact List.append_nil _
  · rw [hsplit, discarded_append, discarded_append, discarded_mute hmore, List.append_nil,
      h.discarded_eq id]
    rfl

/-- The consumer of a stream is handed the first element of its channel. -/
theorem take (h : Channelled t taken d) {elem : StreamElementRef} {call : Invocation}
    {c : ComponentId} {more : List FlowEvent} (hs : d.streams[si]? = some s)
    (hpos : 0 < s.queue.len) (helem : s.take.1 = some elem) (hconsumer : consumerOf t si = some c)
    (hcall : call.input? = some elem.toStreamElement)
    (hstreams : d'.streams = d.streams.set si s.take.2)
    (hevents : d'.events = d.events ++ .invoked c call :: more)
    (hmore : ∀ ev ∈ more, ev.IsMute) : Channelled t (taken ++ [(si, elem)]) d' := by
  have hlt := (List.getElem?_eq_some_iff.mp hs).1
  have hcontents : s.queue.contents = elem :: s.take.2.queue.contents := by
    obtain ⟨a, hpop, hcontents⟩ := BoundedQueue.pop_of_pos hpos
    obtain rfl : a = elem := Option.some.inj ((congrArg Prod.fst hpop).symm.trans helem)
    rw [hcontents, show s.take.2.queue = s.queue.dequeue hpos from congrArg Prod.snd hpop]
  have hsplit : d'.events = d.events ++ ([.invoked c call] ++ more) := hevents
  refine ⟨fun sj x hx => ?_, fun sj x hx => ?_, fun c' => ?_, fun id => ?_⟩
  · rw [hstreams] at hx
    by_cases hsj : si = sj
    · subst hsj
      rw [List.getElem?_set_self hlt] at hx
      obtain rfl := Option.some.inj hx
      exact h.id_eq si s hs
    · rw [List.getElem?_set_ne hsj] at hx
      exact h.id_eq sj x hx
  · have hnone : accepted [.invoked c call] ⟨sj⟩ = [] := rfl
    rw [hsplit, accepted_append, accepted_append, accepted_mute hmore, hnone, List.append_nil,
      List.append_nil, takenOf_snoc]
    rw [hstreams] at hx
    by_cases hsj : si = sj
    · subst hsj
      rw [List.getElem?_set_self hlt] at hx
      obtain rfl := Option.some.inj hx
      rw [h.accepted_eq si s hs, hcontents, if_pos rfl, List.append_assoc]
      rfl
    · rw [List.getElem?_set_ne hsj] at hx
      rw [h.accepted_eq sj x hx, if_neg hsj, List.append_nil]
  · have hhanded : handed [.invoked c call] c' =
        if c = c' then [elem.toStreamElement] else [] := by
      by_cases hc : c = c'
      · simp [handed, FlowEvent.handedTo, hc, hcall]
      · simp [handed, FlowEvent.handedTo, hc]
    rw [hsplit, handed_append, handed_append, handed_mute hmore, List.append_nil, hhanded,
      takenBy_snoc hconsumer, h.handed_eq c']
  · rw [hsplit, discarded_append, discarded_append, discarded_mute hmore, List.append_nil,
      h.discarded_eq id]
    rfl

/-- Several pushes. -/
theorem pushAll (ts : List (OutputElement × ℕ)) (input : StreamElementRef)
    (h : Channelled t taken d) : Channelled t taken (d.pushAll input ts) := by
  induction ts generalizing d with
  | nil => exact h
  | cons x ts ih =>
      refine ih (d := d.pushOutput input x.1 x.2) ?_
      cases hs : d.streams[x.2]? with
      | none =>
          refine h.of_streams_eq [] ?_ ?_ (by simp)
          · simp only [pushOutput, hs]
          · simp only [pushOutput, hs, List.append_nil]
      | some s =>
          rw [pushOutput_eq input x.1 hs]
          exact h.push (s.emit _).2.recordEnqueue hs rfl rfl rfl rfl (by simp)

/-- An element that was pulled. -/
theorem pushPulled (h : Channelled t taken d) (r : Round) (element : OutputElement) (si : ℕ) :
    Channelled t taken (d.pushPulled r element si) := by
  cases hs : d.streams[si]? with
  | none =>
      refine h.of_streams_eq [] ?_ ?_ (by simp)
      · simp only [FlowDriver.pushPulled, hs]
      · simp only [FlowDriver.pushPulled, hs, List.append_nil]
  | some s =>
      rw [pushPulled_eq r element hs]
      refine h.push _ hs ?_ ?_ rfl rfl ?_
      · split <;> rfl
      · split <;> rfl
      · intro ev hev
        split at hev
        · cases hev
        · obtain rfl := List.mem_singleton.mp hev
          exact ⟨fun _ => rfl, fun _ => rfl, fun _ => rfl⟩

/-- **The action of a stage.**  An action takes at most one element. -/
theorem acted (h : Channelled t taken d) {r : Round} {e : StageExecution} (hacted : Acted d r e d')
    (hconsumer : ∀ si, d.takenFrom e = some si → consumerOf t si = some e.componentId) :
    ∃ last, Channelled t (taken ++ last) d' := by
  have hcalled : ∀ answer, Channelled t taken (d.log (.invoked e.componentId (.pull answer))) :=
    fun answer => h.of_streams_eq [.invoked e.componentId (.pull answer)] rfl rfl fun ev hev => by
      obtain rfl := List.mem_singleton.mp hev
      exact ⟨fun _ => rfl, fun _ => ite_self none, fun _ => rfl⟩
  cases hacted with
  | starved => exact ⟨[], by rwa [List.append_nil]⟩
  | asked answer => exact ⟨[], by rw [List.append_nil]; exact hcalled answer⟩
  | exhausted sis =>
      refine ⟨[], ?_⟩
      rw [List.append_nil]
      have hquiet := quiet_markComplete (d.log (.invoked e.componentId (.pull (.ok none)))) sis
      refine (hcalled (.ok none)).of_mute hquiet.length_eq (fun si s hs => ?_)
        (List.append_nil _).symm (by simp)
      obtain ⟨s', hs', hid, hqueue, -⟩ := hquiet.stream si s hs
      exact ⟨s', hs', hid, hqueue⟩
  | produced element si =>
      exact ⟨[], (List.append_nil taken).symm ▸ (hcalled _).pushPulled r element si⟩
  | processed si s elem answer ts id haction htaken haddressed hs hpos helem =>
      exact ⟨[(si, elem)], pushAll ts elem (h.take hs hpos helem (hconsumer si htaken)
        rfl rfl rfl (by simp))⟩
  | consumed si s elem answer latency htaken haddressed hs hpos helem =>
      refine ⟨[(si, elem)], h.take hs hpos helem (hconsumer si htaken) rfl rfl rfl fun ev hev => ?_⟩
      obtain ⟨ns, -, rfl⟩ := List.mem_map.mp hev
      exact ⟨fun _ => rfl, fun _ => rfl, fun _ => rfl⟩

end Channelled

/-! ## Rounds -/

/-- Nothing is discarded between the two states. -/
def Kept (d d' : FlowDriver) : Prop :=
  ∃ more, d'.events = d.events ++ more ∧ ∀ ev ∈ more, ev.isDiscard = false

section Kept

variable {d d₁ d' : FlowDriver}

theorem Kept.of_events_eq (h : d'.events = d.events) : Kept d d' :=
  ⟨[], by rw [h, List.append_nil], by simp⟩

theorem Kept.trans (h : Kept d d₁) (h' : Kept d₁ d') : Kept d d' := by
  obtain ⟨more, hevents, hmore⟩ := h
  obtain ⟨more', hevents', hmore'⟩ := h'
  refine ⟨more ++ more', by rw [hevents', hevents, List.append_assoc], fun ev hev => ?_⟩
  exact (List.mem_append.mp hev).elim (hmore ev) (hmore' ev)

theorem Logs.kept {P : Prop} (h : Logs d d' P) : Kept d d' := by
  obtain ⟨more, hevents, hmore, -⟩ := h
  exact ⟨more, hevents, hmore⟩

theorem kept_beginDrain (d : FlowDriver) (r : Round) : Kept d (d.beginDrain r) := by
  obtain ⟨-, hevents, -⟩ := foldl_markSource (List.range d.topology.stages.length) d
  refine ⟨[.flowStateChanged .running .draining], ?_, by simp [FlowEvent.isDiscard]⟩
  rw [← hevents]
  rfl

theorem kept_afterStage (d : FlowDriver) (r : Round) : Kept d (d.afterStage r) := by
  obtain ⟨more, hevents, hmore⟩ := d.afterStage_events r
  refine ⟨more, hevents, fun ev hev => ?_⟩
  have hcheck := hmore ev hev
  cases ev with
  | discarded => cases hcheck
  | _ => rfl

theorem kept_propagateProducerComplete (d : FlowDriver) : Kept d d.propagateProducerComplete :=
  .of_events_eq (foldl_propagateStage_frame _ d).2

/-- The drain loop goes on as long as a stage is ready and there is time. -/
theorem chosen_eq_none_iff {r : Round} (hdrain : d.state = .draining) :
    d.chosen r = none ↔ (r.start < d.drainDeadline → d.nextReady = none) := by
  simp only [chosen, hdrain]
  split
  · exact ⟨fun h _ => h, fun h => h ‹_›⟩
  · exact ⟨fun _ h => absurd h ‹_›, fun _ => rfl⟩

/-- A drain loop that finds nothing to do ends the run. -/
theorem step_eq_finish {r : Round} (hnone : d.chosen r = none) (hdrain : d.state = .draining) :
    d.step r = d.finish r := by
  rcases step_draining hdrain r with ⟨e, hbefore, he, -⟩ | ⟨-, hstep⟩
  · have hidle := (chosen_eq_none_iff hdrain).mp hnone hbefore
    cases he.symm.trans hidle
  · exact hstep

/-- Only the end of a run discards anything. -/
theorem kept_step {t : FlowTopology} (hindex : d.streamIndex = .build t) (r : Round)
    (hgoes : d.chosen r ≠ none ∨ d.state ≠ .draining) : Kept d (d.step r) := by
  have hexecute : ∀ (c : FlowCancellation) (e : StageExecution),
      Kept d ((d.withCancellation c).executeStage r e).1 := fun c e =>
    (executeStage_executed (d.withCancellation c) r e
      (hindex ▸ StreamIndex.outputs_nodup)).logs.kept
  by_cases hrun : d.state = .running
  · rcases step_running hrun r with ⟨-, hstep⟩ | ⟨e, c, -, -, hstep⟩ | ⟨c, -, hstep⟩
    · rw [hstep]
      exact kept_beginDrain _ r
    · have hexecuted := hexecute (d.cancelBy r.cancelBefore).cancellation e
      rcases hstep with hstep | hstep <;> rw [hstep]
      · exact hexecuted.trans (kept_beginDrain _ r)
      · exact hexecuted.trans (kept_afterStage _ r)
    · have hpropagated := kept_propagateProducerComplete (d.cancelBy r.cancelBefore)
      rcases hstep with hstep | hstep <;> rw [hstep]
      · exact hpropagated.trans (kept_beginDrain _ r)
      · exact hpropagated
  · by_cases hdrain : d.state = .draining
    · rcases step_draining hdrain r with ⟨e, -, -, hstep⟩ | ⟨hidle, -⟩
      · rw [hstep]
        exact hexecute d.cancellation e
      · exact absurd ((chosen_eq_none_iff hdrain).mpr hidle) (hgoes.resolve_right (absurd hdrain))
    · rw [step_of_not_live hrun hdrain]
      exact .of_events_eq rfl

/-- A quiet part of a round that discards nothing changes no channel. -/
theorem Channelled.of_quiet {t : FlowTopology} {taken : List (ℕ × StreamElementRef)}
    {d₀ : FlowDriver} (h : Channelled t taken d) (hquiet : Quiet d d') {before : List FlowEvent}
    (hbefore : d.events = d₀.events ++ before) (hkept : Kept d₀ d') : Channelled t taken d' := by
  obtain ⟨more, hevents, hmore⟩ := hquiet.events
  obtain ⟨all, hall, hdiscard⟩ := hkept
  have hsplit : all = before ++ more := by
    rw [hevents, hbefore, List.append_assoc] at hall
    exact (List.append_cancel_left hall).symm
  refine h.of_mute hquiet.length_eq (fun si s hs => ?_) hevents fun ev hev => ?_
  · obtain ⟨s', hs', hid, hqueue, -⟩ := hquiet.stream si s hs
    exact ⟨s', hs', hid, hqueue⟩
  · exact FlowEvent.isMute_of_isQuiet (hmore ev hev)
      (hdiscard ev (hsplit ▸ List.mem_append_right before hev))

end Kept

/-- **A round** that does not end the run takes at most one element. -/
theorem channelled_step {t : FlowTopology} (ht : t.Valid) {d : FlowDriver} (h : DriverInv t d)
    {taken : List (ℕ × StreamElementRef)} (hchannelled : Channelled t taken d) (r : Round)
    (hgoes : d.chosen r ≠ none ∨ d.state ≠ .draining) :
    ∃ last, Channelled t (taken ++ last) (d.step r) := by
  have hkept := kept_step h.streamIndex r hgoes
  have heffect := d.step_effect r
  generalize d.step r = d' at heffect hkept
  cases heffect with
  | quiet d' hchosen hstate hquiet =>
      refine ⟨[], ?_⟩
      rw [List.append_nil]
      exact hchannelled.of_quiet hquiet (List.append_nil _).symm hkept
  | executed e c acted result d' hchosen hacted hquiet =>
      obtain ⟨-, hready⟩ := ready_of_chosen hchosen
      have hconsumer : ∀ si, d.takenFrom e = some si → consumerOf t si = some e.componentId := by
        intro si htaken
        obtain ⟨stage, hstage, hcomponent, hx, -⟩ :=
          nextReady_spec ht h.topology h.streamIndex h.streams.wired hready r
        rcases hx.taken with ⟨-, hnone, -⟩ | ⟨-, -, i, hi, -, hsome⟩
        · cases hnone.symm.trans htaken
        · obtain rfl := Option.some.inj (hsome.symm.trans htaken)
          rw [consumerOf_eq hi hstage, hcomponent]
      have hprepared : Channelled t taken (d.prepared c) :=
        hchannelled.of_streams_eq [] rfl (List.append_nil _).symm (by simp)
      obtain ⟨last, hlast⟩ := hprepared.acted hacted hconsumer
      obtain ⟨call, hcall, -⟩ := hacted.actionLogged
      obtain ⟨startNs, endNs, status, hrecord⟩ := acted.events_recordExecution r e result
      refine ⟨last, ?_⟩
      have hrecorded : Channelled t (taken ++ last) (acted.recordExecution r e result) := by
        refine hlast.of_streams_eq _ (recordExecution_frame acted r e result).1 hrecord ?_
        intro ev hev
        rcases List.mem_cons.mp hev with rfl | hev
        · exact ⟨fun _ => rfl, fun _ => rfl, fun _ => rfl⟩
        · obtain ⟨seq, -, rfl⟩ := List.mem_map.mp hev
          exact ⟨fun _ => rfl, fun _ => rfl, fun _ => rfl⟩
      exact hrecorded.of_quiet hquiet
        (hrecord.trans ((congrArg (· ++ _) hcall).trans (List.append_assoc _ _ _))) hkept
  | finished hchosen hdrain => exact absurd hgoes (by simp [hchosen, hdrain])

/-! ## The end of a run -/

/-- The event that the end of a run logs for a stream, if any. -/
def discardEvent (s : StreamState) : Option FlowEvent :=
  if s.queue.drainAll.1.isEmpty then none else some (.discarded s.id s.queue.drainAll.1)

/-- On a stream only its own event discards anything. -/
theorem discardedOn_discardEvent (s : StreamState) (id : StreamId) :
    (discardEvent s).toList.flatMap (FlowEvent.discardedOn id) =
      if s.id = id then s.queue.contents else [] := by
  unfold discardEvent
  rw [s.queue.drainAll_spec.1]
  by_cases hempty : s.queue.contents = []
  · simp [hempty]
  · simp [hempty, FlowEvent.discardedOn]

/-- The end of a run discards what is queued on each stream, in order. -/
theorem discarded_filterMap {streams : List StreamState}
    (hid : ∀ (si : ℕ) (s : StreamState), streams[si]? = some s → s.id = ⟨si⟩) {si : ℕ}
    {s : StreamState} (hs : streams[si]? = some s) :
    discarded (streams.filterMap discardEvent) ⟨si⟩ = s.queue.contents := by
  have hflat : ∀ l : List StreamState, discarded (l.filterMap discardEvent) ⟨si⟩ =
      l.flatMap fun x => if x.id = ⟨si⟩ then x.queue.contents else [] := by
    intro l
    induction l with
    | nil => rfl
    | cons x l ih =>
        rw [List.flatMap_cons, ← discardedOn_discardEvent, ← ih, discarded, discarded,
          ← List.flatMap_append, List.filterMap_cons]
        cases discardEvent x <;> rfl
  -- no other stream has the identifier of this one
  have hother : ∀ l : List StreamState, (∀ x ∈ l, ∃ sj, sj ≠ si ∧ streams[sj]? = some x) →
      (l.flatMap fun x => if x.id = ⟨si⟩ then x.queue.contents else []) = [] := by
    intro l hl
    rw [List.flatMap_eq_nil_iff]
    intro x hx
    obtain ⟨sj, hne, hsj⟩ := hl x hx
    rw [hid sj x hsj, if_neg]
    simpa using hne
  obtain ⟨hlt, hget⟩ := List.getElem?_eq_some_iff.mp hs
  have hsplit : streams = streams.take si ++ s :: streams.drop (si + 1) := by
    rw [← hget, List.getElem_cons_drop, List.take_append_drop]
  rw [hflat]
  conv_lhs => rw [hsplit]
  rw [List.flatMap_append, List.flatMap_cons, if_pos (hid si s hs), hother, hother]
  · simp
  · intro x hx
    obtain ⟨i, hi⟩ := List.mem_iff_getElem?.mp hx
    rw [List.getElem?_drop] at hi
    exact ⟨si + 1 + i, by omega, hi⟩
  · intro x hx
    obtain ⟨i, hi⟩ := List.mem_iff_getElem?.mp hx
    have hisi : i < si := by
      have := (List.getElem?_eq_some_iff.mp hi).1
      rw [List.length_take] at this
      omega
    exact ⟨i, by omega, by rwa [List.getElem?_take_of_lt hisi] at hi⟩

/-- What holds of the streams in every state of a run, with the elements that have been taken. -/
structure Carried (t : FlowTopology) (taken : List (ℕ × StreamElementRef)) (d : FlowDriver) :
    Prop where
  handed_eq : ∀ c, handed d.events c = takenBy t c taken
  stream : ∀ (si : ℕ) (s : StreamState), d.streams[si]? = some s → s.id = ⟨si⟩ ∧
    accepted d.events s.id = takenOf si taken ++ discarded d.events s.id ++ s.queue.contents
  kept : d.state = .running ∨ d.state = .draining → ∀ id, discarded d.events id = []

section Carried

variable {t : FlowTopology} {taken : List (ℕ × StreamElementRef)} {d : FlowDriver}

theorem Channelled.carried (h : Channelled t taken d) : Carried t taken d where
  handed_eq := h.handed_eq
  stream si s hs := by
    rw [h.id_eq si s hs, h.discarded_eq, List.append_nil]
    exact ⟨rfl, h.accepted_eq si s hs⟩
  kept _ := h.discarded_eq

/-- What was queued at the end has been discarded. -/
theorem Channelled.finish (h : Channelled t taken d) (r : Round) :
    Carried t taken (d.finish r) := by
  set last : List FlowEvent := [.flowStateChanged .draining (terminalState d.drainReason),
    .flowCompleted (d.forceDrain.completionStats r)] with hlast
  have hevents : (d.finish r).events = d.events ++ (d.streams.filterMap discardEvent ++ last) := by
    show d.events ++ d.streams.filterMap discardEvent ++ [_] ++ [_] = _
    simp only [List.append_assoc, List.cons_append, List.nil_append]
    rfl
  have hmute : ∀ ev ∈ last, ev.IsMute := by
    intro ev hev
    simp only [hlast, List.mem_cons, List.not_mem_nil, or_false] at hev
    rcases hev with rfl | rfl <;> exact ⟨fun _ => rfl, fun _ => rfl, fun _ => rfl⟩
  have hdiscards : ∀ ev ∈ d.streams.filterMap discardEvent,
      ∃ id elems, ev = .discarded id elems := by
    intro ev hev
    obtain ⟨s, -, hs⟩ := List.mem_filterMap.mp hev
    unfold discardEvent at hs
    split at hs
    · cases hs
    · exact ⟨_, _, (Option.some.inj hs).symm⟩
  have haccepted : ∀ id, accepted (d.streams.filterMap discardEvent) id = [] := fun id =>
    List.filterMap_eq_nil_iff.mpr fun ev hev => by
      obtain ⟨_, _, rfl⟩ := hdiscards ev hev
      rfl
  have hhanded : ∀ c, handed (d.streams.filterMap discardEvent) c = [] := fun c =>
    List.filterMap_eq_nil_iff.mpr fun ev hev => by
      obtain ⟨_, _, rfl⟩ := hdiscards ev hev
      rfl
  refine ⟨fun c => ?_, fun si s' hs' => ?_, fun hlive => ?_⟩
  · rw [hevents, handed_append, handed_append, hhanded, handed_mute hmute, List.append_nil,
      List.append_nil, h.handed_eq]
  · have hstreams : (d.finish r).streams = d.streams.map StreamState.discardAll := rfl
    rw [hstreams, List.getElem?_map] at hs'
    obtain ⟨s, hs, rfl⟩ := Option.map_eq_some_iff.mp hs'
    have hempty : s.discardAll.queue.contents = [] := by
      rw [← List.length_eq_zero_iff, BoundedQueue.length_contents]
      exact s.queue.drainAll_spec.2
    have hid : s.discardAll.id = ⟨si⟩ := h.id_eq si s hs
    refine ⟨hid, ?_⟩
    rw [hid, hempty, List.append_nil, hevents, accepted_append, accepted_append, haccepted,
      accepted_mute hmute, discarded_append, discarded_append, h.discarded_eq, List.nil_append,
      discarded_filterMap h.id_eq hs, discarded_mute hmute, h.accepted_eq si s hs]
    simp only [List.append_nil, List.nil_append]
  · obtain ⟨hr, hd⟩ := d.not_live_finish r
    exact absurd hlive (not_or.mpr ⟨hr, hd⟩)

end Carried

/-- When a run begins nothing has been taken. -/
theorem channelled_start (f : SpawnedFlow) : Channelled f.config.topology [] f.start where
  id_eq := f.inv_start.streams.wired.id_eq
  accepted_eq si s hs := by
    obtain ⟨-, hspec⟩ := spawnStreamsFrom_spec f.built
    have hlen : s.queue.len = 0 := (hspec si s hs).2.2.1
    have hempty : s.queue.contents = [] := by
      rw [← List.length_eq_zero_iff, BoundedQueue.length_contents, hlen]
    rw [hempty]
    rfl
  handed_eq _ := rfl
  discarded_eq _ := rfl

end FlowDriver

open FlowDriver

/-- A property of the rounds of a run, and what the end of the run makes of it. -/
theorem run_or_ended (f : SpawnedFlow) (live ended : FlowDriver → Prop) (hstart : live f.start)
    (hstep : ∀ d r, DriverInv f.config.topology d → live d →
      d.chosen r ≠ none ∨ d.state ≠ .draining → live (d.step r))
    (hfinish : ∀ d r, live d → ended (d.finish r)) (rounds : List Round) :
    live (f.run rounds) ∨ ended (f.run rounds) := by
  -- what the end has made of the property stays, because the run goes no further
  suffices h : live (f.run rounds) ∨ ended (f.run rounds) ∧
      (f.run rounds).state ≠ .running ∧ (f.run rounds).state ≠ .draining from
    h.imp_right And.left
  induction rounds using List.reverseRecOn with
  | nil => exact .inl hstart
  | append_singleton rounds r ih =>
      have hrun := f.run_snoc rounds r
      rw [hrun]
      by_cases hlive : (f.run rounds).state = .running ∨ (f.run rounds).state = .draining
      · have hinv := f.inv_run rounds hlive
        have hholds := ih.resolve_right fun h => not_or.mpr h.2 hlive
        by_cases hgoes : (f.run rounds).chosen r ≠ none ∨ (f.run rounds).state ≠ .draining
        · exact .inl (hstep _ r hinv hholds hgoes)
        · -- the drain loop finds nothing to do, and the run ends
          simp only [ne_eq, not_or, not_not] at hgoes
          rw [step_eq_finish hgoes.1 hgoes.2]
          exact .inr ⟨hfinish _ r hholds, (f.run rounds).not_live_finish r⟩
      · obtain ⟨hr, hd⟩ := not_or.mp hlive
        rw [step_of_not_live hr hd]
        exact ih

/-- **Streams are channels.**  In every run the elements that have been taken, with the streams
they came from, are such that every component has been handed exactly those of its streams, and
what was accepted on a stream is what was taken from it, then what the end of the run discarded,
then what is still queued. -/
theorem streams_are_channels (f : SpawnedFlow) (rounds : List Round) :
    ∃ taken, Carried f.config.topology taken (f.run rounds) := by
  have hrun := run_or_ended f (fun d => ∃ taken, Channelled f.config.topology taken d)
    (fun d => ∃ taken, Carried f.config.topology taken d) ⟨[], channelled_start f⟩
    (fun d r hinv ⟨taken, htaken⟩ hgoes =>
      let ⟨last, hlast⟩ := channelled_step f.valid hinv htaken r hgoes
      ⟨taken ++ last, hlast⟩)
    (fun d r ⟨taken, htaken⟩ => ⟨taken, htaken.finish r⟩) rounds
  exact hrun.elim (fun ⟨taken, h⟩ => ⟨taken, h.carried⟩) id

end Torvyn.Reactor
