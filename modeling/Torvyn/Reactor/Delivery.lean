/-
# What becomes of an element

An element that is queued stays queued until a stage takes it, and the stage hands it
to its component (`executeStage_delivers`).  The log therefore shows for every element
that was ever queued either that it has been handed over or, as long as nothing is
discarded, that it is still there.
-/
import Torvyn.Reactor.Readiness

namespace Torvyn.Reactor

/-! ## Handing over -/

/-- Whether an invocation has failed or timed out. -/
def Answer.failed {α : Type} : Answer α → Bool
  | .ok _ => false
  | .error _ | .timeout => true

/-- An invocation that did not succeed. -/
def FlowEvent.isFailure : FlowEvent → Bool
  | .invoked _ (.pull answer) => answer.failed
  | .invoked _ (.process _ answer) => answer.failed
  | .invoked _ (.push _ answer) => answer.failed
  | _ => false

/-- An invocation that hands an element to a component. -/
def FlowEvent.Hands (component : ComponentId) (x : StreamElementRef) : FlowEvent → Prop
  | .invoked c (.process element _) | .invoked c (.push element _) =>
      c = component ∧ element = ⟨x.metadata, x.bufferHandle⟩
  | _ => False

/-- The component that the stream of index `si` feeds. -/
def consumerOf (t : FlowTopology) (si : ℕ) : Option ComponentId :=
  t.connections[si]?.bind fun c => t.stages[c.toStage]?.map StageDefinition.componentId

/-- Among the events, the element of the stream `si` is handed to the stream's consumer. -/
def HandedOver (t : FlowTopology) (si : ℕ) (x : StreamElementRef) (events : List FlowEvent) : Prop :=
  ∃ component, consumerOf t si = some component ∧ ∃ ev ∈ events, ev.Hands component x

/-- Components that never fail. -/
structure Invoker.Succeeds (i : Invoker) : Prop where
  pull : ∀ c, (i.pull c).failed = false
  process : ∀ c e, (i.process c e).failed = false
  push : ∀ c e, (i.push c e).failed = false

theorem consumerOf_eq {t : FlowTopology} {si v : ℕ} {stage : StageDefinition}
    (hsi : si ∈ (StreamIndex.build t).inputs v) (hstage : t.stages[v]? = some stage) :
    consumerOf t si = some stage.componentId := by
  obtain ⟨c, hc, rfl⟩ := StreamIndex.mem_inputs.mp hsi
  simp [consumerOf, hc, hstage]

theorem HandedOver.mono {t : FlowTopology} {si : ℕ} {x : StreamElementRef}
    {events events' : List FlowEvent} (h : HandedOver t si x events)
    (hsub : ∀ ev ∈ events, ev ∈ events') : HandedOver t si x events' := by
  obtain ⟨component, hc, ev, hev, hands⟩ := h
  exact ⟨component, hc, ev, hsub ev hev, hands⟩

/-! ## Delivery -/

/-- Between `d` and `d'` the events `new` are logged, and whatever is queued at the
beginning or accepted meanwhile is still queued or has been handed over.  If `P` holds
no invocation fails. -/
structure Delivers (t : FlowTopology) (P : Prop) (d d' : FlowDriver) (new : List FlowEvent) :
    Prop where
  events_eq : d'.events = d.events ++ new
  succeeds : P → ∀ ev ∈ new, ev.isFailure = false
  length_eq : d'.streams.length = d.streams.length
  stream : ∀ (si : ℕ) (s : StreamState), d.streams[si]? = some s →
    ∃ s', d'.streams[si]? = some s' ∧ s'.id = s.id ∧
      ∀ x, x ∈ s.queue.contents ∨ .pushed ⟨si⟩ x .ok ∈ new →
        x ∈ s'.queue.contents ∨ HandedOver t si x new

section Delivers

variable {t : FlowTopology} {P : Prop} {d d₁ d' : FlowDriver} {new new' : List FlowEvent}

theorem Delivers.trans (h : Delivers t P d d₁ new) (h' : Delivers t P d₁ d' new') :
    Delivers t P d d' (new ++ new') where
  events_eq := by rw [h'.events_eq, h.events_eq, List.append_assoc]
  succeeds := fun hp ev hev =>
    (List.mem_append.mp hev).elim (h.succeeds hp ev) (h'.succeeds hp ev)
  length_eq := h'.length_eq.trans h.length_eq
  stream := by
    intro si s hs
    obtain ⟨s₁, hs₁, hid₁, hkept₁⟩ := h.stream si s hs
    obtain ⟨s', hs', hid', hkept'⟩ := h'.stream si s₁ hs₁
    refine ⟨s', hs', hid'.trans hid₁, fun x hx => ?_⟩
    have hlater : x ∈ s₁.queue.contents ∨ .pushed ⟨si⟩ x .ok ∈ new' →
        x ∈ s'.queue.contents ∨ HandedOver t si x (new ++ new') := fun hx =>
      (hkept' x hx).imp_right fun hh => hh.mono fun ev hev => List.mem_append_right _ hev
    have hearlier : x ∈ s.queue.contents ∨ .pushed ⟨si⟩ x .ok ∈ new →
        x ∈ s'.queue.contents ∨ HandedOver t si x (new ++ new') := fun hx =>
      (hkept₁ x hx).elim (fun hin => hlater (Or.inl hin))
        fun hh => Or.inr (hh.mono fun ev hev => List.mem_append_left _ hev)
    rcases hx with hx | hx
    · exact hearlier (Or.inl hx)
    · exact (List.mem_append.mp hx).elim (fun h => hearlier (Or.inr h)) fun h => hlater (Or.inr h)

theorem Delivers.mono {Q : Prop} (h : Delivers t P d d' new) (hpq : Q → P) :
    Delivers t Q d d' new := ⟨h.events_eq, fun hq => h.succeeds (hpq hq), h.length_eq, h.stream⟩

/-- Streams that keep their queues, while nothing is accepted. -/
theorem Delivers.of_contents_eq (hevents : d'.events = d.events ++ new)
    (hsucceeds : P → ∀ ev ∈ new, ev.isFailure = false) (hlen : d'.streams.length = d.streams.length)
    (hstreams : ∀ (si : ℕ) (s : StreamState), d.streams[si]? = some s →
      ∃ s', d'.streams[si]? = some s' ∧ s'.id = s.id ∧ s'.queue = s.queue)
    (hpushed : ∀ ev ∈ new, ∀ id x, ev ≠ .pushed id x .ok) : Delivers t P d d' new where
  events_eq := hevents
  succeeds := hsucceeds
  length_eq := hlen
  stream := by
    intro si s hs
    obtain ⟨s', hs', hid, hqueue⟩ := hstreams si s hs
    refine ⟨s', hs', hid, fun x hx => Or.inl ?_⟩
    rw [hqueue]
    exact hx.resolve_right fun hev => hpushed _ hev _ _ rfl

theorem Delivers.refl (d : FlowDriver) : Delivers t P d d [] :=
  .of_contents_eq (List.append_nil _).symm (by simp) rfl (fun _ s hs => ⟨s, hs, rfl, rfl⟩) (by simp)

/-- Logging an event. -/
theorem Delivers.log (d : FlowDriver) {ev : FlowEvent} (hsucceeds : P → ev.isFailure = false)
    (hpushed : ∀ id x, ev ≠ .pushed id x .ok) : Delivers t P d (d.log ev) [ev] :=
  .of_contents_eq rfl (by simpa using hsucceeds) rfl (fun _ s hs => ⟨s, hs, rfl, rfl⟩)
    (by simpa using hpushed)

/-- A queue that is changed at one end, and one event. -/
theorem Delivers.of_set {si : ℕ} {s s' : StreamState} {ev : FlowEvent}
    (hs : d.streams[si]? = some s) (hevents : d'.events = d.events ++ [ev])
    (hsucceeds : P → ev.isFailure = false) (hstreams : d'.streams = d.streams.set si s')
    (hid : s'.id = s.id) (hother : ∀ sj x, ev = .pushed ⟨sj⟩ x .ok → sj = si)
    (hkept : ∀ x, x ∈ s.queue.contents ∨ ev = .pushed ⟨si⟩ x .ok →
      x ∈ s'.queue.contents ∨ HandedOver t si x [ev]) : Delivers t P d d' [ev] where
  events_eq := hevents
  succeeds := by simpa using hsucceeds
  length_eq := by rw [hstreams, List.length_set]
  stream := by
    intro sj s₁ hs₁
    rw [hstreams]
    by_cases hj : si = sj
    · subst hj
      obtain rfl : s = s₁ := Option.some.inj (hs.symm.trans hs₁)
      refine ⟨s', List.getElem?_set_self (List.getElem?_eq_some_iff.mp hs).1, hid, fun x hx => ?_⟩
      exact hkept x (hx.imp_right fun h => (List.mem_singleton.mp h).symm)
    · refine ⟨s₁, (List.getElem?_set_ne hj).trans hs₁, rfl, fun x hx => Or.inl ?_⟩
      refine hx.resolve_right fun h => hj ?_
      exact (hother sj x (List.mem_singleton.mp h).symm).symm

/-! ## Pushes -/

/-- Emitting an element keeps what is queued, and queues the element if it is accepted. -/
theorem mem_contents_emit (s : StreamState) (elem x : StreamElementRef)
    (hx : x ∈ s.queue.contents ∨ (x = elem ∧ (s.emit elem).1 = .ok)) :
    x ∈ (s.emit elem).2.queue.contents := by
  show x ∈ (s.queue.push elem).2.contents
  rw [BoundedQueue.contents_push]
  rcases hx with hx | ⟨rfl, hok⟩
  · split
    · exact hx
    · exact List.mem_append_left _ hx
  · rw [StreamState.emit_fst_eq_ok_iff] at hok
    rw [hok]
    exact List.mem_append_right _ (List.mem_singleton_self _)

/-- One push onto a wired stream. -/
theorem pushed_delivers {si : ℕ} {s s' : StreamState} {elem : StreamElementRef}
    (hw : Wired t d.streams) (hs : d.streams[si]? = some s)
    (hevents : d'.events = d.events ++ [.pushed s.id elem (s.emit elem).1])
    (hstreams : d'.streams = d.streams.set si s')
    (hs' : s' = (s.emit elem).2 ∨ s' = (s.emit elem).2.recordEnqueue) :
    Delivers t P d d' [.pushed s.id elem (s.emit elem).1] := by
  have hsid := hw.id_eq si s hs
  refine .of_set hs hevents (fun _ => rfl) hstreams ?_ ?_ ?_
  · rcases hs' with rfl | rfl <;> rfl
  · intro sj x hev
    injection hev with hid
    rw [hsid] at hid
    exact (StreamId.mk.inj hid).symm
  · intro x hx
    left
    have hmem := mem_contents_emit s elem x (hx.imp_right fun hev => by
      injection hev with _ helem hok
      exact ⟨helem.symm, hok⟩)
    rcases hs' with rfl | rfl <;> exact hmem

theorem pushOutput_delivers (hw : Wired t d.streams) (input : StreamElementRef)
    (output : OutputElement) (si : ℕ) : ∃ new, Delivers t P d (d.pushOutput input output si) new := by
  cases hs : d.streams[si]? with
  | none =>
      refine ⟨[], .of_contents_eq ?_ (by simp) ?_ ?_ (by simp)⟩
      · simp [FlowDriver.pushOutput, hs]
      · simp [FlowDriver.pushOutput, hs]
      · exact fun sj s hsj => ⟨s, by simpa [FlowDriver.pushOutput, hs] using hsj, rfl, rfl⟩
  | some s =>
      have heq := FlowDriver.pushOutput_eq input output hs
      exact ⟨_, pushed_delivers hw hs (congrArg FlowDriver.events heq)
        (congrArg FlowDriver.streams heq) (Or.inr rfl)⟩

/-- Delivery keeps the wiring. -/
theorem Delivers.wired (h : Delivers t P d d' new) (hw : Wired t d.streams) :
    Wired t d'.streams := by
  refine ⟨h.length_eq.trans hw.length_eq, fun si s' hs' => ?_⟩
  have hlt := (List.getElem?_eq_some_iff.mp hs').1
  rw [h.length_eq] at hlt
  have hs := List.getElem?_eq_getElem hlt
  obtain ⟨s₁, hs₁, hid, -⟩ := h.stream si _ hs
  obtain rfl := Option.some.inj (hs'.symm.trans hs₁)
  rw [hid]
  exact hw.id_eq si _ hs

theorem pushAll_delivers (input : StreamElementRef) (ts : List (OutputElement × ℕ)) (d : FlowDriver)
    (hw : Wired t d.streams) : ∃ new, Delivers t P d (d.pushAll input ts) new := by
  induction ts generalizing d with
  | nil => exact ⟨[], .refl d⟩
  | cons p ts ih =>
      obtain ⟨new, hnew⟩ := pushOutput_delivers (P := P) hw input p.1 p.2
      obtain ⟨new', hnew'⟩ := ih _ (hnew.wired hw)
      exact ⟨new ++ new', hnew.trans hnew'⟩

theorem pushPulled_delivers (hw : Wired t d.streams) (r : Round) (element : OutputElement)
    (si : ℕ) : ∃ new, Delivers t P d (d.pushPulled r element si) new := by
  cases hs : d.streams[si]? with
  | none =>
      refine ⟨[], .of_contents_eq ?_ (by simp) ?_ ?_ (by simp)⟩
      · simp [FlowDriver.pushPulled, hs]
      · simp [FlowDriver.pushPulled, hs]
      · exact fun sj s hsj => ⟨s, by simpa [FlowDriver.pushPulled, hs] using hsj, rfl, rfl⟩
  | some s =>
      set elem := FlowDriver.stamp d.nextGlobalSequence d.nextGlobalSequence r.timestampNs element with helem
      set s' := if s.queue.isFull then (s.emit elem).2 else (s.emit elem).2.recordEnqueue with hs'
      have heq := FlowDriver.pushPulled_eq r element hs
      -- first the push, then the report of an accepted element
      set dp : FlowDriver := { d with
        nextGlobalSequence := d.nextGlobalSequence + 1
        currentElementSequence := some d.nextGlobalSequence
        streams := d.streams.set si s'
        events := d.events ++ [.pushed s.id elem (s.emit elem).1] } with hdp
      have hpush : Delivers t P d dp [.pushed s.id elem (s.emit elem).1] := by
        refine pushed_delivers hw hs rfl rfl ?_
        by_cases hfull : s.queue.isFull = true
        · exact Or.inl (if_pos hfull)
        · exact Or.inr (if_neg hfull)
      set reported : List FlowEvent := if s.queue.isFull then []
        else [.recordElementTransfer s.id d.nextGlobalSequence
          ((s.emit elem).2.queue.len % 2 ^ 32)] with hreported
      have hreport : Delivers t P dp (d.pushPulled r element si) reported := by
        rw [heq]
        refine .of_contents_eq (by simp [hdp, hreported, helem]) ?_ rfl
          (fun _ s₁ hs₁ => ⟨s₁, hs₁, rfl, rfl⟩) ?_
        · by_cases hfull : s.queue.isFull = true <;> simp [hreported, hfull, FlowEvent.isFailure]
        · by_cases hfull : s.queue.isFull = true <;> simp [hreported, hfull]
      exact ⟨_, hpush.trans hreport⟩

end Delivers

/-! ## Executions -/

section Execution

variable {t : FlowTopology} {d : FlowDriver} (r : Round) (v : ℕ) {stage : StageDefinition}

/-- A pull delivers: what it logs besides pushes is its invocation. -/
theorem executePull_delivers (hw : Wired t d.streams) (component : ComponentId) :
    ∃ new, Delivers t r.invoker.Succeeds d (d.executePull r v component).1 new := by
  have hinvoked : Delivers t r.invoker.Succeeds d
      (d.log (.invoked component (.pull (r.invoker.pull component))))
      [.invoked component (.pull (r.invoker.pull component))] :=
    .log d (fun hs => hs.pull component) (by simp)
  cases hanswer : r.invoker.pull component with
  | error | timeout =>
      simp only [FlowDriver.executePull, hanswer, Answer.toExcept]
      rw [hanswer] at hinvoked
      exact ⟨_, hinvoked⟩
  | ok output =>
      rw [hanswer] at hinvoked
      set dl := d.log (.invoked component (.pull (.ok output))) with hdl
      cases output with
      | none =>
          have hd : (d.executePull r v component).1 = dl.markComplete (d.streamIndex.outputs v) := by
            simp only [FlowDriver.executePull, hanswer, Answer.toExcept]
            rfl
          rw [hd]
          refine ⟨_, hinvoked.trans (.of_contents_eq (List.append_nil _).symm (by simp)
            (FlowDriver.length_markComplete _ _) (fun si s hs => ?_) (by simp))⟩
          refine ⟨_, by rw [FlowDriver.getElem?_markComplete, hs, Option.map_some], ?_⟩
          split <;> exact ⟨rfl, rfl⟩
      | some element =>
          cases hhead : (d.streamIndex.outputs v).head? with
          | none =>
              have hd : (d.executePull r v component).1 = dl := by
                simp [FlowDriver.executePull, hanswer, Answer.toExcept, hhead, FlowDriver.log, hdl]
              rw [hd]
              exact ⟨_, hinvoked⟩
          | some si =>
              have hd : (d.executePull r v component).1 = dl.pushPulled r element si := by
                simp [FlowDriver.executePull, hanswer, Answer.toExcept, hhead, FlowDriver.log, hdl]
              rw [hd]
              obtain ⟨new, hnew⟩ := pushPulled_delivers (d := dl) hw r element si
              exact ⟨_, hinvoked.trans hnew⟩

/-- Taking the first element of an input and handing it over. -/
theorem takeInput_delivers (hw : Wired t d.streams) (hstage : t.stages[v]? = some stage) {si : ℕ}
    (hsi : si ∈ (StreamIndex.build t).inputs v) (hpos : 0 < lenAt d.streams si) :
    ∃ elem d₁, d.takeInput ⟨si⟩ = some (elem, d₁) ∧ Wired t d₁.streams ∧
      d₁.streamIndex = d.streamIndex ∧ ∀ (P : Prop) (ev : FlowEvent), ev.Hands stage.componentId elem →
        (P → ev.isFailure = false) → Delivers t P d (d₁.log ev) [ev] := by
  obtain ⟨s, hs⟩ : ∃ s, d.streams[si]? = some s :=
    ⟨_, List.getElem?_eq_getElem (hw.lt_of_mem_inputs hsi)⟩
  rw [lenAt_eq hs] at hpos
  obtain ⟨elem, hcontents, htake⟩ := FlowDriver.takeInput_of_wired hw hs hpos
  have hdelivers : ∀ (P : Prop) (ev : FlowEvent), ev.Hands stage.componentId elem →
      (P → ev.isFailure = false) →
      Delivers t P d ({ d with
        streams := d.streams.set si s.take.2
        currentElementSequence := some elem.originSequence }.log ev) [ev] := by
    intro P ev hands hsucceeds
    refine .of_set hs rfl hsucceeds rfl rfl ?_ fun x hx => ?_
    · rintro sj x rfl
      exact hands.elim
    · have hin : x ∈ s.queue.contents := hx.resolve_right fun hev => by
        rw [hev] at hands
        exact hands.elim
      rw [hcontents, List.mem_cons] at hin
      rcases hin with rfl | hin
      · exact Or.inr ⟨_, consumerOf_eq hsi hstage, ev, List.mem_singleton_self _, hands⟩
      · exact Or.inl hin
  refine ⟨elem, _, htake, ?_, rfl, hdelivers⟩
  -- an event that hands the element over, to read the wiring off
  exact (hdelivers True (.invoked stage.componentId
    (.push ⟨elem.metadata, elem.bufferHandle⟩ (.ok .ready))) ⟨rfl, rfl⟩ fun _ => rfl).wired hw

theorem executeProcess_delivers (hw : Wired t d.streams) (hstage : t.stages[v]? = some stage)
    {si : ℕ} (hsi : si ∈ (StreamIndex.build t).inputs v) (hpos : 0 < lenAt d.streams si) :
    ∃ new, Delivers t r.invoker.Succeeds d
      (d.executeProcess r v stage.componentId ⟨si⟩).1 new := by
  obtain ⟨elem, d₁, htake, hw₁, hindex, hdelivers⟩ := takeInput_delivers v hw hstage hsi hpos
  set answer := r.invoker.process stage.componentId ⟨elem.metadata, elem.bufferHandle⟩ with hanswer
  have hinvoked := hdelivers r.invoker.Succeeds (.invoked stage.componentId
    (.process ⟨elem.metadata, elem.bufferHandle⟩ answer)) ⟨rfl, rfl⟩ fun hs => hs.process _ _
  simp only [FlowDriver.executeProcess, htake, ← hanswer]
  cases hval : answer with
  | error | timeout =>
      rw [hval] at hinvoked
      exact ⟨_, hinvoked⟩
  | ok result =>
      rw [hval] at hinvoked
      obtain ⟨new, hnew⟩ := pushAll_delivers (t := t) (P := r.invoker.Succeeds) elem
        (FlowDriver.targets result (d₁.streamIndex.outputs v)) _ (hinvoked.wired hw)
      exact ⟨_, hinvoked.trans hnew⟩

theorem executePush_delivers (hw : Wired t d.streams) (hstage : t.stages[v]? = some stage)
    {si : ℕ} (hsi : si ∈ (StreamIndex.build t).inputs v) (hpos : 0 < lenAt d.streams si) :
    ∃ new, Delivers t r.invoker.Succeeds d (d.executePush r stage.componentId ⟨si⟩).1 new := by
  obtain ⟨elem, d₁, htake, -, -, hdelivers⟩ := takeInput_delivers v hw hstage hsi hpos
  set answer := r.invoker.push stage.componentId ⟨elem.metadata, elem.bufferHandle⟩ with hanswer
  have hinvoked := hdelivers r.invoker.Succeeds (.invoked stage.componentId
    (.push ⟨elem.metadata, elem.bufferHandle⟩ answer)) ⟨rfl, rfl⟩ fun hs => hs.push _ _
  simp only [FlowDriver.executePush, htake, ← hanswer]
  cases hval : answer with
  | error | timeout =>
      rw [hval] at hinvoked
      exact ⟨_, hinvoked⟩
  | ok signal =>
      rw [hval] at hinvoked
      exact ⟨_, hinvoked.trans (.log _ (fun _ => rfl) (by simp))⟩

/-- Recording an execution hands nothing over and pushes nothing. -/
theorem recordExecution_delivers {P : Prop} (d : FlowDriver) (e : StageExecution)
    (result : Except FlowError Unit) : ∃ new, Delivers t P d (d.recordExecution r e result) new := by
  obtain ⟨hstreams, -, -⟩ := d.recordExecution_frame r e result
  have hevents : ∃ new, (d.recordExecution r e result).events = d.events ++ new ∧
      ∀ ev ∈ new, ev.isFailure = false ∧ ∀ id x, ev ≠ .pushed id x .ok := by
    unfold FlowDriver.recordExecution
    simp only
    split
    · exact ⟨[_, _], List.append_assoc _ _ _, by simp [FlowEvent.isFailure]⟩
    · exact ⟨[_], rfl, by simp [FlowEvent.isFailure]⟩
  obtain ⟨new, hnew, hquiet⟩ := hevents
  exact ⟨new, .of_contents_eq hnew (fun _ ev hev => (hquiet ev hev).1) (by rw [hstreams])
    (fun si s hs => ⟨s, hstreams ▸ hs, rfl, rfl⟩) fun ev hev => (hquiet ev hev).2⟩

/-- **An execution delivers**: the elements it does not take stay queued, the element it
takes is handed to the stage's component, and accepted outputs are queued. -/
theorem executeStage_delivers (ht : t.Valid) (htopo : d.topology = t)
    (hindex : d.streamIndex = .build t) (hw : Wired t d.streams) {e : StageExecution}
    (he : d.nextReady = some e) :
    ∃ new, Delivers t r.invoker.Succeeds d (d.executeStage r e).1 new := by
  rw [FlowDriver.nextReady, htopo, hindex] at he
  obtain ⟨stage, hstage, hcomponent, haction, -⟩ := nextReadyStage_spec ht he
  obtain ⟨-, hcases⟩ := stageAction_cases hw.id_eq haction
  set d₀ : FlowDriver := { d with currentElementSequence := none } with hd₀
  have hw₀ : Wired t d₀.streams := hw
  have hexec : ∃ new, Delivers t r.invoker.Succeeds d₀ (d₀.executeAction r e).1 new := by
    obtain ⟨component, v, action⟩ := e
    simp only at hcomponent hstage hcases
    subst hcomponent
    rcases hcases with ⟨-, rfl⟩ | ⟨si, hsi, hin, ⟨-, rfl⟩ | ⟨-, -, rfl⟩⟩
    · exact executePull_delivers r v hw₀ stage.componentId
    · exact executePush_delivers r v hw₀ hstage hsi (hasInputAt_eq_true_iff.mp hin)
    · exact executeProcess_delivers r v hw₀ hstage hsi (hasInputAt_eq_true_iff.mp hin)
  obtain ⟨new, hnew⟩ := hexec
  obtain ⟨new', hnew'⟩ := recordExecution_delivers (t := t) (P := r.invoker.Succeeds) r
    (d₀.executeAction r e).1 e (d₀.executeAction r e).2
  have hall := hnew.trans hnew'
  exact ⟨_, hall.events_eq, hall.succeeds, hall.length_eq, hall.stream⟩

end Execution

end Torvyn.Reactor
