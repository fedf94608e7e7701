/-
# Runs of the driver

`step_running` lists what one iteration of the main loop can do, `step_draining` what
one iteration of the drain loop can do.  From them `inv_run` derives the invariant of
every state a run reaches before its force-drain, and `credit_run` its part about
credit, which needs no validation.
-/
import Torvyn.Reactor.Invariant

namespace Torvyn.Reactor

namespace FlowDriver

/-! ## The parts of an iteration -/

/-- A driver with another cancellation token. -/
def withCancellation (d : FlowDriver) (c : FlowCancellation) : FlowDriver :=
  { d with cancellation := c }

/-- Events that reject nothing do not count. -/
theorem any_isRejection_append (events : List FlowEvent) {more : List FlowEvent}
    (h : ∀ ev ∈ more, ev.isRejection = false) :
    (events ++ more).any FlowEvent.isRejection = events.any FlowEvent.isRejection := by
  have hmore : more.any FlowEvent.isRejection = false :=
    List.any_eq_false.mpr fun ev hev => by simp [h ev hev]
  rw [List.any_append, hmore, Bool.or_false]

/-- The check reports backpressure and the notification tells sources; neither rejects
an element. -/
theorem checkBackpressureAll_rejected (d : FlowDriver) (r : Round) :
    (d.checkBackpressureAll r).1.rejected = d.rejected := by
  refine any_isRejection_append d.events fun ev hev => ?_
  obtain ⟨⟨signal, s⟩, -, hev⟩ := List.mem_filterMap.mp hev
  obtain ⟨signal', -, rfl⟩ := Option.map_eq_some_iff.mp hev
  rfl

theorem notifyProducers_rejected (d : FlowDriver) (transitions : List (ℕ × BackpressureSignal)) :
    (d.notifyProducers transitions).rejected = d.rejected := by
  refine any_isRejection_append d.events fun ev hev => ?_
  obtain ⟨⟨si, signal⟩, -, hev⟩ := List.mem_filterMap.mp hev
  obtain ⟨v, -, hev⟩ := Option.bind_eq_some_iff.mp hev
  obtain ⟨stage, -, hev⟩ := Option.bind_eq_some_iff.mp hev
  split at hev
  · obtain rfl := Option.some.inj hev
    rfl
  · cases hev

theorem afterStage_frame (d : FlowDriver) (r : Round) :
    (d.afterStage r).streams = checkAll d.streams r.finish ∧
      (d.afterStage r).context = d.context ∧ (d.afterStage r).rejected = d.rejected := by
  have hrejected := ((d.checkBackpressureAll r).1.notifyProducers_rejected
    (d.checkBackpressureAll r).2).trans (d.checkBackpressureAll_rejected r)
  have hstreams : ((d.checkBackpressureAll r).1.notifyProducers
      (d.checkBackpressureAll r).2).streams = checkAll d.streams r.finish := by
    simp [checkBackpressureAll, notifyProducers, checkAll]
  unfold afterStage yieldCheck
  simp only
  split
  · exact ⟨hstreams, rfl, (any_isRejection_append _ (by simp [FlowEvent.isRejection])).trans hrejected⟩
  · exact ⟨hstreams, rfl, hrejected⟩

/-- Completing one stage marks its outputs, when its inputs are complete. -/
theorem propagateStage_marks (d : FlowDriver) (v : ℕ) :
    Marks (fun si => d.streamIndex.inputs v ≠ [] ∧
        allComplete d.streams (d.streamIndex.inputs v) = true ∧ si ∈ d.streamIndex.outputs v)
      d.streams (d.propagateStage v).streams := by
  unfold propagateStage
  by_cases hnil : d.streamIndex.inputs v = []
  · simp only [hnil, List.isEmpty_nil, if_true]
    exact ⟨rfl, fun si s hs => Or.inr ⟨by simp, hs⟩⟩
  · have hempty : (d.streamIndex.inputs v).isEmpty = false := by simpa using hnil
    by_cases hall : allComplete d.streams (d.streamIndex.inputs v) = true
    · simp only [hempty, hall, Bool.false_eq_true, if_false, if_true]
      simpa [hnil] using d.marks_markComplete (d.streamIndex.outputs v)
    · simp only [hempty, hall, Bool.false_eq_true, if_false]
      exact ⟨rfl, fun si s hs => Or.inr ⟨by simp, hs⟩⟩

@[simp] theorem context_propagateStage (d : FlowDriver) (v : ℕ) :
    (d.propagateStage v).context = d.context := by
  unfold propagateStage
  simp only
  split
  · rfl
  · split <;> rfl

@[simp] theorem events_propagateStage (d : FlowDriver) (v : ℕ) :
    (d.propagateStage v).events = d.events := by
  unfold propagateStage
  simp only
  split
  · rfl
  · split <;> rfl

/-- Propagation over a list of stages touches neither context nor events. -/
theorem foldl_propagateStage_frame (vs : List ℕ) (d : FlowDriver) :
    (vs.foldl propagateStage d).context = d.context ∧
      (vs.foldl propagateStage d).events = d.events := by
  induction vs generalizing d with
  | nil => exact ⟨rfl, rfl⟩
  | cons v vs ih =>
      rw [List.foldl_cons, (ih _).1, (ih _).2]
      exact ⟨context_propagateStage d v, events_propagateStage d v⟩

/-- Propagation leaves queues and backpressure as they are, and completion is never
taken back. -/
theorem foldl_propagateStage_read (vs : List ℕ) (d : FlowDriver) :
    (vs.foldl propagateStage d).streams.length = d.streams.length ∧
      ∀ si < d.streams.length,
        lenAt (vs.foldl propagateStage d).streams si = lenAt d.streams si ∧
        activeAt (vs.foldl propagateStage d).streams si = activeAt d.streams si ∧
        (completeAt d.streams si = true →
          completeAt (vs.foldl propagateStage d).streams si = true) := by
  induction vs generalizing d with
  | nil => exact ⟨rfl, fun si _ => ⟨rfl, rfl, id⟩⟩
  | cons v vs ih =>
      have hm := d.propagateStage_marks v
      obtain ⟨hlen, hread⟩ := ih (d.propagateStage v)
      refine ⟨hlen.trans hm.length_eq, fun si hlt => ?_⟩
      obtain ⟨-, hactive, hlen', hcomplete⟩ := hm.read hlt
      obtain ⟨hl, ha, hc⟩ := hread si (hm.length_eq ▸ hlt)
      exact ⟨hl.trans hlen', ha.trans hactive, fun h => hc (hcomplete.mpr (Or.inl h))⟩

theorem propagateProducerComplete_frame (d : FlowDriver) :
    d.propagateProducerComplete.context = d.context ∧
      d.propagateProducerComplete.rejected = d.rejected := by
  obtain ⟨hcontext, hevents⟩ :=
    foldl_propagateStage_frame (List.range d.topology.stages.length) d
  exact ⟨hcontext, by rw [rejected, propagateProducerComplete, hevents, rejected]⟩

theorem markSource_marks (d : FlowDriver) (v : ℕ) :
    Marks (fun si => d.streamIndex.inputs v = [] ∧ si ∈ d.streamIndex.outputs v)
      d.streams (d.markSource v).streams := by
  unfold markSource
  by_cases hnil : d.streamIndex.inputs v = []
  · simpa [hnil] using d.marks_markComplete (d.streamIndex.outputs v)
  · have hempty : (d.streamIndex.inputs v).isEmpty = false := by simpa using hnil
    simp only [hempty, Bool.false_eq_true, if_false]
    exact ⟨rfl, fun si s hs => Or.inr ⟨fun h => hnil h.1, hs⟩⟩

/-- Marking the sources of a list of stages. -/
theorem foldl_markSource (vs : List ℕ) (d : FlowDriver) :
    (vs.foldl markSource d).context = d.context ∧ (vs.foldl markSource d).events = d.events ∧
      Marks (fun si => ∃ v ∈ vs, d.streamIndex.inputs v = [] ∧ si ∈ d.streamIndex.outputs v)
        d.streams (vs.foldl markSource d).streams := by
  induction vs generalizing d with
  | nil => exact ⟨rfl, rfl, rfl, fun si s hs => Or.inr ⟨by simp, hs⟩⟩
  | cons v vs ih =>
      have hcontext : (d.markSource v).context = d.context := by
        unfold markSource
        split <;> rfl
      have hevents : (d.markSource v).events = d.events := by
        unfold markSource
        split <;> rfl
      obtain ⟨hc, he, hm⟩ := ih (d.markSource v)
      have hindex : (d.markSource v).streamIndex = d.streamIndex :=
        congrArg Context.streamIndex hcontext
      rw [hindex] at hm
      have hone := d.markSource_marks v
      refine ⟨hc.trans hcontext, he.trans hevents, hm.length_eq.trans hone.length_eq, ?_⟩
      intro si s hs
      simp only [List.mem_cons, exists_eq_or_imp]
      rcases hone.stream si s hs with ⟨hv, hs₁⟩ | ⟨hv, hs₁⟩
      · left
        refine ⟨Or.inl hv, ?_⟩
        rcases hm.stream si _ hs₁ with ⟨-, hs₂⟩ | ⟨-, hs₂⟩ <;> exact hs₂
      · rcases hm.stream si _ hs₁ with ⟨hvs, hs₂⟩ | ⟨hvs, hs₂⟩
        · exact Or.inl ⟨Or.inr hvs, hs₂⟩
        · exact Or.inr ⟨fun h => h.elim hv hvs, hs₂⟩

/-- Entering the drain phase marks the outputs of the stages without inputs. -/
theorem beginDrain_frame (d : FlowDriver) (r : Round) :
    (d.beginDrain r).topology = d.topology ∧ (d.beginDrain r).streamIndex = d.streamIndex ∧
      (d.beginDrain r).state = .draining ∧ (d.beginDrain r).rejected = d.rejected ∧
      Marks (fun si => ∃ v < d.topology.stages.length,
          d.streamIndex.inputs v = [] ∧ si ∈ d.streamIndex.outputs v)
        d.streams (d.beginDrain r).streams := by
  obtain ⟨hc, he, hm⟩ := foldl_markSource (List.range d.topology.stages.length) d
  refine ⟨congrArg Context.topology hc, congrArg Context.streamIndex hc, rfl, ?_, ?_⟩
  · rw [rejected, rejected, ← he]
    exact any_isRejection_append _ (by simp [FlowEvent.isRejection])
  · simp only [List.mem_range] at hm
    exact hm

/-- What the end of a run logs: the elements it discards, the last change of state and
the statistics. -/
theorem finish_events (d : FlowDriver) (r : Round) :
    ∃ more, (d.finish r).events = d.events ++ more ∧
      (∀ ev ∈ more, (∃ s ∈ d.streams, 0 < s.queue.len ∧ ev = .discarded s.id s.queue.contents) ∨
        (∃ oldState newState, ev = .flowStateChanged oldState newState) ∨
        ∃ stats, ev = .flowCompleted stats) ∧
      ∀ s ∈ d.streams, 0 < s.queue.len → .discarded s.id s.queue.contents ∈ more := by
  set discards : List FlowEvent := d.streams.filterMap fun s =>
    if s.queue.drainAll.1.isEmpty then none else some (.discarded s.id s.queue.drainAll.1)
    with hdiscards
  have hmem : ∀ ev, ev ∈ discards ↔
      ∃ s ∈ d.streams, 0 < s.queue.len ∧ ev = .discarded s.id s.queue.contents := by
    intro ev
    rw [hdiscards, List.mem_filterMap]
    refine exists_congr fun s => and_congr_right fun _ => ?_
    have hempty : s.queue.contents = [] ↔ s.queue.len = 0 := by
      rw [← List.length_eq_zero_iff, s.queue.length_contents]
    simp only [s.queue.drainAll_spec.1, List.isEmpty_iff, hempty]
    by_cases hzero : s.queue.len = 0
    · simp [hzero]
    · simp [hzero, Nat.pos_of_ne_zero hzero, eq_comm]
  refine ⟨discards ++ [.flowStateChanged .draining (terminalState d.drainReason),
    .flowCompleted (d.forceDrain.completionStats r)], ?_, ?_, ?_⟩
  · show d.events ++ discards ++ [_] ++ [_] = _
    simp only [List.append_assoc, List.cons_append, List.nil_append]
    rfl
  · intro ev hev
    rcases List.mem_append.mp hev with hev | hev
    · exact Or.inl ((hmem ev).mp hev)
    · simp only [List.mem_cons, List.not_mem_nil, or_false] at hev
      rcases hev with rfl | rfl
      · exact Or.inr (Or.inl ⟨_, _, rfl⟩)
      · exact Or.inr (Or.inr ⟨_, rfl⟩)
  · exact fun s hs hpos => List.mem_append_left _ ((hmem _).mpr ⟨s, hs, hpos, rfl⟩)

/-! ## What one round can do -/

/-- Running a stage executes it, and then stops the loop or goes on. -/
theorem runStage_cases (d : FlowDriver) (r : Round) (e : StageExecution) :
    ∃ c, d.runStage r e = ((d.executeStage r e).1.withCancellation c, .stop) ∨
      d.runStage r e = (((d.executeStage r e).1.withCancellation c).afterStage r, .next) := by
  unfold runStage
  simp only
  split
  · exact ⟨_, Or.inl rfl⟩
  · exact ⟨_, Or.inr rfl⟩

/-- An idle iteration propagates completion, and then stops the loop or goes on. -/
theorem idle_cases (d : FlowDriver) (r : Round) :
    ∃ c, d.idle r = (d.propagateProducerComplete.withCancellation c, .stop) ∨
      d.idle r = (d.propagateProducerComplete.withCancellation c, .next) := by
  unfold idle
  simp only
  split
  · exact ⟨_, Or.inl rfl⟩
  · cases r.wake with
    | cancelled =>
        dsimp only
        split
        · exact ⟨_, Or.inl rfl⟩
        · exact ⟨_, Or.inr rfl⟩
    | deadline =>
        dsimp only
        split
        · exact ⟨_, Or.inl rfl⟩
        · exact ⟨_, Or.inr rfl⟩
    | tick => exact ⟨_, Or.inr rfl⟩

/-- **One iteration of the main loop**: it begins the drain, or runs the stage the
scheduler chose, or finds no stage ready and propagates completion. -/
theorem step_running {d : FlowDriver} (h : d.state = .running) (r : Round) :
    ((d.cancelBy r.cancelBefore).cancellation.isCancelled = true ∧
        d.step r = (d.cancelBy r.cancelBefore).beginDrain r) ∨
      (∃ e c, (d.cancelBy r.cancelBefore).cancellation.isCancelled = false ∧ d.nextReady = some e ∧
        (d.step r =
            (((d.cancelBy r.cancelBefore).executeStage r e).1.withCancellation c).beginDrain r ∨
          d.step r =
            (((d.cancelBy r.cancelBefore).executeStage r e).1.withCancellation c).afterStage r)) ∨
      ∃ c, d.nextReady = none ∧
        (d.step r =
            ((d.cancelBy r.cancelBefore).propagateProducerComplete.withCancellation c).beginDrain r ∨
          d.step r = (d.cancelBy r.cancelBefore).propagateProducerComplete.withCancellation c) := by
  have hnext : (d.cancelBy r.cancelBefore).nextReady = d.nextReady := rfl
  by_cases hcancel : (d.cancelBy r.cancelBefore).cancellation.isCancelled = true
  · exact Or.inl ⟨hcancel, by simp only [step, h, iterate, if_pos hcancel]⟩
  · right
    cases hready : d.nextReady with
    | some e =>
        left
        have hstep : d.iterate r = (d.cancelBy r.cancelBefore).runStage r e := by
          simp only [iterate, if_neg hcancel, hnext, hready]
        obtain ⟨c, hrun | hrun⟩ := (d.cancelBy r.cancelBefore).runStage_cases r e
        · exact ⟨e, c, by simpa using hcancel, rfl, Or.inl (by simp only [step, h, hstep, hrun])⟩
        · exact ⟨e, c, by simpa using hcancel, rfl, Or.inr (by simp only [step, h, hstep, hrun])⟩
    | none =>
        right
        have hstep : d.iterate r = (d.cancelBy r.cancelBefore).idle r := by
          simp only [iterate, if_neg hcancel, hnext, hready]
        obtain ⟨c, hidle | hidle⟩ := (d.cancelBy r.cancelBefore).idle_cases r
        · exact ⟨c, rfl, Or.inl (by simp only [step, h, hstep, hidle])⟩
        · exact ⟨c, rfl, Or.inr (by simp only [step, h, hstep, hidle])⟩

/-- **One iteration of the drain loop**: it runs the stage the scheduler chose, or
ends the run. -/
theorem step_draining {d : FlowDriver} (h : d.state = .draining) (r : Round) :
    (∃ e, r.start < d.drainDeadline ∧ d.nextReady = some e ∧ d.step r = (d.executeStage r e).1) ∨
      ((r.start < d.drainDeadline → d.nextReady = none) ∧ d.step r = d.finish r) := by
  simp only [step, h, drainStep]
  by_cases hlt : r.start < d.drainDeadline
  · rw [if_pos hlt]
    cases hready : d.nextReady with
    | some e => exact Or.inl ⟨e, hlt, rfl, rfl⟩
    | none => exact Or.inr ⟨fun _ => rfl, rfl⟩
  · exact Or.inr ⟨fun h => absurd h hlt, by rw [if_neg hlt]⟩

/-- A run that has ended stays as it is. -/
theorem step_of_not_live {d : FlowDriver} (hr : d.state ≠ .running) (hd : d.state ≠ .draining)
    (r : Round) : d.step r = d := by
  unfold step
  split
  · exact absurd ‹_› hr
  · exact absurd ‹_› hd
  · rfl

theorem run_of_not_live {d : FlowDriver} (hr : d.state ≠ .running) (hd : d.state ≠ .draining)
    (rounds : List Round) : d.run rounds = d := by
  induction rounds with
  | nil => rfl
  | cons r rounds ih => rw [run_cons, step_of_not_live hr hd, ih]

/-- The state a run ends in. -/
theorem isTerminal_finish (d : FlowDriver) (r : Round) :
    (d.finish r).state.isTerminal = true := by
  have hstate : (d.finish r).state = terminalState d.drainReason := rfl
  rw [hstate]
  unfold terminalState
  split <;> rfl

theorem not_live_finish (d : FlowDriver) (r : Round) :
    (d.finish r).state ≠ .running ∧ (d.finish r).state ≠ .draining := by
  have h := d.isTerminal_finish r
  constructor <;> intro hstate <;> rw [hstate] at h <;> cases h

/-! ## The chosen stage -/

theorem addressed_sublist (d : FlowDriver) (r : Round) (e : StageExecution) :
    (d.addressed r e).Sublist (d.streamIndex.outputs e.stageIndex) := by
  have hhead : ((d.streamIndex.outputs e.stageIndex).head?.toList).Sublist
      (d.streamIndex.outputs e.stageIndex) := by
    cases d.streamIndex.outputs e.stageIndex <;> simp
  unfold addressed
  simp only
  split
  · split
    · exact hhead
    · exact List.nil_sublist _
  · split
    · exact List.nil_sublist _
    · split
      · exact targets_sublist _ _
      · exact List.nil_sublist _
  · exact List.nil_sublist _

/-- The position of a stream with input is found by its id. -/
theorem findIdx?_of_hasInputAt {d : FlowDriver} {t : FlowTopology} (hw : Wired t d.streams)
    {si : ℕ} (hin : hasInputAt d.streams si = true) :
    ((d.streams.findIdx? fun s => s.id = ⟨si⟩).filter fun sj => hasInputAt d.streams sj) =
      some si := by
  obtain ⟨s, hs, hpos⟩ := hasInputAt_iff.mp hin
  obtain ⟨elem, -, htake⟩ := takeInput_of_wired hw hs hpos
  rcases d.takeInput_cases ⟨si⟩ with ⟨hnone, -, -⟩ | ⟨sj, s', elem', hs', -, -, hfrom, -⟩
  · rw [hnone] at htake
    cases htake
  · obtain ⟨hidx, -⟩ := Option.filter_eq_some_iff.mp hfrom
    obtain ⟨hlt, hsat, -⟩ := List.findIdx?_eq_some_iff_getElem.mp hidx
    have hid := hw.id_eq sj _ (List.getElem?_eq_getElem hlt)
    have hsat' : (d.streams[sj]).id = (⟨si⟩ : StreamId) := by simpa using hsat
    rw [hsat'] at hid
    rw [hfrom, StreamId.mk.inj hid]

/-- **What the scheduler's choice means**: the stage can run, no later stage of the
order can, and the transfer of its execution belongs to it. -/
theorem nextReady_spec {d : FlowDriver} {t : FlowTopology} (ht : t.Valid) (htopo : d.topology = t)
    (hindex : d.streamIndex = .build t) (hw : Wired t d.streams) {e : StageExecution}
    (h : d.nextReady = some e) (r : Round) :
    ∃ stage, t.stages[e.stageIndex]? = some stage ∧ e.componentId = stage.componentId ∧
      StageTransfer t d.streams e.stageIndex stage (d.transfer r e) ∧
      ∀ w stage', t.stages[w]? = some stage' → t.rank e.stageIndex < t.rank w →
        stageAction d.streams (.build t) w stage'.role = none := by
  rw [nextReady, htopo, hindex] at h
  obtain ⟨stage, hstage, hcomponent, haction, hlater⟩ := nextReadyStage_spec ht h
  obtain ⟨hunblocked, hcases⟩ := stageAction_cases hw.id_eq haction
  refine ⟨stage, hstage, hcomponent, ⟨hindex ▸ d.addressed_sublist r e, hunblocked, ?_⟩, hlater⟩
  obtain ⟨componentId, v, action⟩ := e
  rcases hcases with ⟨hrole, haction'⟩ | ⟨si, hsi, hin, hrest⟩
  · simp only at haction'
    subst haction'
    refine Or.inl ⟨hrole, rfl, ?_⟩
    simp only [transfer, completedBy, hindex]
    split
    · exact Or.inr rfl
    · exact Or.inl rfl
  · right
    have hpos := hasInputAt_eq_true_iff.mp hin
    rcases hrest with ⟨hrole, haction'⟩ | ⟨hrole, -, haction'⟩
    · simp only at haction'
      subst haction'
      exact ⟨by simp [hrole], rfl, si, hsi, hpos, findIdx?_of_hasInputAt hw hin⟩
    · simp only at haction'
      subst haction'
      exact ⟨hrole, rfl, si, hsi, hpos, findIdx?_of_hasInputAt hw hin⟩

end FlowDriver

/-! ## The initial state -/

/-- What the coordinator's streams are. -/
theorem spawnStreamsFrom_spec {flowId : FlowId} {config : FlowConfig} {idx : ℕ}
    {conns : List StreamConnection} {streams : List StreamState}
    (h : spawnStreamsFrom flowId config idx conns = some streams) :
    streams.length = conns.length ∧ ∀ (i : ℕ) (s : StreamState), streams[i]? = some s →
      s.Credit ∧ s.id = ⟨idx + i⟩ ∧ s.queue.len = 0 ∧ s.backpressure = .normal ∧
        s.producerComplete = false ∧ s.metrics = .new := by
  induction conns generalizing idx streams with
  | nil =>
      obtain rfl := Option.some.inj h
      exact ⟨rfl, by simp⟩
  | cons conn conns ih =>
      obtain ⟨stream, hstream, hrest⟩ := Option.bind_eq_some_iff.mp h
      obtain ⟨rest, hsome, rfl⟩ := Option.map_eq_some_iff.mp hrest
      obtain ⟨hlen, hspec⟩ := ih hsome
      refine ⟨by rw [List.length_cons, List.length_cons, hlen], fun i s hs => ?_⟩
      cases i with
      | zero =>
          obtain rfl : stream = s := Option.some.inj hs
          obtain ⟨producer, -, hstream⟩ := Option.bind_eq_some_iff.mp hstream
          obtain ⟨consumer, -, hstream⟩ := Option.bind_eq_some_iff.mp hstream
          exact StreamState.new_spec hstream
      | succ i =>
          obtain ⟨hcredit, hid, hrest⟩ := hspec i s hs
          exact ⟨hcredit, by rw [hid, Nat.add_assoc, Nat.add_comm 1 i], hrest⟩

/-! ## The invariant -/

/-- What a driver satisfies in its main loop and its drain loop. -/
structure DriverInv (t : FlowTopology) (d : FlowDriver) : Prop where
  topology : d.topology = t
  streamIndex : d.streamIndex = .build t
  streams : StreamsInv t d.streams
  live : d.state = .running ∨ d.state = .draining
  active : d.state = .running → ∀ si, activeAt d.streams si = true → 0 < lenAt d.streams si
  sources : d.state = .draining → ∀ v, (StreamIndex.build t).inputs v = [] →
    ∀ o ∈ (StreamIndex.build t).outputs v, completeAt d.streams o = true

namespace DriverInv

variable {t : FlowTopology} {d : FlowDriver}

/-- The action of the chosen stage is the one its role gives it. -/
theorem stageAction_of_ready (ht : t.Valid) (h : DriverInv t d) {e : StageExecution}
    (he : d.nextReady = some e) : ∃ stage, t.stages[e.stageIndex]? = some stage ∧
      stageAction d.streams (.build t) e.stageIndex stage.role = some e.action := by
  rw [FlowDriver.nextReady, h.topology, h.streamIndex] at he
  obtain ⟨stage, hstage, -, haction, -⟩ := nextReadyStage_spec ht he
  exact ⟨stage, hstage, haction⟩

/-- The execution of the chosen stage keeps the invariant of the streams. -/
theorem streamsInv_executeStage (ht : t.Valid) (h : DriverInv t d) {e : StageExecution}
    (he : d.nextReady = some e) (r : Round) : StreamsInv t (d.executeStage r e).1.streams := by
  obtain ⟨stage, hstage, -, hx, -⟩ :=
    FlowDriver.nextReady_spec ht h.topology h.streamIndex h.streams.wired he r
  have hex := d.executeStage_executed r e (h.streamIndex ▸ StreamIndex.outputs_nodup)
  exact h.streams.applies ht hstage hx hex.applies

/-- Propagating completion keeps the invariant of the streams. -/
theorem streamsInv_propagateStage (hindex : d.streamIndex = .build t) (h : StreamsInv t d.streams)
    (v : ℕ) : StreamsInv t (d.propagateStage v).streams := by
  have hm := d.propagateStage_marks v
  rw [hindex] at hm
  refine h.marks hm ?_ ?_
  · rintro u - o ho ⟨-, hall, hov⟩ i hi
    obtain rfl := StreamIndex.outputs_inj ho hov
    have hcomplete := List.all_eq_true.mp hall i hi
    have hs := List.getElem?_eq_getElem (h.wired.lt_of_mem_inputs hi)
    rw [hs, Option.any_some, StreamState.isComplete, Bool.and_eq_true,
      BoundedQueue.isEmpty_iff] at hcomplete
    rw [completeAt_eq hs, lenAt_eq hs]
    exact hcomplete
  · rintro u hu o ho ⟨hne, -, hov⟩ o' ho'
    exact absurd (StreamIndex.outputs_inj ho hov ▸ hu) hne

theorem streamsInv_propagate (hindex : d.streamIndex = .build t) (h : StreamsInv t d.streams)
    (vs : List ℕ) : StreamsInv t (vs.foldl FlowDriver.propagateStage d).streams := by
  induction vs generalizing d with
  | nil => exact h
  | cons v vs ih =>
      have hcontext := d.context_propagateStage v
      exact ih ((congrArg FlowDriver.Context.streamIndex hcontext).trans hindex)
        (streamsInv_propagateStage hindex h v)

/-- Entering the drain phase establishes its invariant. -/
theorem beginDrain (ht : t.Valid) (htopo : d.topology = t) (hindex : d.streamIndex = .build t)
    (h : StreamsInv t d.streams) (r : Round) : DriverInv t (d.beginDrain r) := by
  obtain ⟨htopo', hindex', hstate, -, hm⟩ := d.beginDrain_frame r
  rw [htopo, hindex] at hm
  have hstreams : StreamsInv t (d.beginDrain r).streams := by
    refine h.marks hm ?_ ?_
    · rintro u hu o ho ⟨v, -, hv, hov⟩ i hi
      exact absurd (StreamIndex.outputs_inj ho hov ▸ hv) hu
    · rintro u hu o ho ⟨v, hlt, hv, hov⟩ o' ho'
      obtain rfl := StreamIndex.outputs_inj ho hov
      exact ⟨u, hlt, hv, ho'⟩
  refine ⟨htopo'.trans htopo, hindex'.trans hindex, hstreams, Or.inr hstate, ?_, ?_⟩
  · intro hrun
    rw [hstate] at hrun
    cases hrun
  · intro _ v hv o ho
    obtain ⟨c, hc, rfl⟩ := StreamIndex.mem_outputs.mp ho
    obtain ⟨-, -, -, hread⟩ := hm.read (h.wired.lt_of_mem_outputs ho)
    exact hread.mpr (Or.inr ⟨_, (ht.bounds c (List.mem_of_getElem? hc)).1, hv, ho⟩)

/-- **One round keeps the invariant**, unless it ends the run. -/
theorem step (ht : t.Valid) (h : DriverInv t d) (r : Round)
    (hlive : (d.step r).state = .running ∨ (d.step r).state = .draining) :
    DriverInv t (d.step r) := by
  rcases h.live with hrun | hdrain
  · set d₀ := d.cancelBy r.cancelBefore with hd₀
    have h₀ : DriverInv t d₀ := ⟨h.topology, h.streamIndex, h.streams, h.live, h.active, h.sources⟩
    rcases FlowDriver.step_running hrun r with ⟨-, hstep⟩ | ⟨e, c, -, he, hstep⟩ | ⟨c, -, hstep⟩
    · rw [hstep]
      exact beginDrain (d := d₀) ht h.topology h.streamIndex h.streams r
    · have hstreams := streamsInv_executeStage ht h₀ he r
      have hcontext := (d₀.executeStage_executed r e
        (h₀.streamIndex ▸ StreamIndex.outputs_nodup)).context
      have htopo := (congrArg FlowDriver.Context.topology hcontext).trans h.topology
      have hindex := (congrArg FlowDriver.Context.streamIndex hcontext).trans h.streamIndex
      have hstate := (congrArg FlowDriver.Context.state hcontext).trans hrun
      rcases hstep with hstep | hstep
      · rw [hstep]
        exact beginDrain (d := (d₀.executeStage r e).1.withCancellation c) ht htopo hindex hstreams r
      · rw [hstep]
        obtain ⟨hcheck, hafter, -⟩ :=
          ((d₀.executeStage r e).1.withCancellation c).afterStage_frame r
        have hstate' := (congrArg FlowDriver.Context.state hafter).trans hstate
        refine ⟨(congrArg FlowDriver.Context.topology hafter).trans htopo,
          (congrArg FlowDriver.Context.streamIndex hafter).trans hindex, ?_, Or.inl hstate', ?_, ?_⟩
        · rw [hcheck]
          exact hstreams.checkAll r.finish
        · intro _ si hactive
          rw [hcheck] at hactive ⊢
          rw [(read_checkAll _ _ si).2.1]
          exact (read_checkAll _ _ si).2.2.2 hactive
        · intro hdraining
          exact absurd (hstate'.symm.trans hdraining) (by simp)
    · have hstreams : StreamsInv t d₀.propagateProducerComplete.streams :=
        streamsInv_propagate h₀.streamIndex h₀.streams _
      obtain ⟨hcontext, -⟩ := d₀.propagateProducerComplete_frame
      have htopo := (congrArg FlowDriver.Context.topology hcontext).trans h.topology
      have hindex := (congrArg FlowDriver.Context.streamIndex hcontext).trans h.streamIndex
      have hstate := (congrArg FlowDriver.Context.state hcontext).trans hrun
      rcases hstep with hstep | hstep
      · rw [hstep]
        exact beginDrain (d := d₀.propagateProducerComplete.withCancellation c) ht htopo hindex
          hstreams r
      · rw [hstep]
        refine ⟨htopo, hindex, hstreams, Or.inl hstate, ?_, ?_⟩
        · intro _ si hactive
          by_cases hlt : si < d₀.streams.length
          · obtain ⟨hlen, hact, -⟩ :=
              (d₀.foldl_propagateStage_read (List.range d₀.topology.stages.length)).2 si hlt
            have hactive' := hact ▸ hactive
            exact hlen ▸ h.active hrun si hactive'
          · have hnone : d₀.propagateProducerComplete.streams[si]? = none := by
              rw [List.getElem?_eq_none_iff, hstreams.wired.length_eq,
                ← h₀.streams.wired.length_eq]
              omega
            have hfalse : activeAt d₀.propagateProducerComplete.streams si = false := by
              rw [activeAt, hnone, Option.any_none]
            exact absurd (hactive.symm.trans hfalse) (by simp)
        · intro hdraining
          exact absurd (hstate.symm.trans hdraining) (by simp)
  · rcases FlowDriver.step_draining hdrain r with ⟨e, -, he, hstep⟩ | ⟨-, hstep⟩
    · rw [hstep]
      have hex := d.executeStage_executed r e (h.streamIndex ▸ StreamIndex.outputs_nodup)
      have hstate := (congrArg FlowDriver.Context.state hex.context).trans hdrain
      refine ⟨(congrArg FlowDriver.Context.topology hex.context).trans h.topology,
        (congrArg FlowDriver.Context.streamIndex hex.context).trans h.streamIndex,
        streamsInv_executeStage ht h he r, Or.inr hstate, ?_, ?_⟩
      · intro hrun
        exact absurd (hstate.symm.trans hrun) (by simp)
      · intro _ v hv o ho
        obtain ⟨-, -, hread, -⟩ := hex.applies.read (h.streams.wired.lt_of_mem_outputs ho)
        rw [hread, h.sources hdrain v hv o ho, Bool.true_or]
    · rw [hstep] at hlive
      exact absurd hlive (not_or.mpr (d.not_live_finish r))

end DriverInv

namespace BuiltFlow

/-- The driver starts in its main loop with fresh streams. -/
theorem start_streams (f : BuiltFlow) :
    f.start.streams = f.streams ∧ f.start.state = .running ∧
      f.start.topology = f.config.topology ∧ f.start.streamIndex = .build f.config.topology ∧
      f.start.rejected = false := ⟨rfl, rfl, rfl, rfl, rfl⟩

end BuiltFlow

namespace SpawnedFlow

variable (f : SpawnedFlow)

/-- The topology of a spawned flow has passed validation. -/
theorem valid : f.config.topology.Valid := (FlowTopology.validate_eq_ok_iff _).mp f.validated

/-- The invariant holds when the main loop begins. -/
theorem inv_start : DriverInv f.config.topology f.start := by
  obtain ⟨hlen, hspec⟩ := spawnStreamsFrom_spec f.built
  have hget : ∀ (si : ℕ) (s : StreamState), f.start.streams[si]? = some s →
      s.Credit ∧ s.id = ⟨si⟩ ∧ s.queue.len = 0 ∧ s.backpressure = .normal ∧ s.producerComplete = false ∧ s.metrics = .new := by
    intro si s hs
    simpa using hspec si s hs
  have hcomplete : ∀ si, completeAt f.start.streams si = false := by
    intro si
    cases hs : f.start.streams[si]? with
    | none => rw [completeAt, hs, Option.any_none]
    | some s =>
        rw [completeAt_eq hs]
        exact (hget si s hs).2.2.2.2.1
  refine ⟨rfl, rfl, ⟨⟨hlen, fun si s hs => (hget si s hs).2.1⟩, ?_, ?_, ?_⟩, Or.inl rfl, ?_, ?_⟩
  · intro s hs
    obtain ⟨si, hsi⟩ := List.mem_iff_getElem?.mp hs
    exact (hget si s hsi).1
  · intro v _ o _ ho
    rw [hcomplete o] at ho
    cases ho
  · intro v _ o _ ho
    rw [hcomplete o] at ho
    cases ho
  · intro _ si hactive
    cases hs : f.start.streams[si]? with
    | none =>
        rw [activeAt, hs, Option.any_none] at hactive
        cases hactive
    | some s =>
        rw [activeAt_eq hs, (hget si s hs).2.2.2.1] at hactive
        cases hactive
  · intro h
    cases h

/-- **The invariant holds in every state of a run before the force-drain.** -/
theorem inv_run (rounds : List Round)
    (hlive : (f.run rounds).state = .running ∨ (f.run rounds).state = .draining) :
    DriverInv f.config.topology (f.run rounds) := by
  induction rounds using List.reverseRecOn with
  | nil => exact f.inv_start
  | append_singleton rounds r ih =>
      have hstep := f.run_snoc rounds r
      rw [hstep] at hlive ⊢
      by_cases hprev : (f.run rounds).state = .running ∨ (f.run rounds).state = .draining
      · exact (ih hprev).step f.valid r hlive
      · rw [not_or] at hprev
        rw [FlowDriver.step_of_not_live hprev.1 hprev.2] at hlive
        exact absurd hlive (not_or.mpr hprev)

end SpawnedFlow

end Torvyn.Reactor
