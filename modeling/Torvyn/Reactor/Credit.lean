/-
# The demand credit law

In every state of the main loop and of the drain loop, demand and queued elements of
each stream add up to its capacity: an accepted push costs one unit of demand, a
rejected one finds no demand to spend, and every pop gives one unit back, whether the
invocation that follows it succeeds or not.
-/
import Torvyn.Reactor.Run

namespace Torvyn.Reactor

namespace FlowDriver

/-- All streams keep their credit. -/
def Solvent (d : FlowDriver) : Prop := ∀ s ∈ d.streams, s.Credit

/-- Marking streams keeps the credit. -/
theorem Solvent.marks {d d' : FlowDriver} {marked : ℕ → Prop} (h : d.Solvent)
    (hm : Marks marked d.streams d'.streams) : d'.Solvent := by
  intro s' hs'
  obtain ⟨si, hsi⟩ := List.mem_iff_getElem?.mp hs'
  have hlt := (List.getElem?_eq_some_iff.mp hsi).1
  rw [hm.length_eq] at hlt
  have hs := List.getElem?_eq_getElem hlt
  have hc := h _ (List.getElem_mem hlt)
  rcases hm.stream si _ hs with ⟨-, hs''⟩ | ⟨-, hs''⟩
  · obtain rfl := Option.some.inj (hsi.symm.trans hs'')
    exact ⟨hc.law, hc.bound⟩
  · obtain rfl := Option.some.inj (hsi.symm.trans hs'')
    exact hc

/-- The execution of a stage keeps the credit, whatever it answers. -/
theorem Solvent.executeStage {d : FlowDriver} (h : d.Solvent) (r : Round) (e : StageExecution)
    (hnodup : (d.streamIndex.outputs e.stageIndex).Nodup) : (d.executeStage r e).1.Solvent := by
  have happ := (d.executeStage_executed r e hnodup).applies
  intro s' hs'
  obtain ⟨si, hsi⟩ := List.mem_iff_getElem?.mp hs'
  have hlt := (List.getElem?_eq_some_iff.mp hsi).1
  rw [happ.length_eq] at hlt
  obtain ⟨s'', hs'', hmoves⟩ := happ.stream si _ (List.getElem?_eq_getElem hlt)
  obtain rfl := Option.some.inj (hsi.symm.trans hs'')
  exact hmoves.credit (h _ (List.getElem_mem hlt))

/-- The steps between two stages keep the credit. -/
theorem Solvent.afterStage {d : FlowDriver} (h : d.Solvent) (r : Round) :
    (d.afterStage r).Solvent := by
  intro s' hs'
  rw [(d.afterStage_frame r).1] at hs'
  obtain ⟨s, hs, rfl⟩ := List.mem_map.mp hs'
  obtain ⟨-, hqueue, hdemand, -, -⟩ := s.checkBackpressure_frame r.finish
  exact ⟨by rw [hqueue, hdemand, (h s hs).law], by rw [hqueue]; exact (h s hs).bound⟩

/-- Propagating completion keeps the credit. -/
theorem Solvent.propagate {d : FlowDriver} (h : d.Solvent) (vs : List ℕ) :
    (vs.foldl propagateStage d).Solvent := by
  induction vs generalizing d with
  | nil => exact h
  | cons v vs ih => exact ih (h.marks (d.propagateStage_marks v))

/-- **One round keeps the credit of all streams**, unless it ends the run. -/
theorem Solvent.step {d : FlowDriver} (h : d.Solvent) (hindex : ∀ v, (d.streamIndex.outputs v).Nodup)
    (r : Round) (hlive : (d.step r).state.isTerminal = false) :
    (d.step r).Solvent ∧ (d.step r).streamIndex = d.streamIndex := by
  set d₀ := d.cancelBy r.cancelBefore
  have hdrain : ∀ d' : FlowDriver, d'.Solvent → d'.streamIndex = d.streamIndex →
      (d'.beginDrain r).Solvent ∧ (d'.beginDrain r).streamIndex = d.streamIndex := by
    intro d' h' hi
    obtain ⟨-, hindex', -, -, hm⟩ := d'.beginDrain_frame r
    exact ⟨h'.marks hm, hindex'.trans hi⟩
  by_cases hrun : d.state = .running
  · rcases step_running hrun r with ⟨-, hstep⟩ | ⟨e, c, -, -, hstep⟩ | ⟨c, -, hstep⟩
    · rw [hstep]
      exact hdrain d₀ h rfl
    · have hsolvent : ((d₀.executeStage r e).1.withCancellation c).Solvent :=
        Solvent.executeStage (d := d₀) h r e (hindex e.stageIndex)
      have hi := congrArg Context.streamIndex (d₀.executeStage_executed r e (hindex e.stageIndex)).context
      rcases hstep with hstep | hstep
      · rw [hstep]
        exact hdrain _ hsolvent hi
      · rw [hstep]
        obtain ⟨-, hcontext, -⟩ :=
          ((d₀.executeStage r e).1.withCancellation c).afterStage_frame r
        exact ⟨hsolvent.afterStage r, (congrArg Context.streamIndex hcontext).trans hi⟩
    · have hsolvent : (d₀.propagateProducerComplete.withCancellation c).Solvent :=
        Solvent.propagate (d := d₀) h _
      have hi := congrArg Context.streamIndex d₀.propagateProducerComplete_frame.1
      rcases hstep with hstep | hstep
      · rw [hstep]
        exact hdrain _ hsolvent hi
      · rw [hstep]
        exact ⟨hsolvent, hi⟩
  · by_cases hdraining : d.state = .draining
    · rcases step_draining hdraining r with ⟨e, -, -, hstep⟩ | ⟨-, hstep⟩
      · rw [hstep]
        exact ⟨h.executeStage r e (hindex e.stageIndex), congrArg Context.streamIndex
          (d.executeStage_executed r e (hindex e.stageIndex)).context⟩
      · rw [hstep, d.isTerminal_finish r] at hlive
        cases hlive
    · rw [step_of_not_live hrun hdraining]
      exact ⟨h, rfl⟩

end FlowDriver

/-- All streams keep their credit along a run. -/
theorem BuiltFlow.solvent_run (f : BuiltFlow) (rounds : List Round)
    (hlive : (f.run rounds).state.isTerminal = false) :
    (f.run rounds).Solvent ∧ (f.run rounds).streamIndex = .build f.config.topology := by
  induction rounds using List.reverseRecOn with
  | nil =>
      obtain ⟨-, hspec⟩ := spawnStreamsFrom_spec f.built
      refine ⟨fun s hs => ?_, rfl⟩
      obtain ⟨si, hsi⟩ := List.mem_iff_getElem?.mp hs
      exact (hspec si s hsi).1
  | append_singleton rounds r ih =>
      have hstep := f.run_snoc rounds r
      rw [hstep] at hlive ⊢
      by_cases hprev : (f.run rounds).state.isTerminal = false
      · obtain ⟨hsolvent, hindex⟩ := ih hprev
        obtain ⟨hsolvent', hindex'⟩ := hsolvent.step
          (fun v => hindex ▸ StreamIndex.outputs_nodup) r hlive
        exact ⟨hsolvent', hindex'.trans hindex⟩
      · have hterm : (f.run rounds).state ≠ .running ∧ (f.run rounds).state ≠ .draining :=
          ⟨fun hs => hprev (by rw [hs]; rfl), fun hs => hprev (by rw [hs]; rfl)⟩
        rw [FlowDriver.step_of_not_live hterm.1 hterm.2] at hlive
        exact absurd hlive hprev

/-- **The demand credit law.**  For every flow that has been built, validated or not,
and all answers, failures and cancellations, demand and queue length add up to the
capacity in every state before the force-drain. -/
theorem demand_credit_law (f : BuiltFlow) (rounds : List Round)
    (hlive : (f.run rounds).state.isTerminal = false) :
    ∀ s ∈ (f.run rounds).streams, s.demand + s.queue.len = s.queue.capacity :=
  fun s hs => ((f.solvent_run rounds hlive).1 s hs).law

/-- A source and a sink with a stream of capacity one. -/
def pairFlow : BuiltFlow where
  flowId := ⟨0⟩
  config := smallConfig [.source, .sink] [(0, 1)] 1
  streams := (spawnStreams ⟨0⟩ (smallConfig [.source, .sink] [(0, 1)] 1)).get (by decide)
  startedAt := 0
  wallClock := 0
  built := (Option.some_get _).symm

theorem pairFlow_validated : pairFlow.config.topology.validate = .ok () := by decide

/-- The law after the pull that fills the stream. -/
theorem demand_credit_law_pairFlow :
    ∃ s ∈ (pairFlow.run [quietRound (forwarding 1)]).streams,
      s.queue.len = 1 ∧ s.demand + s.queue.len = s.queue.capacity := by
  have hlaw := demand_credit_law pairFlow [quietRound (forwarding 1)] (by decide)
  obtain ⟨s, hs, hlen⟩ : ∃ s ∈ (pairFlow.run [quietRound (forwarding 1)]).streams,
      s.queue.len = 1 := by decide
  exact ⟨s, hs, hlen, hlaw s hs⟩

end Torvyn.Reactor
