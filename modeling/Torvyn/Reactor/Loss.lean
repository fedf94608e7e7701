/-
# Lost elements

The driver ignores the result of a push, so an element pushed onto a full stream is
lost.  Processors, and sources and routers with a single output, only run when there
is room.  A filter runs without looking at its outputs, and a source or router with
several outputs runs when one of them has room.  In the main loop this is harmless as
long as every router has an output, since all queues behind the chosen stage are then
empty (`main_loop_lossless`).  The drain loop does not check backpressure, and there
elements can be lost.  `lossless_iff` says exactly when none is.
-/
import Torvyn.Reactor.Readiness

namespace Torvyn.Reactor

namespace FlowDriver

/-- The stage a round executes. -/
def chosen (d : FlowDriver) (r : Round) : Option StageExecution :=
  match d.state with
  | .running =>
      if (d.cancelBy r.cancelBefore).cancellation.isCancelled then none else d.nextReady
  | .draining => if r.start < d.drainDeadline then d.nextReady else none
  | _ => none

end FlowDriver

/-- A stage that the scheduler may run without room on all of its outputs. -/
def Unchecked (t : FlowTopology) (v : ℕ) (role : ComponentRole) : Prop :=
  role = .filter ∨
    ((role = .source ∨ role = .router) ∧ 2 ≤ ((StreamIndex.build t).outputs v).length)

/-- Some router has no outgoing connection. -/
def HasDeadRouter (t : FlowTopology) : Prop :=
  ∃ v stage, t.stages[v]? = some stage ∧ stage.role = .router ∧ (StreamIndex.build t).outputs v = []

/-- The round executes an unchecked stage, in the drain phase or beside a router
without outputs, and the answer is addressed to a stream that is full. -/
def Overflows (t : FlowTopology) (d : FlowDriver) (r : Round) : Prop :=
  ∃ e stage, d.chosen r = some e ∧ t.stages[e.stageIndex]? = some stage ∧
    Unchecked t e.stageIndex stage.role ∧ (d.state = .draining ∨ HasDeadRouter t) ∧
      ∃ si ∈ d.addressed r e, lenAt d.streams si = capacityAt d.streams si

/-! ## One execution -/

section Execution

variable {t : FlowTopology} {d : FlowDriver} {e : StageExecution} {r : Round}

/-- The streams behind the chosen stage are empty in the main loop of a topology whose
routers all have outputs. -/
theorem outputs_empty_of_running (ht : t.Valid) (h : DriverInv t d) (hrun : d.state = .running)
    (hdead : ¬HasDeadRouter t) (he : d.nextReady = some e) (r : Round) :
    ∀ si ∈ (StreamIndex.build t).outputs e.stageIndex, lenAt d.streams si = 0 := by
  obtain ⟨stage, hstage, -, -, hlater⟩ :=
    FlowDriver.nextReady_spec ht h.topology h.streamIndex h.streams.wired he r
  intro si hsi
  obtain ⟨v, hlink⟩ := links_of_mem_outputs hsi
  refine downstream_empty ht h.streams ?_ ?_ hlink (hlink.rank_lt ht)
  · exact fun w stage' hw hk => hlater w stage' hw hk
  · intro w stage' hw _ hempty _
    exact not_stuck_of_active (h.active hrun) hempty
      fun hrole hnil => hdead ⟨w, stage', hw, hrole, hnil⟩

/-- A stage that is not unchecked runs only with room on the streams it addresses. -/
theorem unchecked_of_full (ht : t.Valid) (h : DriverInv t d) (he : d.nextReady = some e)
    {stage : StageDefinition} (hstage : t.stages[e.stageIndex]? = some stage) {si : ℕ}
    (hsi : si ∈ d.addressed r e) (hfull : lenAt d.streams si = capacityAt d.streams si) :
    Unchecked t e.stageIndex stage.role := by
  obtain ⟨stage', hstage', -, hx, -⟩ :=
    FlowDriver.nextReady_spec ht h.topology h.streamIndex h.streams.wired he r
  obtain rfl := Option.some.inj (hstage.symm.trans hstage')
  have hout : si ∈ (StreamIndex.build t).outputs e.stageIndex := hx.pushed.subset hsi
  have hnot : canProduceAt d.streams si = false := by
    rw [← Bool.not_eq_true, canProduceAt_iff h.streams.credit (h.streams.wired.lt_of_mem_outputs hout)]
    rintro ⟨-, hlt, -⟩
    omega
  have hun := hx.unblocked
  -- with a single output, one producible output is all of them
  have hsingle : (∃ o ∈ (StreamIndex.build t).outputs e.stageIndex, canProduceAt d.streams o = true) →
      2 ≤ ((StreamIndex.build t).outputs e.stageIndex).length := by
    rintro ⟨o, ho, hcan⟩
    by_contra hlt
    obtain ⟨o', ho'⟩ : ∃ o', (StreamIndex.build t).outputs e.stageIndex = [o'] := by
      rw [← List.length_eq_one_iff]
      have := List.length_pos_of_mem ho
      omega
    rw [ho', List.mem_singleton] at ho hout
    rw [ho, ← hout, hnot] at hcan
    cases hcan
  cases hrole : stage.role with
  | filter => exact Or.inl rfl
  | processor =>
      rw [hrole] at hun
      rw [hun si hout] at hnot
      cases hnot
  | source =>
      rw [hrole] at hun
      exact Or.inr ⟨Or.inl rfl, hsingle hun⟩
  | router =>
      rw [hrole] at hun
      exact Or.inr ⟨Or.inr rfl, hsingle hun⟩
  | sink =>
      have hnil := StreamIndex.outputs_eq_nil_iff.mpr (ht.sinkOut _ stage hstage hrole)
      rw [hnil] at hout
      exact absurd hout List.not_mem_nil

/-- An execution addresses other streams than the one it takes its input from. -/
theorem taken_ne_of_addressed (ht : t.Valid) (h : DriverInv t d) (he : d.nextReady = some e)
    {si : ℕ} (hsi : si ∈ d.addressed r e) : d.takenFrom e ≠ some si := by
  obtain ⟨stage, hstage, -, hx, -⟩ :=
    FlowDriver.nextReady_spec ht h.topology h.streamIndex h.streams.wired he r
  intro htaken
  rcases hx.taken with ⟨-, hnone, -⟩ | ⟨-, -, i, hi, -, hsome⟩
  · cases hnone.symm.trans htaken
  · obtain rfl := Option.some.inj (hsome.symm.trans htaken)
    obtain ⟨u, hu⟩ := links_of_mem_inputs hi
    obtain ⟨w, hw⟩ := links_of_mem_outputs (hx.pushed.subset hsi)
    obtain ⟨c, hc, -, hto⟩ := hu
    obtain ⟨c', hc', hfrom, -⟩ := hw
    obtain rfl := Option.some.inj (hc.symm.trans hc')
    exact ht.noLoop c (List.mem_of_getElem? hc) (hfrom.trans hto.symm)

/-- An execution rejects an element exactly when it addresses a full stream. -/
theorem executeStage_rejected (ht : t.Valid) (h : DriverInv t d) (he : d.nextReady = some e) :
    (d.executeStage r e).1.rejected = true ↔ d.rejected = true ∨
      ∃ si ∈ d.addressed r e, lenAt d.streams si = capacityAt d.streams si := by
  obtain ⟨stage, hstage, -, hx, -⟩ :=
    FlowDriver.nextReady_spec ht h.topology h.streamIndex h.streams.wired he r
  have hex := d.executeStage_executed r e (h.streamIndex ▸ StreamIndex.outputs_nodup)
  rw [hex.logs.rejected]
  refine or_congr_right (exists_congr fun si => and_congr_right fun hsi => ?_)
  have hout := hx.pushed.subset hsi
  have hs := List.getElem?_eq_getElem (h.streams.wired.lt_of_mem_outputs hout)
  have hne : (d.transfer r e).taken ≠ some si := taken_ne_of_addressed ht h he hsi
  rw [lenAt_eq hs, capacityAt_eq hs]
  constructor
  · rintro ⟨s, hs', hfull⟩
    obtain rfl := Option.some.inj (hs.symm.trans hs')
    rwa [Transfer.lenAfterTake, if_neg hne, Nat.sub_zero] at hfull
  · intro hfull
    exact ⟨_, hs, by rwa [Transfer.lenAfterTake, if_neg hne, Nat.sub_zero]⟩

end Execution

/-! ## One round and a whole run -/

/-- Ending a run rejects nothing. -/
theorem FlowDriver.finish_rejected (d : FlowDriver) (r : Round) :
    (d.finish r).rejected = d.rejected := by
  obtain ⟨more, hmore, hshape, -⟩ := d.finish_events r
  rw [rejected, hmore]
  refine any_isRejection_append d.events fun ev hev => ?_
  rcases hshape ev hev with ⟨s, -, -, rfl⟩ | ⟨_, _, rfl⟩ | ⟨_, rfl⟩ <;> rfl

/-- Executing the chosen stage loses an element exactly when the round overflows. -/
theorem overflows_iff {t : FlowTopology} (ht : t.Valid) {d : FlowDriver} (h : DriverInv t d)
    {r : Round} {e : StageExecution} (hchosen : d.chosen r = some e) (he : d.nextReady = some e) :
    Overflows t d r ↔ ∃ si ∈ d.addressed r e, lenAt d.streams si = capacityAt d.streams si := by
  obtain ⟨stage, hstage, -, hx, -⟩ :=
    FlowDriver.nextReady_spec ht h.topology h.streamIndex h.streams.wired he r
  constructor
  · rintro ⟨e', -, he', -, -, -, hfull⟩
    obtain rfl := Option.some.inj (hchosen.symm.trans he')
    exact hfull
  · rintro ⟨si, hsi, hfull⟩
    refine ⟨e, stage, hchosen, hstage, unchecked_of_full ht h he hstage hsi hfull, ?_, si, hsi, hfull⟩
    rcases h.live with hrun | hdrain
    · right
      by_contra hdead
      have hout := hx.pushed.subset hsi
      have hzero := outputs_empty_of_running ht h hrun hdead he r si hout
      have hpos := capacityAt_pos (h.streams.wired.lt_of_mem_outputs hout)
      omega
    · exact Or.inl hdrain

/-- A round that executes no stage does not overflow. -/
theorem not_overflows {t : FlowTopology} {d : FlowDriver} {r : Round} (h : d.chosen r = none) :
    ¬Overflows t d r := by
  rintro ⟨e, -, he, -⟩
  rw [h] at he
  cases he

/-- **A round loses an element exactly when it overflows.** -/
theorem step_rejected {t : FlowTopology} (ht : t.Valid) {d : FlowDriver} (h : DriverInv t d)
    (r : Round) : (d.step r).rejected = true ↔ d.rejected = true ∨ Overflows t d r := by
  have hnone : d.chosen r = none → (d.step r).rejected = d.rejected →
      ((d.step r).rejected = true ↔ d.rejected = true ∨ Overflows t d r) := by
    intro hchosen heq
    rw [heq, or_iff_left (not_overflows hchosen)]
  rcases h.live with hrun | hdrain
  · set d₀ := d.cancelBy r.cancelBefore with hd₀
    have h₀ : DriverInv t d₀ := ⟨h.topology, h.streamIndex, h.streams, h.live, h.active, h.sources⟩
    rcases FlowDriver.step_running hrun r with
      ⟨hcancel, hstep⟩ | ⟨e, c, hcancel, he, hstep⟩ | ⟨c, he, hstep⟩
    · refine hnone ?_ ?_
      · simp only [FlowDriver.chosen, hrun, if_pos hcancel]
      · rw [hstep, (d₀.beginDrain_frame r).2.2.2.1]
        rfl
    · have hchosen : d.chosen r = some e := by
        simp only [FlowDriver.chosen, hrun, hcancel, he, Bool.false_eq_true, if_false]
      have hexec : (d.step r).rejected = (d₀.executeStage r e).1.rejected := by
        rcases hstep with hstep | hstep
        · rw [hstep, (((d₀.executeStage r e).1.withCancellation c).beginDrain_frame r).2.2.2.1]
          rfl
        · rw [hstep, (((d₀.executeStage r e).1.withCancellation c).afterStage_frame r).2.2]
          rfl
      rw [hexec, executeStage_rejected ht h₀ he, overflows_iff ht h hchosen he]
      rfl
    · refine hnone ?_ ?_
      · simp only [FlowDriver.chosen, hrun, he, ite_self]
      · have hprop := d₀.propagateProducerComplete_frame.2
        rcases hstep with hstep | hstep
        · rw [hstep,
            ((d₀.propagateProducerComplete.withCancellation c).beginDrain_frame r).2.2.2.1]
          exact hprop
        · rw [hstep]
          exact hprop
  · rcases FlowDriver.step_draining hdrain r with ⟨e, hlt, he, hstep⟩ | ⟨hidle, hstep⟩
    · have hchosen : d.chosen r = some e := by
        simp only [FlowDriver.chosen, hdrain, if_pos hlt, he]
      rw [hstep, executeStage_rejected ht h he, overflows_iff ht h hchosen he]
    · refine hnone ?_ ?_
      · simp only [FlowDriver.chosen, hdrain]
        split
        · exact hidle ‹_›
        · rfl
      · rw [hstep, d.finish_rejected]

/-- A run that has ended does not overflow any more. -/
theorem step_rejected_of_not_live {t : FlowTopology} {d : FlowDriver} (hr : d.state ≠ .running)
    (hd : d.state ≠ .draining) (r : Round) :
    (d.step r).rejected = true ↔ d.rejected = true ∨ Overflows t d r := by
  have hchosen : d.chosen r = none := by
    unfold FlowDriver.chosen
    split
    · exact absurd ‹_› hr
    · exact absurd ‹_› hd
    · rfl
  rw [FlowDriver.step_of_not_live hr hd, or_iff_left (not_overflows hchosen)]

/-- A run has lost no element if and only if no round of it overflowed. -/
theorem rejected_run_iff (f : SpawnedFlow) (rounds : List Round) :
    (f.run rounds).rejected = false ↔
      ∀ before r after, rounds = before ++ r :: after →
        ¬Overflows f.config.topology (f.run before) r := by
  induction rounds using List.reverseRecOn with
  | nil => simp [f.start_streams.2.2.2.2, BuiltFlow.run]
  | append_singleton rounds r ih =>
      have hrun := f.run_snoc rounds r
      have hstep : (f.run (rounds ++ [r])).rejected = true ↔
          (f.run rounds).rejected = true ∨ Overflows f.config.topology (f.run rounds) r := by
        rw [hrun]
        by_cases hlive : (f.run rounds).state = .running ∨ (f.run rounds).state = .draining
        · exact step_rejected f.valid (f.inv_run rounds hlive) r
        · rw [not_or] at hlive
          exact step_rejected_of_not_live hlive.1 hlive.2 r
      rw [← Bool.not_eq_true, hstep, not_or, Bool.not_eq_true]
      constructor
      · rintro ⟨hbefore, hlast⟩ before r' after hsplit
        rcases List.eq_nil_or_concat after with rfl | ⟨after', r'', rfl⟩
        · obtain ⟨rfl, hr⟩ := List.append_inj' hsplit rfl
          obtain rfl := List.singleton_inj.mp hr
          exact hlast
        · rw [List.concat_eq_append, ← List.cons_append, ← List.append_assoc] at hsplit
          exact ih.mp hbefore before r' after' (List.append_inj' hsplit rfl).1
      · intro hall
        exact ⟨ih.mpr fun before r' after hsplit => hall before r' (after ++ [r]) (by simp [hsplit]),
          hall rounds r [] rfl⟩

/-- The main loop is never entered again. -/
theorem running_of_step {t : FlowTopology} {d : FlowDriver} (h : DriverInv t d) {r : Round}
    (hrun : (d.step r).state = .running) : d.state = .running := by
  refine h.live.resolve_right fun hdrain => ?_
  rcases FlowDriver.step_draining hdrain r with ⟨e, -, -, hstep⟩ | ⟨-, hstep⟩
  · have hcontext := (d.executeStage_executed r e
      (h.streamIndex ▸ StreamIndex.outputs_nodup)).context
    have hstate : (d.step r).state = .draining := by
      rw [hstep]
      exact (congrArg FlowDriver.Context.state hcontext).trans hdrain
    exact absurd (hrun.symm.trans hstate) (by simp)
  · rw [hstep] at hrun
    exact absurd hrun (d.not_live_finish r).1

/-- **The main loop loses nothing** as long as every router has an outgoing
connection. -/
theorem main_loop_lossless (f : SpawnedFlow) (rounds : List Round)
    (hdead : ¬HasDeadRouter f.config.topology) (hrun : (f.run rounds).state = .running) :
    (f.run rounds).rejected = false := by
  induction rounds using List.reverseRecOn with
  | nil => rfl
  | append_singleton rounds r ih =>
      have hstep := f.run_snoc rounds r
      rw [hstep] at hrun ⊢
      by_cases hlive : (f.run rounds).state = .running ∨ (f.run rounds).state = .draining
      · have hinv := f.inv_run rounds hlive
        have hprev := running_of_step hinv hrun
        rw [← Bool.not_eq_true, step_rejected f.valid hinv r, not_or, Bool.not_eq_true]
        refine ⟨ih hprev, ?_⟩
        rintro ⟨e, stage, -, -, -, hdrain | hd, -⟩
        · exact absurd (hprev.symm.trans hdrain) (by simp)
        · exact hdead hd
      · have hlive' := not_or.mp hlive
        rw [FlowDriver.step_of_not_live hlive'.1 hlive'.2] at hrun
        exact absurd (Or.inl hrun) hlive

/-- **Exactly when a run loses no element.**  Every push of the run is accepted if and
only if no round overflows. -/
theorem lossless_iff (f : SpawnedFlow) (rounds : List Round) :
    (∀ ev ∈ (f.run rounds).events, ev.isRejection = false) ↔
      ∀ before r after, rounds = before ++ r :: after →
        ¬Overflows f.config.topology (f.run before) r := by
  rw [← rejected_run_iff, ← Bool.not_eq_true, FlowDriver.rejected, List.any_eq_true]
  simp

/-- A router that feeds a processor directly and through two filters; all streams have
capacity one. -/
def lossyConfig : FlowConfig :=
  smallConfig [.source, .router, .filter, .filter, .processor, .sink]
    [(0, 1), (1, 3), (1, 4), (1, 2), (2, 3), (3, 4), (4, 5)] 1

def lossyFlow : SpawnedFlow where
  flowId := ⟨0⟩
  config := lossyConfig
  streams := (spawnStreams ⟨0⟩ lossyConfig).get (by decide)
  startedAt := 0
  wallClock := 0
  built := (Option.some_get _).symm
  validated := by decide

/-- One element is routed to all three outputs, the processor runs once, and the flow is
cancelled.  In the drain phase the processor stays blocked by the stale backpressure of
its output, and the filter before it is run twice. -/
def lossyRounds : List Round :=
  let q := quietRound (forwarding 3)
  [q, q, q, { q with cancelBefore := some .operatorRequest }, q, q, q, q]

/-- The second element of the filter is rejected and lost. -/
theorem lossyFlow_loses : ∃ ev ∈ (lossyFlow.run lossyRounds).events, ev.isRejection = true :=
  List.any_eq_true.mp (by decide)

end Torvyn.Reactor
