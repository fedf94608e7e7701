/-
# The idle branch

When no stage of the main loop is ready, everything has been delivered: all queues are
empty, all sources are done, and propagating completion reaches the last stream after
at most as many calls as there are stages.  The one exception is a router without
outgoing connections.  Validation accepts it, it is never ready, and the elements
queued before it stay there for ever (`no_stall_iff`).
-/
import Torvyn.Reactor.Readiness

namespace Torvyn.Reactor

open Torvyn.Graph

/-! ## Propagation -/

namespace FlowDriver

variable {t : FlowTopology} {d : FlowDriver}

/-- Whether all streams of a list are complete, read off the streams. -/
theorem allComplete_iff {streams : List StreamState} {sis : List ℕ}
    (hlt : ∀ si ∈ sis, si < streams.length) :
    allComplete streams sis = true ↔
      ∀ si ∈ sis, completeAt streams si = true ∧ lenAt streams si = 0 := by
  rw [allComplete, List.all_eq_true]
  refine forall_congr' fun si => forall_congr' fun hsi => ?_
  have hs := List.getElem?_eq_getElem (hlt si hsi)
  rw [hs, Option.any_some, StreamState.isComplete, Bool.and_eq_true, BoundedQueue.isEmpty_iff,
    completeAt_eq hs, lenAt_eq hs]

/-- A stage whose inputs are complete and empty has its outputs completed by one call. -/
theorem completeAt_propagate (ht : t.Valid) (htopo : d.topology = t)
    (hindex : d.streamIndex = .build t) (hlength : d.streams.length = t.connections.length) {si u v : ℕ}
    (hlink : Links t si u v) (hne : (StreamIndex.build t).inputs u ≠ [])
    (hin : ∀ i ∈ (StreamIndex.build t).inputs u,
      completeAt d.streams i = true ∧ lenAt d.streams i = 0) :
    completeAt d.propagateProducerComplete.streams si = true := by
  have hmem : u ∈ List.range d.topology.stages.length := by
    rw [htopo]
    exact List.mem_range.mpr (hlink.lt_length ht).1
  obtain ⟨before, after, hsplit⟩ := List.append_of_mem hmem
  rw [propagateProducerComplete, hsplit, List.foldl_append, List.foldl_cons]
  obtain ⟨hlen, hread⟩ := d.foldl_propagateStage_read before
  have hindex' : (before.foldl propagateStage d).streamIndex = .build t :=
    (congrArg Context.streamIndex (foldl_propagateStage_frame before d).1).trans hindex
  set d' := before.foldl propagateStage d
  have hin_lt : ∀ i ∈ (StreamIndex.build t).inputs u, i < d.streams.length :=
    fun i hi => hlength ▸ StreamIndex.lt_of_mem_inputs hi
  have hlt : si < d'.streams.length := by
    rw [hlen, hlength]
    exact StreamIndex.lt_of_mem_outputs hlink.mem_outputs
  have hm := d'.propagateStage_marks u
  have hall : allComplete d'.streams ((StreamIndex.build t).inputs u) = true := by
    rw [allComplete_iff fun i hi => hlen ▸ hin_lt i hi]
    intro i hi
    obtain ⟨hl, -, hc⟩ := hread i (hin_lt i hi)
    exact ⟨hc (hin i hi).1, hl.trans (hin i hi).2⟩
  have hdone : completeAt (d'.propagateStage u).streams si = true := by
    refine (hm.read hlt).2.2.2.mpr (Or.inr ?_)
    rw [hindex']
    exact ⟨hne, hall, hlink.mem_outputs⟩
  exact (((d'.propagateStage u).foldl_propagateStage_read after).2 si
    (hm.length_eq ▸ hlt)).2.2 hdone

/-- What repeated propagation keeps. -/
theorem iterate_propagate_frame (n : ℕ) (d : FlowDriver) :
    (propagateProducerComplete^[n] d).topology = d.topology ∧
      (propagateProducerComplete^[n] d).streamIndex = d.streamIndex ∧
      (propagateProducerComplete^[n] d).streams.length = d.streams.length ∧
      ∀ si < d.streams.length,
        lenAt (propagateProducerComplete^[n] d).streams si = lenAt d.streams si ∧
        (completeAt d.streams si = true →
          completeAt (propagateProducerComplete^[n] d).streams si = true) := by
  induction n with
  | zero => exact ⟨rfl, rfl, rfl, fun si _ => ⟨rfl, id⟩⟩
  | succ n ih =>
      obtain ⟨htopo, hindex, hlen, hread⟩ := ih
      rw [Function.iterate_succ_apply']
      set d' := propagateProducerComplete^[n] d
      have hcontext := d'.propagateProducerComplete_frame.1
      obtain ⟨hlen', hread'⟩ :=
        d'.foldl_propagateStage_read (List.range d'.topology.stages.length)
      refine ⟨(congrArg Context.topology hcontext).trans htopo,
        (congrArg Context.streamIndex hcontext).trans hindex, hlen'.trans hlen, fun si hlt => ?_⟩
      obtain ⟨hl, hc⟩ := hread si hlt
      obtain ⟨hl', -, hc'⟩ := hread' si (hlen ▸ hlt)
      exact ⟨hl'.trans hl, fun h => hc' (hc h)⟩

/-- **Propagation reaches every stream** after as many calls as there are stages, once
the queues are empty and the sources are done. -/
theorem allStreamsComplete_of_iterate (ht : t.Valid) (htopo : d.topology = t)
    (hindex : d.streamIndex = .build t) (hlength : d.streams.length = t.connections.length)
    (hempty : ∀ si < d.streams.length, lenAt d.streams si = 0)
    (hsources : ∀ v, (StreamIndex.build t).inputs v = [] →
      ∀ o ∈ (StreamIndex.build t).outputs v, completeAt d.streams o = true) :
    (propagateProducerComplete^[t.stages.length] d).allStreamsComplete = true := by
  have hcomplete : ∀ si u v, Links t si u v →
      completeAt (propagateProducerComplete^[t.stages.length] d).streams si = true := by
    intro si u v hlink
    refine complete_upstream (Links t) t.rank
      (fun n si => completeAt (propagateProducerComplete^[n] d).streams si = true)
      (fun si u v h => h.rank_lt ht) ?_ t.stages.length hlink
      (ht.rank_lt_length (hlink.lt_length ht).1)
    intro n u hbefore si v hlink
    obtain ⟨htopo', hindex', hlen, hread⟩ := iterate_propagate_frame n d
    rw [Function.iterate_succ_apply']
    set d' := propagateProducerComplete^[n] d
    have hlt : si < d.streams.length := hlength ▸ StreamIndex.lt_of_mem_outputs hlink.mem_outputs
    by_cases hnil : (StreamIndex.build t).inputs u = []
    · have h₀ := (hread si hlt).2 (hsources u hnil si hlink.mem_outputs)
      exact ((d'.foldl_propagateStage_read (List.range d'.topology.stages.length)).2 si
        (hlen ▸ hlt)).2.2 h₀
    · refine completeAt_propagate ht (htopo'.trans htopo) (hindex'.trans hindex)
        (hlen.trans hlength) hlink hnil fun i hi => ?_
      obtain ⟨w, hw⟩ := links_of_mem_inputs hi
      have hi_lt : i < d.streams.length := hlength ▸ StreamIndex.lt_of_mem_inputs hi
      exact ⟨hbefore i w hw, ((hread i hi_lt).1).trans (hempty i hi_lt)⟩
  obtain ⟨-, -, hlen, hread⟩ := iterate_propagate_frame t.stages.length d
  rw [allStreamsComplete, List.all_eq_true]
  intro s hs
  obtain ⟨si, hsi⟩ := List.mem_iff_getElem?.mp hs
  have hlt : si < d.streams.length := hlen ▸ (List.getElem?_eq_some_iff.mp hsi).1
  obtain ⟨c, hc⟩ : ∃ c, t.connections[si]? = some c :=
    ⟨_, List.getElem?_eq_getElem (hlength ▸ hlt)⟩
  have hc' := hcomplete si _ _ ⟨c, hc, rfl, rfl⟩
  have hl := (hread si hlt).1.trans (hempty si hlt)
  rw [completeAt_eq hsi] at hc'
  rw [lenAt_eq hsi] at hl
  rw [StreamState.isComplete, hc', Bool.true_and, BoundedQueue.isEmpty_iff, hl]

end FlowDriver

/-! ## No stall -/

/-- A source is done when its streams have been marked complete. -/
def SourcesDone (t : FlowTopology) (streams : List StreamState) : Prop :=
  ∀ v stage, t.stages[v]? = some stage → stage.role = .source →
    ∀ o ∈ (StreamIndex.build t).outputs v, completeAt streams o = true

/-- Nothing waits before a router without outgoing connections. -/
def DeadRoutersEmpty (t : FlowTopology) (streams : List StreamState) : Prop :=
  ∀ v stage, t.stages[v]? = some stage → stage.role = .router →
    (StreamIndex.build t).outputs v = [] →
      ∀ i ∈ (StreamIndex.build t).inputs v, lenAt streams i = 0

section Idle

variable {t : FlowTopology} {d : FlowDriver} (ht : t.Valid) (h : DriverInv t d)
  (hrun : d.state = .running) (hnone : d.nextReady = none)
include ht h hrun hnone

/-- With no stage ready, all queues are empty, unless some element waits before a router
without outputs. -/
theorem queues_empty_of_idle (hdead : DeadRoutersEmpty t d.streams) :
    ∀ si < d.streams.length, lenAt d.streams si = 0 := by
  intro si hlt
  obtain ⟨c, hc⟩ : ∃ c, t.connections[si]? = some c :=
    ⟨_, List.getElem?_eq_getElem (h.streams.wired.length_eq ▸ hlt)⟩
  have hready : nextReadyStage t d.streams (.build t) = none := by
    rw [← hnone, FlowDriver.nextReady, h.topology, h.streamIndex]
  refine downstream_empty ht h.streams (fun w stage hw _ => nextReadyStage_eq_none ht hready hw)
    ?_ ⟨c, hc, rfl, rfl⟩ (Nat.zero_le _)
  rintro w stage hw - hempty ⟨i, hi, hpos⟩
  refine not_stuck_of_active (h.active hrun) hempty fun hrole hnil => ?_
  have := hdead w stage hw hrole hnil i hi
  omega

/-- With no stage ready and all queues empty, the sources are done. -/
theorem sourcesDone_of_idle (hempty : ∀ si < d.streams.length, lenAt d.streams si = 0) :
    SourcesDone t d.streams := by
  intro v stage hstage hrole o ho
  have hready : nextReadyStage t d.streams (.build t) = none := by
    rw [← hnone, FlowDriver.nextReady, h.topology, h.streamIndex]
  have haction := nextReadyStage_eq_none ht hready hstage
  rw [hrole, stageAction_eq_none_iff] at haction
  have hlt := h.streams.wired.lt_of_mem_outputs ho
  -- otherwise the source could still produce
  by_contra hc
  refine absurd rfl (haction ⟨o, ho, ?_⟩).1
  rw [canProduceAt_iff h.streams.credit hlt, hempty o hlt]
  refine ⟨by simpa using hc, capacityAt_pos hlt, ?_⟩
  by_contra hactive
  have := h.active hrun o (by simpa using hactive)
  rw [hempty o hlt] at this
  omega

end Idle

/-- **The idle branch is reached with nothing left to do, except before a router without
outputs.**  In a main-loop state in which no stage is ready, all queues are empty, all
sources are done and at most as many propagations as there are stages complete all
streams, if and only if no element waits before such a router. -/
theorem no_stall_iff (f : SpawnedFlow) (rounds : List Round) (hrun : (f.run rounds).state = .running)
    (hnone : (f.run rounds).nextReady = none) :
    ((∀ s ∈ (f.run rounds).streams, s.queue.len = 0) ∧
        SourcesDone f.config.topology (f.run rounds).streams ∧
        ∃ n ≤ f.config.topology.stages.length,
          (FlowDriver.propagateProducerComplete^[n] (f.run rounds)).allStreamsComplete = true) ↔
      DeadRoutersEmpty f.config.topology (f.run rounds).streams := by
  have h := f.inv_run rounds (Or.inl hrun)
  constructor
  · rintro ⟨hempty, -, -⟩ v stage - - - i hi
    have hi_lt := h.streams.wired.lt_of_mem_inputs hi
    rw [lenAt_eq (List.getElem?_eq_getElem hi_lt)]
    exact hempty _ (List.getElem_mem hi_lt)
  · intro hdead
    have hempty := queues_empty_of_idle f.valid h hrun hnone hdead
    have hsources := sourcesDone_of_idle f.valid h hrun hnone hempty
    refine ⟨fun s hs => ?_, hsources, _, le_rfl,
      FlowDriver.allStreamsComplete_of_iterate f.valid h.topology h.streamIndex
        h.streams.wired.length_eq hempty fun v hnil o ho => ?_⟩
    · obtain ⟨si, hsi⟩ := List.mem_iff_getElem?.mp hs
      rw [← lenAt_eq hsi]
      exact hempty si (List.getElem?_eq_some_iff.mp hsi).1
    · obtain ⟨v', hlink⟩ := links_of_mem_outputs ho
      have hstage := List.getElem?_eq_getElem (hlink.lt_length f.valid).1
      exact hsources v _ hstage ((f.valid.inputs_eq_nil_iff hstage).mp hnil) o ho

/-- A source that feeds a sink and a router without outputs. -/
def deadRouterConfig : FlowConfig := smallConfig [.source, .router, .sink] [(0, 1), (0, 2)] 1

def deadRouterFlow : SpawnedFlow where
  flowId := ⟨0⟩
  config := deadRouterConfig
  streams := (spawnStreams ⟨0⟩ deadRouterConfig).get (by decide)
  startedAt := 0
  wallClock := 0
  built := (Option.some_get _).symm
  validated := by decide

/-- The source has nothing more to give. -/
def exhausted : Invoker := { forwarding 1 with pull := fun _ => .ok none }

/-- With a source that is done at once, the idle branch finds nothing to do. -/
theorem no_stall_deadRouterFlow :
    ((∀ s ∈ (deadRouterFlow.run [quietRound exhausted]).streams, s.queue.len = 0) ∧
        SourcesDone deadRouterFlow.config.topology
          (deadRouterFlow.run [quietRound exhausted]).streams ∧
        ∃ n ≤ deadRouterFlow.config.topology.stages.length,
          (FlowDriver.propagateProducerComplete^[n]
            (deadRouterFlow.run [quietRound exhausted])).allStreamsComplete = true) ↔
      DeadRoutersEmpty deadRouterFlow.config.topology
        (deadRouterFlow.run [quietRound exhausted]).streams :=
  no_stall_iff deadRouterFlow [quietRound exhausted] (by decide) (by decide)

/-- One element goes to the router and the source is done: the flow has not been
cancelled, no stage is ready, the element is still queued, and no number of propagations
up to the number of stages completes the streams. -/
theorem deadRouterFlow_stalls :
    let d := deadRouterFlow.run [quietRound (forwarding 1), quietRound exhausted]
    d.state = .running ∧ d.cancellation.reason = none ∧ d.nextReady = none ∧
      (∃ s ∈ d.streams, 0 < s.queue.len) ∧
      ∀ n ≤ deadRouterFlow.config.topology.stages.length,
        (FlowDriver.propagateProducerComplete^[n] d).allStreamsComplete = false := by
  decide

end Torvyn.Reactor
