/-
# How much work a run does

Every element that a stage is handed makes it push at most one element on each of its output
streams.  An element on a stream can therefore cause no more executions than there are paths of
connections from the stage that the stream feeds.  Whatever the policies, the answers and the
times of the calls, the executions of a run, with those that the queued elements can still cause,
never exceed what the elements of the sources account for (`handlings_le`), and a drain ends
after as many rounds as the queued elements account for (`drain_ends`).
-/
import Torvyn.Graph.Paths
import Torvyn.Reactor.Drain
import Torvyn.Reactor.Record

namespace Torvyn.Reactor

open Torvyn.Graph

/-! ## Work -/

/-- The stage that a stream feeds. -/
def consumerStage (t : FlowTopology) (si : ℕ) : ℕ :=
  (t.connections[si]?.map StreamConnection.toStage).getD 0

theorem consumerStage_eq {t : FlowTopology} {si u v : ℕ} (h : Links t si u v) :
    consumerStage t si = v := by
  obtain ⟨c, hc, -, rfl⟩ := h
  simp [consumerStage, hc]

/-- The executions that an element handed to a stage can cause: one for each path of connections
that begins there. -/
def pathWork (t : FlowTopology) (v : ℕ) : ℕ :=
  pathsWithin (StreamIndex.build t).outputs (consumerStage t) t.stages.length v

/-- The executions that the queued elements can still cause. -/
def queuedWork (t : FlowTopology) (streams : List StreamState) : ℕ :=
  ∑ si ∈ Finset.range t.connections.length, lenAt streams si * pathWork t (consumerStage t si)

/-- The executions that an element pulled by a source can cause: it goes to the first output
stream. -/
def pulledWork (t : FlowTopology) (v : ℕ) : ℕ :=
  (((StreamIndex.build t).outputs v).head?.toList.map fun si => pathWork t (consumerStage t si)).sum

/-! ## What is counted -/

namespace FlowEvent

/-- A component is handed an element. -/
def isHandling : FlowEvent → Bool
  | .invoked _ (.process _ _) | .invoked _ (.push _ _) => true
  | _ => false

/-- A source returns an element. -/
def isYield (c : ComponentId) : FlowEvent → Bool
  | .invoked c' (.pull (.ok (some _))) => decide (c' = c)
  | _ => false

end FlowEvent

/-- How often a component has been handed an element. -/
def handlings (events : List FlowEvent) : ℕ := events.countP FlowEvent.isHandling

/-- How many elements a source has returned. -/
def yields (events : List FlowEvent) (c : ComponentId) : ℕ := events.countP (FlowEvent.isYield c)

/-- The executions that the elements of all sources can cause. -/
def suppliedWork (t : FlowTopology) (events : List FlowEvent) : ℕ :=
  ∑ v ∈ Finset.range t.stages.length,
    (t.stages[v]?.map fun stage => yields events stage.componentId * pulledWork t v).getD 0

section Log

variable {events more : List FlowEvent}

theorem handlings_append (events more : List FlowEvent) :
    handlings (events ++ more) = handlings events + handlings more := List.countP_append

theorem yields_append (events more : List FlowEvent) (c : ComponentId) :
    yields (events ++ more) c = yields events c + yields more c := List.countP_append

/-- What is logged adds to the supply. -/
theorem suppliedWork_mono (t : FlowTopology) (events more : List FlowEvent) :
    suppliedWork t events ≤ suppliedWork t (events ++ more) := by
  refine Finset.sum_le_sum fun v _ => ?_
  cases t.stages[v]? with
  | none => exact le_rfl
  | some stage =>
      rw [Option.map_some, Option.map_some, Option.getD_some, Option.getD_some, yields_append,
        add_mul]
      exact Nat.le_add_right _ _

/-- An element of a source adds what it can cause. -/
theorem suppliedWork_yield {t : FlowTopology} {v : ℕ} {stage : StageDefinition}
    (hstage : t.stages[v]? = some stage) (events : List FlowEvent)
    (hyield : 0 < yields more stage.componentId) :
    suppliedWork t events + pulledWork t v ≤ suppliedWork t (events ++ more) := by
  have hv : v ∈ Finset.range t.stages.length :=
    Finset.mem_range.mpr (List.getElem?_eq_some_iff.mp hstage).1
  rw [suppliedWork, suppliedWork, ← Finset.add_sum_erase _ _ hv, ← Finset.add_sum_erase _ _ hv,
    hstage]
  have hrest : ∑ w ∈ (Finset.range t.stages.length).erase v,
      (t.stages[w]?.map fun stage => yields events stage.componentId * pulledWork t w).getD 0 ≤
      ∑ w ∈ (Finset.range t.stages.length).erase v, (t.stages[w]?.map fun stage =>
        yields (events ++ more) stage.componentId * pulledWork t w).getD 0 := by
    refine Finset.sum_le_sum fun w _ => ?_
    cases t.stages[w]? with
    | none => exact le_rfl
    | some stage =>
        rw [Option.map_some, Option.map_some, Option.getD_some, Option.getD_some, yields_append,
          add_mul]
        exact Nat.le_add_right _ _
  have hone : (yields events stage.componentId + 1) * pulledWork t v ≤
      yields (events ++ more) stage.componentId * pulledWork t v := by
    rw [yields_append]
    exact Nat.mul_le_mul_right _ (by omega)
  rw [add_mul, one_mul] at hone
  simp only [Option.map_some, Option.getD_some]
  omega

theorem handlings_eq_zero (h : ∀ ev ∈ more, ev.isHandling = false) : handlings more = 0 :=
  List.countP_eq_zero.mpr fun ev hev => by simp [h ev hev]

theorem FlowEvent.isHandling_of_isQuiet {ev : FlowEvent} (h : ev.isQuiet = true) :
    ev.isHandling = false := by
  cases ev with
  | invoked c call => cases call <;> first | rfl | cases h
  | _ => rfl

end Log

namespace FlowDriver

/-! ## Pushes log no call -/

/-- Between the two states nothing but pushes and their records have been logged. -/
def OnlyPushed (d d' : FlowDriver) : Prop :=
  ∃ more, d'.events = d.events ++ more ∧ ∀ ev ∈ more, ev.isHandling = false

section Pushes

variable {d d₁ d' : FlowDriver}

theorem onlyPushed_pushPulled (d : FlowDriver) (r : Round) (element : OutputElement) (si : ℕ) :
    OnlyPushed d (d.pushPulled r element si) := by
  cases hs : d.streams[si]? with
  | none => exact ⟨[], by simp only [pushPulled, hs, List.append_nil], by simp⟩
  | some s =>
      rw [pushPulled_eq r element hs]
      refine ⟨_, rfl, fun ev hev => ?_⟩
      rcases List.mem_cons.mp hev with rfl | hev
      · rfl
      · split at hev
        · cases hev
        · obtain rfl := List.mem_singleton.mp hev
          rfl

theorem onlyPushed_pushAll (input : StreamElementRef) (ts : List (OutputElement × ℕ))
    (d : FlowDriver) : OnlyPushed d (d.pushAll input ts) := by
  induction ts generalizing d with
  | nil => exact ⟨[], (List.append_nil _).symm, by simp⟩
  | cons x ts ih =>
      obtain ⟨first, hfirst, hnone⟩ : OnlyPushed d (d.pushOutput input x.1 x.2) := by
        cases hs : d.streams[x.2]? with
        | none => exact ⟨[], by simp only [pushOutput, hs, List.append_nil], by simp⟩
        | some s =>
            refine ⟨_, congrArg FlowDriver.events (pushOutput_eq input x.1 hs), fun ev hev => ?_⟩
            obtain rfl := List.mem_singleton.mp hev
            rfl
      obtain ⟨rest, hrest, hmore⟩ := ih (d.pushOutput input x.1 x.2)
      refine ⟨first ++ rest, ?_, fun ev hev => (List.mem_append.mp hev).elim (hnone ev) (hmore ev)⟩
      rw [← List.append_assoc, ← hfirst]
      exact hrest

end Pushes

/-! ## What an execution counts -/

/-- An action that takes an element hands it over, once; one that pushes without taking has
received an element from its source. -/
theorem Acted.counts {d d' : FlowDriver} {r : Round} {e : StageExecution} (h : Acted d r e d') :
    ∃ more, d'.events = d.events ++ more ∧
      handlings more = (if (d.takenFrom e).isSome then 1 else 0) ∧
      (d.takenFrom e = none → d.addressed r e ≠ [] → 0 < yields more e.componentId) := by
  cases h with
  | starved htaken haddressed =>
      exact ⟨[], (List.append_nil _).symm, by rw [htaken]; rfl, fun _ h => absurd haddressed h⟩
  | asked answer htaken haddressed =>
      exact ⟨_, rfl, by rw [htaken]; rfl, fun _ h => absurd haddressed h⟩
  | exhausted sis htaken haddressed =>
      exact ⟨_, rfl, by rw [htaken]; rfl, fun _ h => absurd haddressed h⟩
  | produced element si haction htaken haddressed hsi =>
      obtain ⟨more, hmore, hnone⟩ := onlyPushed_pushPulled
        (d.log (.invoked e.componentId (.pull (.ok (some element))))) r element si
      refine ⟨_, hmore.trans (List.append_assoc _ _ _), ?_, fun _ _ => ?_⟩
      · rw [handlings_append, handlings_eq_zero hnone, htaken]
        rfl
      · rw [yields_append]
        simp [yields, FlowEvent.isYield]
  | processed si s elem answer ts id haction htaken =>
      obtain ⟨more, hmore, hnone⟩ := onlyPushed_pushAll elem ts ((d.taking si s elem).log
        (.invoked e.componentId (.process elem.toStreamElement answer)))
      refine ⟨_, hmore.trans (List.append_assoc _ _ _), ?_, fun h => ?_⟩
      · rw [handlings_append, handlings_eq_zero hnone, htaken]
        rfl
      · cases htaken.symm.trans h
  | consumed si s elem answer latency htaken =>
      have hlatency : handlings (latency.toList.map FlowEvent.recordFlowLatency) = 0 :=
        handlings_eq_zero fun ev hev => by
          obtain ⟨ns, -, rfl⟩ := List.mem_map.mp hev
          rfl
      refine ⟨_, rfl, ?_, fun h => ?_⟩
      · rw [← List.singleton_append, handlings_append, hlatency, htaken]
        rfl
      · cases htaken.symm.trans h

/-- The same of the execution of a stage. -/
theorem executeStage_counts (d : FlowDriver) (r : Round) (e : StageExecution) :
    ∃ more, (d.executeStage r e).1.events = d.events ++ more ∧
      handlings more = (if (d.takenFrom e).isSome then 1 else 0) ∧
      (d.takenFrom e = none → d.addressed r e ≠ [] → 0 < yields more e.componentId) := by
  obtain ⟨more, hmore, hhandled, hyield⟩ :=
    (executeAction_acted (d.prepared d.cancellation) r e).counts
  obtain ⟨startNs, endNs, status, hevents⟩ :=
    events_recordExecution ((d.prepared d.cancellation).executeAction r e).1 r e
      ((d.prepared d.cancellation).executeAction r e).2
  rw [hmore, List.append_assoc] at hevents
  refine ⟨_, hevents, ?_, fun htaken haddressed => ?_⟩
  · rw [handlings_append, hhandled, handlings_eq_zero, Nat.add_zero]
    · rfl
    · intro ev hev
      rcases List.mem_cons.mp hev with rfl | hev
      · rfl
      · obtain ⟨seq, -, rfl⟩ := List.mem_map.mp hev
        rfl
  · rw [yields_append]
    exact Nat.lt_of_lt_of_le (hyield htaken haddressed) (Nat.le_add_right _ _)

end FlowDriver

/-! ## What an execution does to the queued work -/

section Step

variable {t : FlowTopology} {d : FlowDriver} {e : StageExecution}

theorem consumerStage_rank (ht : t.Valid) (v : ℕ) :
    ∀ si ∈ (StreamIndex.build t).outputs v, t.rank v < t.rank (consumerStage t si) ∧
      t.rank (consumerStage t si) < t.stages.length := by
  intro si hsi
  obtain ⟨w, hw⟩ := links_of_mem_outputs hsi
  rw [consumerStage_eq hw]
  exact ⟨hw.rank_lt ht, ht.rank_lt_length (hw.lt_length ht).2⟩

/-- A change that leaves the queues alone. -/
theorem queuedWork_congr (t : FlowTopology) {streams streams' : List StreamState}
    (h : ∀ si, lenAt streams' si = lenAt streams si) :
    queuedWork t streams' = queuedWork t streams := by
  rw [queuedWork, queuedWork]
  exact Finset.sum_congr rfl fun si _ => by rw [h si]

theorem FlowDriver.Quiet.lenAt_eq {d d' : FlowDriver} (h : FlowDriver.Quiet d d') (si : ℕ) :
    lenAt d'.streams si = lenAt d.streams si := by
  cases hs : d.streams[si]? with
  | none =>
      have hnone : d'.streams[si]? = none := by
        rw [List.getElem?_eq_none_iff] at hs ⊢
        exact h.length_eq ▸ hs
      rw [lenAt, lenAt, hs, hnone]
  | some s =>
      obtain ⟨s', hs', -, hqueue, -⟩ := h.stream si s hs
      rw [Reactor.lenAt_eq hs, Reactor.lenAt_eq hs', hqueue]

/-- **An execution that takes an element lowers the queued work.** -/
theorem queuedWork_of_taken (ht : t.Valid) (h : DriverInv t d) (he : d.nextReady = some e)
    (r : Round) (htaken : (d.takenFrom e).isSome = true) :
    queuedWork t (d.executeStage r e).1.streams < queuedWork t d.streams := by
  obtain ⟨stage, hstage, -, hx, -⟩ :=
    FlowDriver.nextReady_spec ht h.topology h.streamIndex h.streams.wired he r
  have happ := (d.executeStage_executed r e (h.streamIndex ▸ StreamIndex.outputs_nodup)).applies
  rcases hx.taken with ⟨-, hnone, -⟩ | ⟨-, -, i, hi, hpos, hsome⟩
  · rw [show d.takenFrom e = none from hnone] at htaken
    cases htaken
  obtain ⟨u, hu⟩ := links_of_mem_inputs hi
  have hconsumer := consumerStage_eq hu
  have hheight : t.rank (consumerStage t i) < t.stages.length := by
    rw [hconsumer]
    exact ht.rank_lt_length (hu.lt_length ht).2
  have hpushed :
      (d.transfer r e).pushed.Sublist ((StreamIndex.build t).outputs (consumerStage t i)) := by
    rw [hconsumer]
    exact hx.pushed
  have hlen : ∀ si ∈ Finset.range t.connections.length,
      lenAt (d.executeStage r e).1.streams si + (if si = i then 1 else 0) ≤
        lenAt d.streams si + if si ∈ (d.transfer r e).pushed then 1 else 0 := by
    intro si hsi
    have hlt : si < d.streams.length := h.streams.wired.length_eq ▸ Finset.mem_range.mp hsi
    obtain ⟨-, -, -, hlen⟩ := happ.read hlt
    rw [hlen, hsome]
    simp only [Option.some.injEq]
    by_cases hsi' : si = i
    · subst hsi'
      simp only [if_true]
      split <;> omega
    · simp only [Ne.symm hsi', hsi', if_false]
      split <;> omega
  exact sum_paths_lt_of_fire (consumerStage_rank ht) hheight
    (Finset.mem_range.mpr (StreamIndex.lt_of_mem_inputs hi)) hpushed StreamIndex.outputs_nodup
    (fun _ hsi => Finset.mem_range.mpr (StreamIndex.lt_of_mem_outputs hsi)) hlen

/-- Without an input only a source addresses anything: its first output stream. -/
theorem addressed_of_untaken (h : DriverInv t d) (he : d.nextReady = some e) (ht : t.Valid)
    (r : Round) (htaken : d.takenFrom e = none) (haddressed : d.addressed r e ≠ []) :
    d.addressed r e = ((StreamIndex.build t).outputs e.stageIndex).head?.toList := by
  have hpull : e.action = .pullFromSource := by
    obtain ⟨stage, -, haction⟩ := h.stageAction_of_ready ht he
    rcases (stageAction_cases h.streams.wired.id_eq haction).2 with ⟨-, hpull⟩ | ⟨si, hsi, hin, hrest⟩
    · exact hpull
    · have hsome : d.takenFrom e = some si := by
        have hfrom := FlowDriver.findIdx?_of_hasInputAt h.streams.wired hin
        rcases hrest with ⟨-, hrest⟩ | ⟨-, -, hrest⟩ <;> rw [FlowDriver.takenFrom, hrest] <;>
          exact hfrom
      cases hsome.symm.trans htaken
  unfold FlowDriver.addressed at haddressed ⊢
  simp only [hpull, h.streamIndex] at haddressed ⊢
  split at haddressed
  · simp_all
  · exact absurd rfl haddressed

/-- **An execution that takes nothing** adds at most what a pulled element can cause. -/
theorem queuedWork_of_untaken (ht : t.Valid) (h : DriverInv t d) (he : d.nextReady = some e)
    (r : Round) (htaken : d.takenFrom e = none) :
    queuedWork t (d.executeStage r e).1.streams ≤ queuedWork t d.streams +
      if d.addressed r e = [] then 0 else pulledWork t e.stageIndex := by
  obtain ⟨stage, hstage, -, hx, -⟩ :=
    FlowDriver.nextReady_spec ht h.topology h.streamIndex h.streams.wired he r
  have happ := (d.executeStage_executed r e (h.streamIndex ▸ StreamIndex.outputs_nodup)).applies
  have hlen : ∀ si ∈ Finset.range t.connections.length,
      lenAt (d.executeStage r e).1.streams si ≤
        lenAt d.streams si + if si ∈ (d.transfer r e).pushed then 1 else 0 := by
    intro si hsi
    have hlt : si < d.streams.length := h.streams.wired.length_eq ▸ Finset.mem_range.mp hsi
    obtain ⟨-, -, -, hlen⟩ := happ.read hlt
    rw [hlen, show (d.transfer r e).taken = none from htaken]
    simp only [reduceCtorEq, if_false]
    split <;> omega
  have hfill : queuedWork t (d.executeStage r e).1.streams ≤ queuedWork t d.streams +
      ((d.addressed r e).map fun si => pathWork t (consumerStage t si)).sum :=
    sum_paths_le_of_fill (hx.pushed.nodup StreamIndex.outputs_nodup)
      (fun si hsi => Finset.mem_range.mpr (StreamIndex.lt_of_mem_outputs (hx.pushed.subset hsi)))
      hlen
  refine hfill.trans (Nat.add_le_add_left ?_ _)
  split
  · rw [‹d.addressed r e = []›]
    exact le_rfl
  · rw [addressed_of_untaken h he ht r htaken ‹_›]
    exact le_rfl

/-- **An execution** keeps the balance of work. -/
theorem balance_executeStage (ht : t.Valid) (h : DriverInv t d) (he : d.nextReady = some e)
    (r : Round) : ∃ more, (d.executeStage r e).1.events = d.events ++ more ∧
      handlings more + queuedWork t (d.executeStage r e).1.streams + suppliedWork t d.events ≤
        queuedWork t d.streams + suppliedWork t (d.events ++ more) := by
  obtain ⟨more, hmore, hhandled, hyield⟩ := d.executeStage_counts r e
  refine ⟨more, hmore, ?_⟩
  cases htaken : d.takenFrom e with
  | some i =>
      have hlt := queuedWork_of_taken ht h he r (by rw [htaken]; rfl)
      have hmono := suppliedWork_mono t d.events more
      rw [htaken, Option.isSome_some, if_pos rfl] at hhandled
      omega
  | none =>
      have hle := queuedWork_of_untaken ht h he r htaken
      rw [htaken, Option.isSome_none, if_neg Bool.false_ne_true] at hhandled
      by_cases haddressed : d.addressed r e = []
      · have hmono := suppliedWork_mono t d.events more
        rw [if_pos haddressed] at hle
        omega
      · obtain ⟨stage, hstage, hcomponent, -⟩ :=
          FlowDriver.nextReady_spec ht h.topology h.streamIndex h.streams.wired he r
        have hsupply := suppliedWork_yield hstage d.events
          (hcomponent ▸ hyield htaken haddressed)
        rw [if_neg haddressed] at hle
        omega

end Step

/-! ## Runs -/

/-- The executions of a run, with those that the queued elements can still cause, are accounted
for by the elements of the sources. -/
def Balanced (t : FlowTopology) (d : FlowDriver) : Prop :=
  handlings d.events + queuedWork t d.streams ≤ suppliedWork t d.events

section Balanced

variable {t : FlowTopology} {d d' : FlowDriver}

/-- Where no component is handed anything and no queue grows, the balance is kept. -/
theorem Balanced.of_le (h : Balanced t d) {more : List FlowEvent}
    (hevents : d'.events = d.events ++ more) (hmore : ∀ ev ∈ more, ev.isHandling = false)
    (hqueued : queuedWork t d'.streams ≤ queuedWork t d.streams) : Balanced t d' := by
  have hmono := suppliedWork_mono t d.events more
  have hbalanced : handlings d.events + queuedWork t d.streams ≤ suppliedWork t d.events := h
  rw [Balanced, hevents, handlings_append, handlings_eq_zero hmore]
  omega

theorem Balanced.of_quiet (h : Balanced t d) (hquiet : FlowDriver.Quiet d d') : Balanced t d' := by
  obtain ⟨more, hevents, hmore⟩ := hquiet.events
  exact h.of_le hevents (fun ev hev => FlowEvent.isHandling_of_isQuiet (hmore ev hev))
    (queuedWork_congr t hquiet.lenAt_eq).le

/-- The end of a run leaves nothing queued. -/
theorem queuedWork_finish (t : FlowTopology) (d : FlowDriver) (r : Round) :
    queuedWork t (d.finish r).streams = 0 := by
  refine Finset.sum_eq_zero fun si _ => ?_
  have hstreams : (d.finish r).streams = d.streams.map StreamState.discardAll := rfl
  have hempty : lenAt (d.finish r).streams si = 0 := by
    rw [hstreams, lenAt, List.getElem?_map]
    cases d.streams[si]? with
    | none => rfl
    | some s => exact s.queue.drainAll_spec.2
  rw [hempty, Nat.zero_mul]

/-- **A round keeps the balance of work.** -/
theorem Balanced.step (ht : t.Valid) (h : DriverInv t d) (hbalanced : Balanced t d) (r : Round) :
    Balanced t (d.step r) := by
  cases hchosen : d.chosen r with
  | some e =>
      obtain ⟨c, hquiet⟩ := FlowDriver.quiet_step_of_chosen hchosen
      have hready := (FlowDriver.ready_of_chosen hchosen).2
      have hinv : DriverInv t (d.withCancellation c) :=
        ⟨h.topology, h.streamIndex, h.streams, h.live, h.active, h.sources⟩
      obtain ⟨more, hmore, hle⟩ := balance_executeStage ht hinv (e := e) hready r
      refine Balanced.of_quiet ?_ hquiet
      have hbefore : handlings d.events + queuedWork t d.streams ≤ suppliedWork t d.events :=
        hbalanced
      have hafter : handlings more + queuedWork t ((d.withCancellation c).executeStage r e).1.streams
          + suppliedWork t d.events ≤ queuedWork t d.streams + suppliedWork t (d.events ++ more) :=
        hle
      rw [Balanced, hmore, handlings_append]
      show handlings d.events + _ + _ ≤ suppliedWork t (d.events ++ more)
      omega
  | none =>
      have heffect := d.step_effect r
      generalize d.step r = d' at heffect
      cases heffect with
      | quiet d' _ _ hquiet => exact hbalanced.of_quiet hquiet
      | executed e _ _ _ _ hsome => cases hchosen.symm.trans hsome
      | finished =>
          obtain ⟨more, hevents, hshape, -⟩ := d.finish_events r
          refine hbalanced.of_le hevents (fun ev hev => ?_) ?_
          · rcases hshape ev hev with ⟨s, -, -, rfl⟩ | ⟨_, _, rfl⟩ | ⟨_, rfl⟩ <;> rfl
          · rw [queuedWork_finish]
            exact Nat.zero_le _

end Balanced

/-- **The work of a run is bounded by its sources.**  In every run the number of times that a
component has been handed an element, with the executions that the queued elements can still
cause, is at most what the elements returned by the sources can cause. -/
theorem handlings_le (f : SpawnedFlow) (rounds : List Round) :
    handlings (f.run rounds).events + queuedWork f.config.topology (f.run rounds).streams ≤
      suppliedWork f.config.topology (f.run rounds).events := by
  suffices h : Balanced f.config.topology (f.run rounds) from h
  induction rounds using List.reverseRecOn with
  | nil =>
      have hqueued : queuedWork f.config.topology f.start.streams = 0 := by
        refine Finset.sum_eq_zero fun si _ => ?_
        obtain ⟨-, hspec⟩ := spawnStreamsFrom_spec f.built
        have hempty : lenAt f.start.streams si = 0 := by
          cases hs : f.start.streams[si]? with
          | none => rw [lenAt, hs]; rfl
          | some s => rw [lenAt_eq hs]; exact (hspec si s hs).2.2.1
        rw [hempty, Nat.zero_mul]
      show handlings [_] + queuedWork f.config.topology f.start.streams ≤ _
      rw [hqueued]
      exact Nat.zero_le _
  | append_singleton rounds r ih =>
      rw [f.run_snoc rounds r]
      by_cases hlive : (f.run rounds).state = .running ∨ (f.run rounds).state = .draining
      · exact ih.step f.valid (f.inv_run rounds hlive) r
      · obtain ⟨hr, hd⟩ := not_or.mp hlive
        rw [FlowDriver.step_of_not_live hr hd]
        exact ih

/-- A drain that is still going on after some rounds has used up as much of the queued work. -/
theorem queuedWork_of_draining {t : FlowTopology} (ht : t.Valid) {d : FlowDriver}
    (h : DriverInv t d) (hdrain : d.state = .draining) (rounds : List Round)
    (hstate : (d.run rounds).state = .draining) :
    rounds.length + queuedWork t (d.run rounds).streams ≤ queuedWork t d.streams := by
  induction rounds generalizing d with
  | nil => exact (Nat.zero_add _).le
  | cons r rounds ih =>
      rw [FlowDriver.run_cons] at hstate ⊢
      rcases FlowDriver.step_draining hdrain r with ⟨e, hlt, he, hstep⟩ | ⟨-, hstep⟩
      · obtain ⟨hdrain', hinv', -⟩ := draining_executeStage ht h hdrain hstep
        obtain ⟨_, i, _, _, _, _, hsome, _⟩ := draining_takes ht h hdrain he r
        have hless := queuedWork_of_taken ht h he r
          (by rw [show d.takenFrom e = some i from hsome]; rfl)
        have hrest := ih hinv' hdrain' hstate
        rw [hstep] at hrest ⊢
        rw [List.length_cons]
        omega
      · obtain ⟨hr, hd⟩ := d.not_live_finish r
        rw [hstep, FlowDriver.run_of_not_live hr hd] at hstate
        exact absurd hstate hd

/-- A drain goes on or has ended. -/
theorem draining_or_terminal {t : FlowTopology} (ht : t.Valid) {d : FlowDriver}
    (h : DriverInv t d) (hdrain : d.state = .draining) (rounds : List Round) :
    (d.run rounds).state = .draining ∨ (d.run rounds).state.isTerminal = true := by
  induction rounds generalizing d with
  | nil => exact Or.inl hdrain
  | cons r rounds ih =>
      rw [FlowDriver.run_cons]
      rcases FlowDriver.step_draining hdrain r with ⟨e, -, -, hstep⟩ | ⟨-, hstep⟩
      · obtain ⟨hdrain', hinv', -⟩ := draining_executeStage ht h hdrain hstep
        exact ih hinv' hdrain'
      · obtain ⟨hr, hd⟩ := d.not_live_finish r
        rw [hstep, FlowDriver.run_of_not_live hr hd]
        exact Or.inr (d.isTerminal_finish r)

/-- **Every drain ends.**  Once a run drains, after more rounds than the queued elements account
for it has reached its terminal state, whatever the components answer and however long they
take. -/
theorem drain_ends (f : SpawnedFlow) (before rounds : List Round)
    (hdrain : (f.run before).state = .draining)
    (hlong : queuedWork f.config.topology (f.run before).streams < rounds.length) :
    (f.run (before ++ rounds)).state.isTerminal = true := by
  have hinv := f.inv_run before (Or.inr hdrain)
  have hrun : f.run (before ++ rounds) = (f.run before).run rounds :=
    FlowDriver.run_append f.start before rounds
  rw [hrun]
  rcases draining_or_terminal f.valid hinv hdrain rounds with hstate | hterminal
  · have := queuedWork_of_draining f.valid hinv hdrain rounds hstate
    omega
  · exact hterminal

/-- A drain that begins with an element on the stream of a router. -/
theorem drain_ends_doubledFlow :
    let q := quietRound (forwarding 2)
    (doubledFlow.run ([q, { q with cancelBefore := some .operatorRequest }] ++
      [q, q, q, q, q, q])).state.isTerminal = true :=
  drain_ends doubledFlow _ _ (by decide) (by decide)

end Torvyn.Reactor
