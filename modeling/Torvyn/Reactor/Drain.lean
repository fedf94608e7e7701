/-
# The drain phase

The drain loop executes stages until none is ready, and then throws away what is left.
It does not check backpressure, so a stream that was under backpressure when the drain
began stays so.  A drain that is not cut short therefore hands every element over if
and only if no element waits, directly or further upstream, before a stage that such a
stream keeps from running (`drain_complete_iff`).  A weighted count of the queued
elements falls with every execution, so every drain ends.
-/
import Torvyn.Reactor.Delivery
import Torvyn.Reactor.Loss

namespace Torvyn.Reactor

open Torvyn.Graph

/-! ## Obstructions -/

/-- There is a path of connections from one stage to another. -/
def Reaches (t : FlowTopology) : ℕ → ℕ → Prop :=
  Relation.ReflTransGen fun u v => ∃ si, Links t si u v

/-- An element is queued on a stream from which the stage `w` can be reached. -/
def WaitsBefore (t : FlowTopology) (streams : List StreamState) (w : ℕ) : Prop :=
  ∃ si u v, Links t si u v ∧ 0 < lenAt streams si ∧ Reaches t v w

/-- No element waits before a stuck stage. -/
def Unobstructed (t : FlowTopology) (streams : List StreamState) : Prop :=
  ∀ w stage, t.stages[w]? = some stage → WaitsBefore t streams w →
    ¬Stuck t streams w stage.role

section Stuck

variable {t : FlowTopology} {streams streams' : List StreamState} {v : ℕ} {role : ComponentRole}

theorem stuck_congr (h : ∀ si, activeAt streams' si = activeAt streams si) :
    Stuck t streams' v role ↔ Stuck t streams v role := by
  cases role <;> simp only [Stuck, h]

/-- A stuck stage does not run. -/
theorem not_unblocked_of_stuck (h : StreamsInv t streams) (hstuck : Stuck t streams v role)
    (hun : Unblocked streams ((StreamIndex.build t).outputs v) role) : False := by
  have hfree : ∀ o ∈ (StreamIndex.build t).outputs v, canProduceAt streams o = true →
      activeAt streams o = false := fun o ho hcan =>
    ((canProduceAt_iff h.credit (h.wired.lt_of_mem_outputs ho)).mp hcan).2.2
  cases role with
  | processor =>
      obtain ⟨o, ho, hactive⟩ := hstuck
      rw [hfree o ho (hun o ho)] at hactive
      cases hactive
  | router =>
      obtain ⟨o, ho, hcan⟩ := hun
      have hactive := hstuck o ho
      rw [hfree o ho hcan] at hactive
      cases hactive
  | source | sink | filter => exact hstuck

/-- Applying a transfer does not touch backpressure. -/
theorem Transfer.Applies.activeAt_eq {x : Transfer} (h : x.Applies streams streams') (si : ℕ) :
    activeAt streams' si = activeAt streams si := by
  by_cases hlt : si < streams.length
  · exact (h.read hlt).2.1
  · have hnone : streams[si]? = none := List.getElem?_eq_none_iff.mpr (by omega)
    have hnone' : streams'[si]? = none :=
      List.getElem?_eq_none_iff.mpr (by rw [h.length_eq]; omega)
    rw [activeAt, activeAt, hnone, hnone']

end Stuck

/-! ## One execution of the drain loop -/

section Step

variable {t : FlowTopology} {d : FlowDriver} {e : StageExecution}

/-- The drain loop never runs a source: their outputs have been completed.  So the
chosen stage takes an element from one of its inputs. -/
theorem draining_takes (ht : t.Valid) (h : DriverInv t d) (hdrain : d.state = .draining)
    (he : d.nextReady = some e) (r : Round) :
    ∃ stage i, t.stages[e.stageIndex]? = some stage ∧
      StageTransfer t d.streams e.stageIndex stage (d.transfer r e) ∧
      i ∈ (StreamIndex.build t).inputs e.stageIndex ∧ 0 < lenAt d.streams i ∧
      (d.transfer r e).taken = some i ∧ i ∉ (d.transfer r e).pushed := by
  obtain ⟨stage, hstage, -, hx, -⟩ :=
    FlowDriver.nextReady_spec ht h.topology h.streamIndex h.streams.wired he r
  rcases hx.taken with ⟨hrole, -, -⟩ | ⟨-, -, i, hi, hpos, htaken⟩
  · have hun := hx.unblocked
    rw [hrole] at hun
    obtain ⟨o, ho, hcan⟩ := hun
    have hopen := ((canProduceAt_iff h.streams.credit (h.streams.wired.lt_of_mem_outputs ho)).mp
      hcan).1
    rw [h.sources hdrain _ ((ht.inputs_eq_nil_iff hstage).mpr hrole) o ho] at hopen
    cases hopen
  · refine ⟨stage, i, hstage, hx, hi, hpos, htaken, fun hmem => ?_⟩
    obtain ⟨u, c, hc, -, hto⟩ := links_of_mem_inputs hi
    obtain ⟨w, c', hc', hfrom, -⟩ := links_of_mem_outputs (hx.pushed.subset hmem)
    obtain rfl := Option.some.inj (hc.symm.trans hc')
    exact ht.noLoop c (List.mem_of_getElem? hc) (hfrom.trans hto.symm)

/-- The rank of the stage that the stream of index `si` feeds. -/
def consumerRank (t : FlowTopology) (si : ℕ) : ℕ :=
  (t.connections[si]?.map fun c => t.rank c.toStage).getD 0

theorem consumerRank_eq {si u v : ℕ} (h : Links t si u v) : consumerRank t si = t.rank v := by
  obtain ⟨c, hc, -, rfl⟩ := h
  simp [consumerRank, hc]

/-- The weighted number of queued elements: an element weighs more the further it is
from the sinks. -/
def drainMeasure (t : FlowTopology) (streams : List StreamState) : ℕ :=
  ∑ si ∈ Finset.range t.connections.length,
    lenAt streams si * (t.connections.length + 1) ^ (t.stages.length - consumerRank t si)

theorem card_toFinset_le {l : List ℕ} {v : ℕ} (h : l.Sublist ((StreamIndex.build t).outputs v)) :
    l.toFinset.card ≤ t.connections.length := by
  have hsub : l.toFinset ⊆ Finset.range t.connections.length := by
    intro si hsi
    rw [List.mem_toFinset] at hsi
    exact Finset.mem_range.mpr (StreamIndex.lt_of_mem_outputs (h.subset hsi))
  simpa using Finset.card_le_card hsub

/-- **Every execution of the drain loop lowers the weighted number of queued
elements.** -/
theorem drainMeasure_lt (ht : t.Valid) (h : DriverInv t d) (hdrain : d.state = .draining)
    (he : d.nextReady = some e) (r : Round) :
    drainMeasure t (d.executeStage r e).1.streams < drainMeasure t d.streams := by
  obtain ⟨stage, i, hstage, hx, hi, hpos, htaken, hnot⟩ := draining_takes ht h hdrain he r
  have happ := (d.executeStage_executed r e (h.streamIndex ▸ StreamIndex.outputs_nodup)).applies
  obtain ⟨u, hu⟩ := links_of_mem_inputs hi
  refine sum_lt_of_fire (P := (d.transfer r e).pushed.toFinset) (i := i)
    (Finset.mem_range.mpr (StreamIndex.lt_of_mem_inputs hi)) ?_ ?_ ?_
  · intro si hsi
    rw [List.mem_toFinset] at hsi
    exact Finset.mem_range.mpr (StreamIndex.lt_of_mem_outputs (hx.pushed.subset hsi))
  · intro si hsi
    have hlt : si < d.streams.length := h.streams.wired.length_eq ▸ Finset.mem_range.mp hsi
    obtain ⟨-, -, -, hlen⟩ := happ.read hlt
    rw [hlen, htaken]
    simp only [List.mem_toFinset, Option.some.injEq]
    by_cases hsi' : si = i
    · subst hsi'
      simp only [hnot, if_false, if_true]
      omega
    · simp only [Ne.symm hsi', hsi', if_false]
      split <;> omega
  · rw [consumerRank_eq hu]
    refine sum_weight_lt (card_toFinset_le hx.pushed)
      (ht.rank_lt_length (hu.lt_length ht).2) fun si hsi => ?_
    obtain ⟨w, hw⟩ := links_of_mem_outputs (hx.pushed.subset (List.mem_toFinset.mp hsi))
    rw [consumerRank_eq hw]
    exact hw.rank_lt ht

/-- With nothing obstructed the chosen stage finds its outputs empty. -/
theorem outputs_empty_of_unobstructed (ht : t.Valid) (h : DriverInv t d)
    (hfree : Unobstructed t d.streams) (he : d.nextReady = some e) (r : Round) :
    ∀ si ∈ (StreamIndex.build t).outputs e.stageIndex, lenAt d.streams si = 0 := by
  obtain ⟨stage, hstage, -, -, hlater⟩ :=
    FlowDriver.nextReady_spec ht h.topology h.streamIndex h.streams.wired he r
  intro si hsi
  obtain ⟨v, hlink⟩ := links_of_mem_outputs hsi
  refine downstream_empty ht h.streams (fun w stage' hw hk => hlater w stage' hw hk) ?_ hlink
    (hlink.rank_lt ht)
  intro w stage' hw _ _ ⟨i, hi, hpos⟩
  obtain ⟨u, hu⟩ := links_of_mem_inputs hi
  exact hfree w stage' hw ⟨i, u, w, hu, hpos, .refl⟩

/-- An execution keeps everything unobstructed, and rejects nothing then. -/
theorem unobstructed_executeStage (ht : t.Valid) (h : DriverInv t d) (hdrain : d.state = .draining)
    (he : d.nextReady = some e) (r : Round) (hfree : Unobstructed t d.streams) :
    Unobstructed t (d.executeStage r e).1.streams ∧ FlowDriver.Logs d (d.executeStage r e).1 False := by
  obtain ⟨stage, i, hstage, hx, hi, hpos, htaken, hnot⟩ := draining_takes ht h hdrain he r
  have hex := d.executeStage_executed r e (h.streamIndex ▸ StreamIndex.outputs_nodup)
  obtain ⟨ui, hui⟩ := links_of_mem_inputs hi
  refine ⟨?_, hex.logs.congr ?_⟩
  · rintro w stage' hw ⟨si, u, v, hlink, hlen, hreach⟩
    rw [stuck_congr hex.applies.activeAt_eq]
    refine hfree w stage' hw ?_
    by_cases hold : 0 < lenAt d.streams si
    · exact ⟨si, u, v, hlink, hold, hreach⟩
    · -- the element has been pushed, so an element waited before the stage that ran
      have hlt := h.streams.wired.lt_of_mem_inputs hlink.mem_inputs
      have hpushed : si ∈ (d.transfer r e).pushed := by
        by_contra hmem
        rw [(hex.applies.read hlt).2.2.2, if_neg hmem] at hlen
        omega
      obtain ⟨w', hw'⟩ := links_of_mem_outputs (hx.pushed.subset hpushed)
      have hfrom : e.stageIndex = u := StreamIndex.outputs_inj hw'.mem_outputs hlink.mem_outputs
      subst hfrom
      exact ⟨i, ui, e.stageIndex, hui, hpos, .head ⟨si, hlink⟩ hreach⟩
  · simp only [iff_false]
    rintro ⟨si, hsi, s, hs, hfull⟩
    have hempty := outputs_empty_of_unobstructed ht h hfree he r si (hx.pushed.subset hsi)
    rw [lenAt_eq hs] at hempty
    have hcap := s.queue.capacity_pos
    rw [Transfer.lenAfterTake] at hfull
    omega

end Step

/-! ## A drain that goes on -/

/-- An execution of the drain loop keeps the invariant and goes on draining. -/
theorem draining_executeStage {t : FlowTopology} {d : FlowDriver} {e : StageExecution} (ht : t.Valid)
    (h : DriverInv t d) (hdrain : d.state = .draining) {r : Round}
    (hstep : d.step r = (d.executeStage r e).1) :
    (d.step r).state = .draining ∧ DriverInv t (d.step r) ∧
      (d.step r).drainDeadline = d.drainDeadline := by
  have hcontext := (d.executeStage_executed r e
    (h.streamIndex ▸ StreamIndex.outputs_nodup)).context
  rw [← hstep] at hcontext
  have hstate := (congrArg FlowDriver.Context.state hcontext).trans hdrain
  exact ⟨hstate, h.step ht r (Or.inr hstate), congrArg FlowDriver.Context.drainDeadline hcontext⟩

/-- What a drain has done as long as it has not ended. -/
structure Drained (t : FlowTopology) (d d' : FlowDriver) (rounds : List Round) : Prop where
  inv : DriverInv t d'
  deadline : d'.drainDeadline = d.drainDeadline
  active : ∀ si, activeAt d'.streams si = activeAt d.streams si
  measure : drainMeasure t d'.streams + rounds.length ≤ drainMeasure t d.streams
  delivers : ∃ new, Delivers t (∀ r ∈ rounds, r.invoker.Succeeds) d d' new
  unobstructed : Unobstructed t d.streams →
    Unobstructed t d'.streams ∧ FlowDriver.Logs d d' False

/-- **A drain that goes on** keeps the invariant, delivers, and lowers the measure by one
at least in every round. -/
theorem drained_of_draining {t : FlowTopology} (ht : t.Valid) {d : FlowDriver} (h : DriverInv t d)
    (hdrain : d.state = .draining) (rounds : List Round)
    (hstate : (d.run rounds).state = .draining) : Drained t d (d.run rounds) rounds := by
  induction rounds generalizing d with
  | nil =>
      exact ⟨h, rfl, fun _ => rfl, le_rfl, ⟨[], .refl d⟩, fun hfree => ⟨hfree, .of_events_eq rfl⟩⟩
  | cons r rounds ih =>
      rw [FlowDriver.run_cons] at hstate ⊢
      rcases FlowDriver.step_draining hdrain r with ⟨e, -, he, hstep⟩ | ⟨-, hstep⟩
      · obtain ⟨hdrain', hinv', hdeadline'⟩ := draining_executeStage ht h hdrain hstep
        have htail := ih hinv' hdrain' hstate
        have happ := (d.executeStage_executed r e (h.streamIndex ▸ StreamIndex.outputs_nodup)).applies
        have hmeasure := drainMeasure_lt ht h hdrain he r
        obtain ⟨new, hnew⟩ := executeStage_delivers r ht h.topology h.streamIndex h.streams.wired he
        obtain ⟨new', hnew'⟩ := htail.delivers
        rw [← hstep] at happ hmeasure hnew
        refine ⟨htail.inv, htail.deadline.trans hdeadline', ?_, ?_, ?_, ?_⟩
        · exact fun si => (htail.active si).trans (happ.activeAt_eq si)
        · have := htail.measure
          rw [List.length_cons]
          omega
        · refine ⟨new ++ new', (hnew.mono ?_).trans (hnew'.mono ?_)⟩
          · exact fun hall => hall r List.mem_cons_self
          · exact fun hall r' hr' => hall r' (List.mem_cons_of_mem _ hr')
        · intro hfree
          obtain ⟨hfree', hlogs⟩ := unobstructed_executeStage ht h hdrain he r hfree
          rw [← hstep] at hfree' hlogs
          obtain ⟨hfree'', hlogs'⟩ := htail.unobstructed hfree'
          exact ⟨hfree'', (hlogs.trans hlogs').congr (by simp)⟩
      · rw [hstep] at hstate
        obtain ⟨hr, hd⟩ := d.not_live_finish r
        rw [FlowDriver.run_of_not_live hr hd] at hstate
        exact absurd hstate hd

/-- A drain that has ended came to a round that ended it. -/
theorem ended_cases {t : FlowTopology} (ht : t.Valid) {d : FlowDriver} (h : DriverInv t d)
    (hdrain : d.state = .draining) (rounds : List Round)
    (hstate : (d.run rounds).state ≠ .draining) :
    ∃ before r after, rounds = before ++ r :: after ∧ (d.run before).state = .draining ∧
      (r.start < (d.run before).drainDeadline → (d.run before).nextReady = none) ∧
      d.run rounds = (d.run before).finish r := by
  induction rounds generalizing d with
  | nil => exact absurd hdrain hstate
  | cons r rounds ih =>
      rw [FlowDriver.run_cons] at hstate ⊢
      rcases FlowDriver.step_draining hdrain r with ⟨e, -, -, hstep⟩ | ⟨hidle, hstep⟩
      · obtain ⟨hdrain', hinv', -⟩ := draining_executeStage ht h hdrain hstep
        obtain ⟨before, r', after, hsplit, hbefore, hnone, hrun⟩ := ih hinv' hdrain' hstate
        exact ⟨r :: before, r', after, by rw [hsplit, List.cons_append], hbefore, hnone, hrun⟩
      · refine ⟨[], r, rounds, rfl, hdrain, hidle, ?_⟩
        obtain ⟨hr, hd⟩ := d.not_live_finish r
        rw [hstep, FlowDriver.run_of_not_live hr hd]
        rfl

/-! ## The end of a drain -/

/-- The force-drain discards something exactly when some queue is not empty. -/
theorem FlowDriver.finish_discards (d : FlowDriver) (r : Round) :
    ∃ more, (d.finish r).events = d.events ++ more ∧
      (∀ ev ∈ more, ev.isFailure = false ∧ ev.isRejection = false ∧ ∀ id x, ev ≠ .pushed id x .ok) ∧
      ((∃ ev ∈ more, ev.isDiscard = true) ↔ ∃ s ∈ d.streams, 0 < s.queue.len) := by
  obtain ⟨more, hmore, hshape, hdiscarded⟩ := d.finish_events r
  refine ⟨more, hmore, fun ev hev => ?_, ?_, ?_⟩
  · rcases hshape ev hev with ⟨s, -, -, rfl⟩ | ⟨_, _, rfl⟩ | ⟨_, rfl⟩ <;> exact ⟨rfl, rfl, by simp⟩
  · rintro ⟨ev, hev, hdiscard⟩
    rcases hshape ev hev with ⟨s, hs, hpos, -⟩ | ⟨_, _, rfl⟩ | ⟨_, rfl⟩
    · exact ⟨s, hs, hpos⟩
    · cases hdiscard
    · cases hdiscard
  · rintro ⟨s, hs, hpos⟩
    refine ⟨_, hdiscarded s hs hpos, ?_⟩
    have hne : s.queue.contents ≠ [] := by
      rw [ne_eq, ← List.length_eq_zero_iff, s.queue.length_contents]
      omega
    simpa [FlowEvent.isDiscard] using hne

/-- What a drain that began at the instant `began` promises.  As long as its deadline
does not expire and no invocation fails, every push is accepted and nothing is
discarded; and after some number of rounds the drain has ended, and every element that
was queued at its beginning or has been queued since has been handed to the stage its
stream feeds. -/
def DrainsFully (t : FlowTopology) (began : ℕ) (d : FlowDriver) : Prop :=
  ∃ n, ∀ rounds : List Round, (∀ r ∈ rounds, began ≤ r.start ∧ r.start < d.drainDeadline) →
    ∃ new, (d.run rounds).events = d.events ++ new ∧
      ((∀ ev ∈ new, ev.isFailure = false) →
        (∀ ev ∈ new, ev.isRejection = false ∧ ev.isDiscard = false) ∧
        (n ≤ rounds.length → (d.run rounds).state.isTerminal = true ∧
          ∀ (si : ℕ) (s : StreamState), d.streams[si]? = some s →
            ∀ x, x ∈ s.queue.contents ∨ .pushed ⟨si⟩ x .ok ∈ new → HandedOver t si x new))

/-- With nothing ready and nothing obstructed all queues are empty. -/
theorem queues_empty_of_unobstructed {t : FlowTopology} {d : FlowDriver} (ht : t.Valid)
    (h : DriverInv t d) (hfree : Unobstructed t d.streams) (hnone : d.nextReady = none) :
    ∀ si < d.streams.length, lenAt d.streams si = 0 := by
  intro si hlt
  obtain ⟨c, hc⟩ : ∃ c, t.connections[si]? = some c :=
    ⟨_, List.getElem?_eq_getElem (h.streams.wired.length_eq ▸ hlt)⟩
  have hready : nextReadyStage t d.streams (.build t) = none := by
    rw [← hnone, FlowDriver.nextReady, h.topology, h.streamIndex]
  refine downstream_empty ht h.streams (fun w stage hw _ => nextReadyStage_eq_none ht hready hw)
    ?_ ⟨c, hc, rfl, rfl⟩ (Nat.zero_le _)
  rintro w stage hw - - ⟨i, hi, hpos⟩
  obtain ⟨u, hu⟩ := links_of_mem_inputs hi
  exact hfree w stage hw ⟨i, u, w, hu, hpos, .refl⟩

section Drain

variable {t : FlowTopology} {d : FlowDriver} (ht : t.Valid) (h : DriverInv t d)
  (hdrain : d.state = .draining)
include ht h hdrain

/-- **A drain without obstruction hands everything over.** -/
theorem drainsFully_of_unobstructed (hfree : Unobstructed t d.streams) (began : ℕ) :
    DrainsFully t began d := by
  refine ⟨drainMeasure t d.streams + 1, fun rounds hintime => ?_⟩
  by_cases hstate : (d.run rounds).state = .draining
  · have hd := drained_of_draining ht h hdrain rounds hstate
    obtain ⟨new, hnew⟩ := hd.delivers
    obtain ⟨-, new', hevents, hdiscard, hreject⟩ := hd.unobstructed hfree
    obtain rfl := List.append_cancel_left (hnew.events_eq.symm.trans hevents)
    refine ⟨new, hevents, fun _ => ⟨fun ev hev => ⟨?_, hdiscard ev hev⟩, fun hlong => ?_⟩⟩
    · by_contra hne
      exact hreject.mp ⟨ev, hev, by simpa using hne⟩
    · have := hd.measure
      omega
  · obtain ⟨before, r, after, hsplit, hbefore, hidle, hrun⟩ := ended_cases ht h hdrain rounds hstate
    have hd := drained_of_draining ht h hdrain before hbefore
    obtain ⟨new, hnew⟩ := hd.delivers
    obtain ⟨hfree', new', hevents, hdiscard, hreject⟩ := hd.unobstructed hfree
    obtain rfl := List.append_cancel_left (hnew.events_eq.symm.trans hevents)
    obtain ⟨more, hmore, hquiet, hdiscards⟩ := (d.run before).finish_discards r
    -- the round that ended the drain was in time, so no stage was ready
    have hr := (hintime r (by simp [hsplit])).2
    rw [← hd.deadline] at hr
    have hempty := queues_empty_of_unobstructed ht hd.inv hfree' (hidle hr)
    rw [hrun]
    refine ⟨new ++ more, by rw [hmore, hevents, List.append_assoc], fun _ => ⟨?_, fun _ => ?_⟩⟩
    · intro ev hev
      rcases List.mem_append.mp hev with hev | hev
      · refine ⟨?_, hdiscard ev hev⟩
        by_contra hne
        exact hreject.mp ⟨ev, hev, by simpa using hne⟩
      · refine ⟨(hquiet ev hev).2.1, ?_⟩
        by_contra hne
        obtain ⟨s, hs, hpos⟩ := hdiscards.mp ⟨ev, hev, by simpa using hne⟩
        obtain ⟨si, hsi⟩ := List.mem_iff_getElem?.mp hs
        have hzero := hempty si (List.getElem?_eq_some_iff.mp hsi).1
        rw [lenAt_eq hsi] at hzero
        omega
    · refine ⟨FlowDriver.isTerminal_finish _ r, fun si s hs x hx => ?_⟩
      have hx' : x ∈ s.queue.contents ∨ .pushed ⟨si⟩ x .ok ∈ new := hx.imp_right fun hev =>
        (List.mem_append.mp hev).resolve_right fun hev => (hquiet _ hev).2.2 _ _ rfl
      obtain ⟨s', hs', -, hkept⟩ := hnew.stream si s hs
      have hzero := hempty si (List.getElem?_eq_some_iff.mp hs').1
      rw [lenAt_eq hs', ← s'.queue.length_contents, List.length_eq_zero_iff] at hzero
      refine ((hkept x hx').resolve_left ?_).mono fun ev hev => List.mem_append_left _ hev
      rw [hzero]
      exact List.not_mem_nil

/-- Components that answer with one element for every output address every output. -/
theorem addressed_forwarding {e : StageExecution} (he : d.nextReady = some e) {r : Round}
    (hr : r.invoker = forwarding t.connections.length)
    (hne : (StreamIndex.build t).outputs e.stageIndex ≠ []) :
    d.addressed r e = (StreamIndex.build t).outputs e.stageIndex := by
  rw [FlowDriver.nextReady, h.topology, h.streamIndex] at he
  obtain ⟨stage, hstage, -, haction, -⟩ := nextReadyStage_spec ht he
  obtain ⟨hun, hcases⟩ := stageAction_cases h.streams.wired.id_eq haction
  rcases hcases with ⟨hrole, -⟩ | ⟨i, hi, hin, ⟨hrole, -⟩ | ⟨-, -, hprocess⟩⟩
  · -- a source cannot run any more
    rw [hrole] at hun
    obtain ⟨o, ho, hcan⟩ := hun
    have hopen := ((canProduceAt_iff h.streams.credit (h.streams.wired.lt_of_mem_outputs ho)).mp
      hcan).1
    rw [h.sources hdrain _ ((ht.inputs_eq_nil_iff hstage).mpr hrole) o ho] at hopen
    cases hopen
  · exact absurd (StreamIndex.outputs_eq_nil_iff.mpr (ht.sinkOut _ stage hstage hrole)) hne
  · obtain ⟨s, hs, hpos⟩ := hasInputAt_iff.mp hin
    obtain ⟨elem, -, htake⟩ := FlowDriver.takeInput_of_wired h.streams.wired hs hpos
    have helem : ∃ elem, d.inputElement ⟨i⟩ = some elem := by
      rcases d.takeInput_cases ⟨i⟩ with ⟨hnone, -, -⟩ | ⟨_, _, elem', -, -, helem', -, -⟩
      · rw [hnone] at htake
        cases htake
      · exact ⟨elem', helem'⟩
    obtain ⟨elem', helem'⟩ := helem
    have hlen : ((StreamIndex.build t).outputs e.stageIndex).length ≤ t.connections.length := by
      have := card_toFinset_le (List.Sublist.refl ((StreamIndex.build t).outputs e.stageIndex))
      rwa [List.toFinset_card_of_nodup StreamIndex.outputs_nodup] at this
    simp only [FlowDriver.addressed, hprocess, helem', hr, forwarding, FlowDriver.targets,
      h.streamIndex]
    exact List.map_snd_zip (by simpa using hlen)

/-- An element before a stuck stage is handed on, but never past that stage. -/
theorem waitsBefore_executeStage {w : ℕ} {stage : StageDefinition} (hw : t.stages[w]? = some stage)
    (hstuck : Stuck t d.streams w stage.role) (hwaits : WaitsBefore t d.streams w)
    {e : StageExecution} (he : d.nextReady = some e) {r : Round}
    (hr : r.invoker = forwarding t.connections.length) :
    WaitsBefore t (d.executeStage r e).1.streams w := by
  obtain ⟨stage', i, hstage', hx, hi, hpos, htaken, hnot⟩ := draining_takes ht h hdrain he r
  have happ := (d.executeStage_executed r e (h.streamIndex ▸ StreamIndex.outputs_nodup)).applies
  have hcap : ∀ si < d.streams.length, 0 < capacityAt d.streams si := fun _ => capacityAt_pos
  obtain ⟨si, u, v, hlink, hlen, hreach⟩ := hwaits
  by_cases hsi : i = si
  · -- the element is taken: its stage is not the stuck one, and hands it on towards it
    subst hsi
    have hv : e.stageIndex = v := by
      obtain ⟨c, hc, hto⟩ := StreamIndex.mem_inputs.mp hi
      obtain ⟨c', hc', -, hto'⟩ := hlink
      obtain rfl := Option.some.inj (hc.symm.trans hc')
      exact hto.symm.trans hto'
    rcases Relation.ReflTransGen.cases_head hreach with rfl | ⟨v', ⟨o, ho⟩, hreach'⟩
    · subst hv
      obtain rfl := Option.some.inj (hw.symm.trans hstage')
      exact (not_unblocked_of_stuck h.streams hstuck hx.unblocked).elim
    · subst hv
      have haddressed := addressed_forwarding ht h hdrain he hr (List.ne_nil_of_mem ho.mem_outputs)
      have hmem : o ∈ d.addressed r e := by
        rw [haddressed]
        exact ho.mem_outputs
      have hlt := h.streams.wired.lt_of_mem_outputs ho.mem_outputs
      refine ⟨o, e.stageIndex, v', ho, ?_, hreach'⟩
      rw [(happ.read hlt).2.2.2, if_pos (show o ∈ (d.transfer r e).pushed from hmem)]
      have := hcap o hlt
      omega
  · have hlt := h.streams.wired.lt_of_mem_outputs hlink.mem_outputs
    refine ⟨si, u, v, hlink, ?_, hreach⟩
    rw [(happ.read hlt).2.2.2, htaken, if_neg fun h => hsi (Option.some.inj h)]
    have := hcap si hlt
    split <;> omega

/-- As long as the drain goes on, an element waits before the stuck stage. -/
theorem waitsBefore_run {w : ℕ} {stage : StageDefinition} (hw : t.stages[w]? = some stage)
    (hstuck : Stuck t d.streams w stage.role) (hwaits : WaitsBefore t d.streams w)
    (rounds : List Round) (hall : ∀ r ∈ rounds, r.invoker = forwarding t.connections.length)
    (hstate : (d.run rounds).state = .draining) : WaitsBefore t (d.run rounds).streams w := by
  induction rounds generalizing d with
  | nil => exact hwaits
  | cons r rounds ih =>
      rw [FlowDriver.run_cons] at hstate ⊢
      rcases FlowDriver.step_draining hdrain r with ⟨e, -, he, hstep⟩ | ⟨-, hstep⟩
      · obtain ⟨hdrain', hinv', -⟩ := draining_executeStage ht h hdrain hstep
        have happ := (d.executeStage_executed r e (h.streamIndex ▸ StreamIndex.outputs_nodup)).applies
        have hwaits' := waitsBefore_executeStage ht h hdrain hw hstuck hwaits he
          (hall r List.mem_cons_self)
        rw [← hstep] at happ hwaits'
        exact ih hinv' hdrain' ((stuck_congr happ.activeAt_eq).mpr hstuck) hwaits'
          (fun r' hr' => hall r' (List.mem_cons_of_mem _ hr')) hstate
      · rw [hstep] at hstate
        obtain ⟨hr, hd⟩ := d.not_live_finish r
        rw [FlowDriver.run_of_not_live hr hd] at hstate
        exact absurd hstate hd

/-- **An obstructed drain discards something** when the components answer with one
element for every output. -/
theorem unobstructed_of_drainsFully {began : ℕ} (hbegan : began < d.drainDeadline)
    (hfull : DrainsFully t began d) : Unobstructed t d.streams := by
  intro w stage hw hwaits hstuck
  obtain ⟨n, hn⟩ := hfull
  set r : Round := ⟨forwarding t.connections.length, began, began, 0, none, none, .tick⟩ with hr
  set rounds := List.replicate (max n (drainMeasure t d.streams + 1)) r with hrounds
  have hlength : rounds.length = max n (drainMeasure t d.streams + 1) := List.length_replicate
  have hall : ∀ r' ∈ rounds, r' = r := fun r' hr' => List.eq_of_mem_replicate hr'
  obtain ⟨new, hevents, hnew⟩ := hn rounds fun r' hr' => by
    rw [hall r' hr']
    exact ⟨le_rfl, hbegan⟩
  have hended : (d.run rounds).state ≠ .draining := by
    intro hstate
    have := (drained_of_draining ht h hdrain rounds hstate).measure
    omega
  obtain ⟨before, r', after, hsplit, hbefore, -, hrun⟩ := ended_cases ht h hdrain rounds hended
  have hinvoker : ∀ r' ∈ before, r'.invoker = forwarding t.connections.length := by
    intro r' hr'
    rw [hall r' (by rw [hsplit]; exact List.mem_append_left _ hr')]
  obtain ⟨new₁, hdelivers⟩ := (drained_of_draining ht h hdrain before hbefore).delivers
  obtain ⟨more, hmore, hquiet, hdiscards⟩ := (d.run before).finish_discards r'
  have hsplit' : new = new₁ ++ more := by
    refine List.append_cancel_left (hevents.symm.trans ?_)
    rw [hrun, hmore, hdelivers.events_eq, List.append_assoc]
  have hsucceeds : ∀ ev ∈ new, ev.isFailure = false := by
    intro ev hev
    rw [hsplit', List.mem_append] at hev
    refine hev.elim (hdelivers.succeeds (fun r' hr' => ?_) ev) fun hev => (hquiet ev hev).1
    rw [hinvoker r' hr']
    exact ⟨fun _ => rfl, fun _ _ => rfl, fun _ _ => rfl⟩
  -- the element that waits before the stuck stage at the end is discarded
  obtain ⟨si, u, v, hlink, hlen, -⟩ :=
    waitsBefore_run ht h hdrain hw hstuck hwaits before hinvoker hbefore
  have hinv := (drained_of_draining ht h hdrain before hbefore).inv
  have hs := List.getElem?_eq_getElem (hinv.streams.wired.lt_of_mem_outputs hlink.mem_outputs)
  rw [lenAt_eq hs] at hlen
  obtain ⟨ev, hev, hdiscard⟩ := hdiscards.mpr ⟨_, List.mem_of_getElem? hs, hlen⟩
  have hfalse := ((hnew hsucceeds).1 ev (by rw [hsplit']; exact List.mem_append_right _ hev)).2
  rw [hfalse] at hdiscard
  cases hdiscard

end Drain

/-! ## The deadline -/

/-- A round leaves the timeouts alone, and the drain gets its whole timeout from the
instant it begins. -/
theorem timeouts_step {t : FlowTopology} {d : FlowDriver} (h : DriverInv t d) (r : Round) :
    (d.step r).timeouts = d.timeouts ∧
      (d.state = .running → (d.step r).state = .draining →
        (d.step r).drainDeadline = r.finish + d.timeouts.drainTimeout) := by
  have hbegin : ∀ x : FlowDriver, x.timeouts = d.timeouts → (x.beginDrain r).timeouts = d.timeouts ∧
      (x.beginDrain r).drainDeadline = r.finish + d.timeouts.drainTimeout := by
    intro x hx
    obtain ⟨hcontext, -⟩ := FlowDriver.foldl_markSource (List.range x.topology.stages.length) x
    exact ⟨(congrArg FlowDriver.Context.timeouts hcontext).trans hx, by rw [← hx]; rfl⟩
  rcases h.live with hrun | hdrain
  · set d₀ := d.cancelBy r.cancelBefore with hd₀
    rcases FlowDriver.step_running hrun r with ⟨-, hstep⟩ | ⟨e, c, -, -, hstep⟩ | ⟨c, -, hstep⟩
    · rw [hstep]
      have hx := hbegin d₀ rfl
      exact ⟨hx.1, fun _ _ => hx.2⟩
    · have hcontext := (d₀.executeStage_executed r e (h.streamIndex ▸ StreamIndex.outputs_nodup)).context
      have htimeouts := congrArg FlowDriver.Context.timeouts hcontext
      have hstate := (congrArg FlowDriver.Context.state hcontext).trans hrun
      rcases hstep with hstep | hstep <;> rw [hstep]
      · have hx := hbegin ((d₀.executeStage r e).1.withCancellation c) htimeouts
        exact ⟨hx.1, fun _ _ => hx.2⟩
      · obtain ⟨-, hafter, -⟩ := ((d₀.executeStage r e).1.withCancellation c).afterStage_frame r
        refine ⟨(congrArg FlowDriver.Context.timeouts hafter).trans htimeouts, fun _ hdrain => ?_⟩
        have hstate' := (congrArg FlowDriver.Context.state hafter).trans hstate
        exact absurd (hstate'.symm.trans hdrain) (by simp)
    · obtain ⟨hcontext, -⟩ := d₀.propagateProducerComplete_frame
      have htimeouts := congrArg FlowDriver.Context.timeouts hcontext
      have hstate := (congrArg FlowDriver.Context.state hcontext).trans hrun
      rcases hstep with hstep | hstep <;> rw [hstep]
      · have hx := hbegin (d₀.propagateProducerComplete.withCancellation c) htimeouts
        exact ⟨hx.1, fun _ _ => hx.2⟩
      · exact ⟨htimeouts, fun _ hdrain => absurd (hstate.symm.trans hdrain) (by simp)⟩
  · have hnot : d.state ≠ .running := by
      rw [hdrain]
      simp
    rcases FlowDriver.step_draining hdrain r with ⟨e, -, -, hstep⟩ | ⟨-, hstep⟩ <;> rw [hstep]
    · have hcontext := (d.executeStage_executed r e (h.streamIndex ▸ StreamIndex.outputs_nodup)).context
      exact ⟨congrArg FlowDriver.Context.timeouts hcontext, fun hrun => absurd hrun hnot⟩
    · exact ⟨rfl, fun hrun => absurd hrun hnot⟩

/-- The timeouts of a run are those of its configuration. -/
theorem timeouts_run (f : SpawnedFlow) (rounds : List Round) :
    (f.run rounds).timeouts = f.config.timeouts := by
  induction rounds using List.reverseRecOn with
  | nil => rfl
  | append_singleton rounds r ih =>
      have hstep := f.run_snoc rounds r
      rw [hstep]
      by_cases hlive : (f.run rounds).state = .running ∨ (f.run rounds).state = .draining
      · exact (timeouts_step (f.inv_run rounds hlive) r).1.trans ih
      · rw [not_or] at hlive
        rw [FlowDriver.step_of_not_live hlive.1 hlive.2, ih]

/-- **Exactly when a drain hands everything over.**  A drain that has any time at all
hands every element over, whatever the components answer, if and only if at its
beginning no element waits before a stuck stage. -/
theorem drain_complete_iff (f : SpawnedFlow) (rounds : List Round) (r : Round)
    (hrun : (f.run rounds).state = .running) (hdrain : (f.run (rounds ++ [r])).state = .draining) :
    DrainsFully f.config.topology r.finish (f.run (rounds ++ [r])) ↔
      (f.config.timeouts.drainTimeout = 0 ∨
        Unobstructed f.config.topology (f.run (rounds ++ [r])).streams) := by
  have h := f.inv_run (rounds ++ [r]) (Or.inr hdrain)
  have hstep := f.run_snoc rounds r
  have hdeadline : (f.run (rounds ++ [r])).drainDeadline =
      r.finish + f.config.timeouts.drainTimeout := by
    rw [← timeouts_run f rounds, hstep]
    exact (timeouts_step (f.inv_run rounds (Or.inl hrun)) r).2 hrun (hstep ▸ hdrain)
  constructor
  · intro hfull
    rcases Nat.eq_zero_or_pos f.config.timeouts.drainTimeout with hzero | hpos
    · exact Or.inl hzero
    · exact Or.inr (unobstructed_of_drainsFully f.valid h hdrain (by omega) hfull)
  · rintro (hzero | hfree)
    · -- no round is in time, so there is nothing to promise
      refine ⟨1, fun rounds' hintime => ?_⟩
      cases rounds' with
      | nil => exact ⟨[], (List.append_nil _).symm, by simp⟩
      | cons r' rounds' =>
          have := hintime r' List.mem_cons_self
          omega
    · exact drainsFully_of_unobstructed f.valid h hdrain hfree r.finish

/-- A router with two streams to one processor; all streams have capacity one. -/
def doubledConfig : FlowConfig :=
  smallConfig [.source, .router, .processor, .sink] [(0, 1), (1, 2), (1, 2), (2, 3)] 1

def doubledFlow : SpawnedFlow where
  flowId := ⟨0⟩
  config := doubledConfig
  streams := (spawnStreams ⟨0⟩ doubledConfig).get (by decide)
  startedAt := 0
  wallClock := 0
  built := (Option.some_get _).symm
  validated := by decide

/-- One element is routed onto both streams, the processor handles the first copy, and
the flow is cancelled. -/
def cancelledRounds : List Round :=
  let q := quietRound (forwarding 2)
  [q, q, q, { q with cancelBefore := some .operatorRequest }]

/-- With nothing queued when it begins, the drain hands everything over. -/
theorem drain_complete_doubledFlow :
    let r := { quietRound (forwarding 2) with cancelBefore := some .operatorRequest }
    DrainsFully doubledFlow.config.topology r.finish (doubledFlow.run ([] ++ [r])) ↔
      (doubledFlow.config.timeouts.drainTimeout = 0 ∨
        Unobstructed doubledFlow.config.topology (doubledFlow.run ([] ++ [r])).streams) :=
  drain_complete_iff doubledFlow [] _ (by decide) (by decide)

/-- Components of which none fails, in time: the sink takes the first copy, and then
nothing is ready, because the processor is still blocked by the backpressure of the
sink's empty stream.  The second copy is discarded. -/
theorem doubledFlow_discards :
    let q := quietRound (forwarding 2)
    let d := doubledFlow.run cancelledRounds
    (doubledFlow.run (cancelledRounds.take 3)).state = .running ∧ d.state = .draining ∧
      q.start < d.drainDeadline ∧ (∀ ev ∈ (d.run [q, q]).events, ev.isFailure = false) ∧
      (d.run [q, q]).state.isTerminal = true ∧
      ∃ ev ∈ (d.run [q, q]).events, ev.isDiscard = true := by
  decide

end Torvyn.Reactor
