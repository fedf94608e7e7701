/-
# Yielding to the runtime

A driver counts the stages it has executed since its last yield.  The quantum it compares the
count with comes from the priority of the flow; of the yield configuration it reads the time
quantum only.  `yields_within_of_guarded` says for which runs the configured number of elements
is a bound all the same, and `oversleeps` shows a flow that executes eight times as many stages.
-/
import Torvyn.Reactor.Credit
import Torvyn.Reactor.Deadline
import Torvyn.Reactor.Record

namespace Torvyn.Reactor

/-! ## The configuration -/

/-- `YieldConfig::validate`. -/
def YieldConfig.validate (c : YieldConfig) : Except String Unit :=
  if c.elementsPerYield = 0 then .error "elements_per_yield must be > 0"
  else if maxConsecutiveElementsBeforeYield < c.elementsPerYield then
    .error ("elements_per_yield (" ++ toString c.elementsPerYield ++ ") exceeds hard ceiling (" ++
      toString maxConsecutiveElementsBeforeYield ++ ")")
  else if c.timeQuantum = 0 then .error "time_quantum must be > 0"
  else .ok ()

theorem YieldConfig.validate_eq_ok_iff {c : YieldConfig} :
    c.validate = .ok () ↔ 0 < c.elementsPerYield ∧
      c.elementsPerYield ≤ maxConsecutiveElementsBeforeYield ∧ 0 < c.timeQuantum := by
  unfold validate
  split_ifs with hzero habove hquantum
  · simp [hzero]
  · exact iff_of_false (by simp) fun h => absurd h.2.1 (not_le.mpr habove)
  · simp [hquantum]
  · exact iff_of_true rfl ⟨Nat.pos_of_ne_zero hzero, not_lt.mp habove, Nat.pos_of_ne_zero hquantum⟩

/-! ## What the events say -/

namespace FlowEvent

/-- The count that a yield reports. -/
def yielded : FlowEvent → Option ℕ
  | .flowYielded elements => some elements
  | _ => none

/-- The end of the main loop. -/
def beginsDrain : FlowEvent → Bool
  | .flowStateChanged .running .draining => true
  | _ => false

end FlowEvent

/-- The events of the main loop. -/
def mainLoop (events : List FlowEvent) : List FlowEvent :=
  events.takeWhile fun ev => !ev.beginsDrain

/-- Between two consecutive yields at most `k` stages are executed, and the yields report all
executions before the last of them. -/
structure YieldsWithin (k : ℕ) (events : List FlowEvent) : Prop where
  bounded : ∀ before n window m after,
    events = before ++ .flowYielded n :: (window ++ .flowYielded m :: after) →
    (∀ ev ∈ window, ev.yielded = none) → window.countP FlowEvent.isExecution ≤ k
  counted : ∀ before n after, events = before ++ .flowYielded n :: after →
    (∀ ev ∈ after, ev.yielded = none) →
    (events.filterMap FlowEvent.yielded).sum = before.countP FlowEvent.isExecution

/-- The executions since the last yield after one more event, as long as there are at most `k`
of them and a yield reports their number. -/
def paceStep (k c : ℕ) : FlowEvent → Option ℕ
  | .recordInvocation _ _ _ _ => if c < k then some (c + 1) else none
  | .flowYielded elements => if elements = c then some 0 else none
  | _ => some c

/-- The executions since the last yield, as long as the events keep pace. -/
def pace (k : ℕ) (events : List FlowEvent) : Option ℕ := events.foldlM (paceStep k) 0

section Pace

variable {k c c' : ℕ} {ev : FlowEvent} {events : List FlowEvent}

theorem paceStep_of_quiet (hexec : ev.isExecution = false) (hyield : ev.yielded = none) :
    paceStep k c ev = some c := by
  cases ev with
  | recordInvocation => cases hexec
  | flowYielded => cases hyield
  | _ => rfl

/-- One event: the yields and the running count keep up with the executions. -/
theorem paceStep_spec (h : paceStep k c ev = some c') (hc : c ≤ k) :
    c' ≤ k ∧ ev.yielded.toList.sum + c' = c + [ev].countP FlowEvent.isExecution := by
  cases ev with
  | recordInvocation =>
      simp only [paceStep, Option.ite_none_right_eq_some, Option.some.injEq] at h
      obtain ⟨hlt, rfl⟩ := h
      exact ⟨hlt, by simp [FlowEvent.yielded, FlowEvent.isExecution]⟩
  | flowYielded elements =>
      simp only [paceStep, Option.ite_none_right_eq_some, Option.some.injEq] at h
      obtain ⟨rfl, rfl⟩ := h
      exact ⟨Nat.zero_le k, by simp [FlowEvent.yielded, FlowEvent.isExecution]⟩
  | _ =>
      obtain rfl := Option.some.inj h
      exact ⟨hc, by simp [FlowEvent.yielded, FlowEvent.isExecution]⟩

/-- Any number of events. -/
theorem foldlM_paceStep_spec (h : events.foldlM (paceStep k) c = some c') (hc : c ≤ k) :
    c' ≤ k ∧ (events.filterMap FlowEvent.yielded).sum + c' =
      c + events.countP FlowEvent.isExecution := by
  induction events generalizing c with
  | nil =>
      obtain rfl := Option.some.inj h
      exact ⟨hc, by simp⟩
  | cons ev events ih =>
      rw [List.foldlM_cons] at h
      obtain ⟨c₁, hev, hrest⟩ := Option.bind_eq_some_iff.mp h
      obtain ⟨hc₁, hone⟩ := paceStep_spec hev hc
      obtain ⟨hle, hmore⟩ := ih hrest hc₁
      refine ⟨hle, ?_⟩
      have hsum : ((ev :: events).filterMap FlowEvent.yielded).sum =
          ev.yielded.toList.sum + (events.filterMap FlowEvent.yielded).sum := by
        cases hyielded : ev.yielded <;> simp [hyielded]
      have hcount : (ev :: events).countP FlowEvent.isExecution =
          [ev].countP FlowEvent.isExecution + events.countP FlowEvent.isExecution :=
        by rw [← List.countP_append, List.singleton_append]
      omega

theorem filterMap_yielded_eq_nil (h : ∀ ev ∈ events, ev.yielded = none) :
    events.filterMap FlowEvent.yielded = [] := List.filterMap_eq_nil_iff.mpr h

/-- Nothing but executions and yields matters. -/
theorem foldlM_paceStep_of_quiet
    (h : ∀ ev ∈ events, ev.isExecution = false ∧ ev.yielded = none) :
    events.foldlM (paceStep k) c = some c := by
  induction events with
  | nil => rfl
  | cons ev events ih =>
      obtain ⟨hexec, hyield⟩ := h ev List.mem_cons_self
      rw [List.foldlM_cons, paceStep_of_quiet hexec hyield]
      exact ih fun ev' hev' => h ev' (List.mem_cons_of_mem ev hev')

theorem pace_append {more : List FlowEvent} (h : pace k events = some c) :
    pace k (events ++ more) = more.foldlM (paceStep k) c := by
  rw [pace, List.foldlM_append, ← pace, h]
  rfl

/-- **Events that keep pace yield within `k` executions.** -/
theorem yieldsWithin_of_pace (h : pace k events = some c) : YieldsWithin k events := by
  -- at a yield the count starts anew, and it has reported what came before
  have hsplit : ∀ before n after, events = before ++ .flowYielded n :: after →
      (before.filterMap FlowEvent.yielded).sum + n = before.countP FlowEvent.isExecution ∧
        after.foldlM (paceStep k) 0 = some c := by
    rintro before n after rfl
    rw [pace, List.foldlM_append] at h
    obtain ⟨c₁, hbefore, hrest⟩ := Option.bind_eq_some_iff.mp h
    rw [List.foldlM_cons] at hrest
    obtain ⟨c₂, hyield, hafter⟩ := Option.bind_eq_some_iff.mp hrest
    simp only [paceStep, Option.ite_none_right_eq_some, Option.some.injEq] at hyield
    obtain ⟨rfl, rfl⟩ := hyield
    have hsum := (foldlM_paceStep_spec hbefore (Nat.zero_le k)).2
    exact ⟨by omega, hafter⟩
  refine ⟨fun before n window m after heq hwindow => ?_, fun before n after heq hafter => ?_⟩
  · have hrest := (hsplit before n _ heq).2
    rw [List.foldlM_append] at hrest
    obtain ⟨c₁, hc₁, -⟩ := Option.bind_eq_some_iff.mp hrest
    obtain ⟨hle, hsum⟩ := foldlM_paceStep_spec hc₁ (Nat.zero_le k)
    rw [filterMap_yielded_eq_nil hwindow, List.sum_nil] at hsum
    omega
  · have hlast : (FlowEvent.flowYielded n :: after).filterMap FlowEvent.yielded = [n] := by
      simp [FlowEvent.yielded, filterMap_yielded_eq_nil hafter]
    rw [← (hsplit before n after heq).1, heq, List.filterMap_append, List.sum_append, hlast,
      List.sum_singleton]

end Pace

/-! ## The main loop in the record -/

theorem mainLoop_eq_self {events : List FlowEvent}
    (h : ∀ ev ∈ events, ev.beginsDrain = false) : mainLoop events = events :=
  List.takeWhile_eq_self_iff.mpr fun ev hev => by simp [h ev hev]

/-- What comes after the end of the main loop is not part of it. -/
theorem mainLoop_append {events : List FlowEvent} (h : ∃ ev ∈ events, ev.beginsDrain = true)
    (more : List FlowEvent) : mainLoop (events ++ more) = mainLoop events := by
  obtain ⟨ev, hev, hbegins⟩ := h
  induction events with
  | nil => cases hev
  | cons first events ih =>
      rw [mainLoop, mainLoop, List.cons_append, List.takeWhile_cons, List.takeWhile_cons]
      split
      · rcases List.mem_cons.mp hev with rfl | hev
        · simp_all
        · exact congrArg (first :: ·) (ih hev)
      · rfl

/-- Events between two executions, two yields or two phases. -/
def FlowEvent.IsSilent (ev : FlowEvent) : Prop :=
  ev.isExecution = false ∧ ev.yielded = none ∧ ev.beginsDrain = false

theorem FlowEvent.isSilent_of_isOfAction {ev : FlowEvent} (h : ev.isOfAction = true) :
    ev.IsSilent := by
  cases ev <;> first | exact ⟨rfl, rfl, rfl⟩ | cases h

theorem FlowEvent.isSilent_of_isNotice {ev : FlowEvent} (h : ev.isNotice = true) :
    ev.IsSilent := by
  cases ev <;> first | exact ⟨rfl, rfl, rfl⟩ | cases h

/-! ## The driver -/

namespace FlowDriver

variable {d d' : FlowDriver} {r : Round} {k c : ℕ}

section Frames

theorem yieldCtrl_pushPulled (d : FlowDriver) (r : Round) (element : OutputElement) (si : ℕ) :
    (d.pushPulled r element si).yieldCtrl = d.yieldCtrl := by
  cases hs : d.streams[si]? with
  | none => simp only [pushPulled, hs]
  | some s => rw [pushPulled_eq r element hs]

theorem yieldCtrl_pushAll (input : StreamElementRef) (ts : List (OutputElement × ℕ))
    (d : FlowDriver) : (d.pushAll input ts).yieldCtrl = d.yieldCtrl := by
  induction ts generalizing d with
  | nil => rfl
  | cons t ts ih =>
      have hone : (d.pushOutput input t.1 t.2).yieldCtrl = d.yieldCtrl := by
        cases hs : d.streams[t.2]? with
        | none => simp only [pushOutput, hs]
        | some s => rw [pushOutput_eq input t.1 hs]
      exact (ih _).trans hone

/-- No action touches the yield controller. -/
theorem Acted.yieldCtrl_eq {e : StageExecution} (h : Acted d r e d') :
    d'.yieldCtrl = d.yieldCtrl := by
  cases h with
  | starved | asked | exhausted | consumed => rfl
  | produced element si => exact yieldCtrl_pushPulled _ r element si
  | processed si s elem answer ts => exact yieldCtrl_pushAll elem ts _

theorem yieldCtrl_executeStage (d : FlowDriver) (r : Round) (e : StageExecution) :
    (d.executeStage r e).1.yieldCtrl = d.yieldCtrl := by
  have hrecord : ∀ (d : FlowDriver) (result : Except FlowError Unit),
      (d.recordExecution r e result).yieldCtrl = d.yieldCtrl := by
    intro d result
    unfold recordExecution
    simp only
    split <;> rfl
  exact (hrecord _ _).trans (executeAction_acted (d.prepared d.cancellation) r e).yieldCtrl_eq

theorem yieldCtrl_foldl {f : FlowDriver → ℕ → FlowDriver}
    (hf : ∀ d v, (f d v).yieldCtrl = d.yieldCtrl) (vs : List ℕ) (d : FlowDriver) :
    (vs.foldl f d).yieldCtrl = d.yieldCtrl := by
  induction vs generalizing d with
  | nil => rfl
  | cons v vs ih => exact (ih (f d v)).trans (hf d v)

theorem yieldCtrl_propagateProducerComplete (d : FlowDriver) :
    d.propagateProducerComplete.yieldCtrl = d.yieldCtrl := by
  refine yieldCtrl_foldl (fun d v => ?_) _ d
  unfold propagateStage
  simp only
  split
  · rfl
  · split <;> rfl

theorem yieldCtrl_beginDrain (d : FlowDriver) (r : Round) :
    (d.beginDrain r).yieldCtrl = d.yieldCtrl := by
  refine yieldCtrl_foldl (f := markSource) (fun d v => ?_) (List.range d.topology.stages.length) d
  unfold markSource
  split <;> rfl

/-- The yield check leaves the quantum as it is. -/
theorem quantum_afterStage (d : FlowDriver) (r : Round) :
    (d.afterStage r).yieldCtrl.elementsPerYield = d.yieldCtrl.elementsPerYield := by
  unfold afterStage yieldCheck
  simp only
  split <;> rfl

theorem events_beginDrain (d : FlowDriver) (r : Round) :
    (d.beginDrain r).events = d.events ++ [.flowStateChanged .running .draining] := by
  obtain ⟨-, hevents, -⟩ := foldl_markSource (List.range d.topology.stages.length) d
  exact congrArg (· ++ [FlowEvent.flowStateChanged .running .draining]) hevents

end Frames

/-- A stage is executed in this round, and the main loop goes on after it. -/
def GoesOn (d : FlowDriver) (r : Round) : Prop :=
  d.state = .running ∧ d.nextReady.isSome ∧ (d.step r).state = .running

/-- If the stage executed in this round is the `k`-th since the last yield, the driver has used
up its own quantum then, or its time. -/
def YieldsInTime (k : ℕ) (d : FlowDriver) (r : Round) : Prop :=
  d.GoesOn r → k ≤ d.yieldCtrl.elementsSinceYield + 1 →
    d.yieldCtrl.elementsPerYield ≤ d.yieldCtrl.elementsSinceYield + 1 ∨
      d.yieldCtrl.timeQuantum ≤ r.finish - d.yieldCtrl.lastYieldAt

/-- The main loop keeps pace, and so does the counter of the driver while it runs. -/
structure Keeps (k : ℕ) (d : FlowDriver) : Prop where
  running : d.state = .running → (∀ ev ∈ d.events, ev.beginsDrain = false) ∧
    pace k d.events = some d.yieldCtrl.elementsSinceYield ∧ d.yieldCtrl.elementsSinceYield < k
  ended : d.state ≠ .running → (∃ ev ∈ d.events, ev.beginsDrain = true) ∧
    ∃ c, pace k (mainLoop d.events) = some c

theorem Keeps.yieldsWithin (h : Keeps k d) : YieldsWithin k (mainLoop d.events) := by
  by_cases hrun : d.state = .running
  · obtain ⟨hmain, hpace, -⟩ := h.running hrun
    rw [mainLoop_eq_self hmain]
    exact yieldsWithin_of_pace hpace
  · obtain ⟨-, c, hpace⟩ := h.ended hrun
    exact yieldsWithin_of_pace hpace

/-- The main loop ends with the pace it has kept. -/
theorem keeps_beginDrain (hmain : ∀ ev ∈ d.events, ev.beginsDrain = false)
    (hpace : pace k d.events = some c) (r : Round) : Keeps k (d.beginDrain r) := by
  refine ⟨fun h => (by cases h), fun _ => ?_⟩
  rw [events_beginDrain]
  refine ⟨⟨_, List.mem_append_right _ (List.mem_singleton_self _), rfl⟩, c, ?_⟩
  rw [mainLoop, List.takeWhile_append_of_pos fun ev hev => by simp [hmain ev hev]]
  simpa [FlowEvent.beginsDrain] using hpace

/-- After the main loop nothing changes what happened in it. -/
theorem Keeps.of_ended (h : Keeps k d) (hrun : d.state ≠ .running) (hrun' : d'.state ≠ .running)
    (hmore : d.events <+: d'.events) : Keeps k d' := by
  obtain ⟨⟨ev, hev, hbegins⟩, c, hpace⟩ := h.ended hrun
  obtain ⟨more, hmore⟩ := hmore
  refine ⟨fun h => absurd h hrun', fun _ => ?_⟩
  rw [← hmore, mainLoop_append ⟨ev, hev, hbegins⟩]
  exact ⟨⟨ev, List.mem_append_left _ hev, hbegins⟩, c, hpace⟩

/-- An execution is one more step of the pace. -/
theorem pace_executeStage (hmain : ∀ ev ∈ d.events, ev.beginsDrain = false)
    (hpace : pace k d.events = some c) (hlt : c < k) (r : Round) (e : StageExecution) :
    (∀ ev ∈ (d.executeStage r e).1.events, ev.beginsDrain = false) ∧
      pace k (d.executeStage r e).1.events = some (c + 1) := by
  obtain ⟨acted, startNs, endNs, status, seqs, hevents, hacted⟩ := d.executeStage_events r e
  have hsilent : ∀ ev ∈ acted, ev.IsSilent :=
    fun ev hev => FlowEvent.isSilent_of_isOfAction (hacted ev hev)
  have hspans : ∀ ev ∈ seqs.map (FlowEvent.recordElementSpan e.componentId · startNs endNs status),
      ev.IsSilent := by
    intro ev hev
    obtain ⟨seq, -, rfl⟩ := List.mem_map.mp hev
    exact ⟨rfl, rfl, rfl⟩
  rw [hevents]
  constructor
  · intro ev hev
    rcases List.mem_append.mp hev with hev | hev
    · exact (List.mem_append.mp hev).elim (hmain ev) fun hev => (hsilent ev hev).2.2
    · rcases List.mem_cons.mp hev with rfl | hev
      · rfl
      · exact (hspans ev hev).2.2
  · rw [List.append_assoc, pace_append hpace, List.foldlM_append,
      foldlM_paceStep_of_quiet fun ev hev => ⟨(hsilent ev hev).1, (hsilent ev hev).2.1⟩]
    simp only [Option.bind_eq_bind, Option.bind_some, List.foldlM_cons, paceStep, if_pos hlt]
    exact foldlM_paceStep_of_quiet fun ev hev => ⟨(hspans ev hev).1, (hspans ev hev).2.1⟩

/-- **After a stage** the driver yields in time. -/
theorem keeps_afterStage (hrun : d.state = .running)
    (hmain : ∀ ev ∈ d.events, ev.beginsDrain = false)
    (hpace : pace k d.events = some (d.yieldCtrl.elementsSinceYield + 1))
    (hk : 0 < k) (htime : k ≤ d.yieldCtrl.elementsSinceYield + 1 →
      d.yieldCtrl.elementsPerYield ≤ d.yieldCtrl.elementsSinceYield + 1 ∨
        d.yieldCtrl.timeQuantum ≤ r.finish - d.yieldCtrl.lastYieldAt) :
    Keeps k (d.afterStage r) := by
  obtain ⟨more, hevents, hnotice⟩ := d.notified_events r
  have hsilent : ∀ ev ∈ more, ev.IsSilent :=
    fun ev hev => FlowEvent.isSilent_of_isNotice (hnotice ev hev)
  set notified := (d.checkBackpressureAll r).1.notifyProducers (d.checkBackpressureAll r).2
    with hnotified
  have hctrl : notified.yieldCtrl = d.yieldCtrl := rfl
  have hstate : notified.state = .running := hrun
  have hmain' : ∀ ev ∈ notified.events, ev.beginsDrain = false := by
    intro ev hev
    rw [hevents] at hev
    exact (List.mem_append.mp hev).elim (hmain ev) fun hev => (hsilent ev hev).2.2
  have hpace' : pace k notified.events = some (d.yieldCtrl.elementsSinceYield + 1) := by
    rw [hevents, pace_append hpace]
    exact foldlM_paceStep_of_quiet fun ev hev => ⟨(hsilent ev hev).1, (hsilent ev hev).2.1⟩
  have hafter : d.afterStage r = notified.yieldCheck r := rfl
  rw [hafter]
  unfold yieldCheck
  simp only [hctrl]
  split
  · refine ⟨fun _ => ⟨fun ev hev => ?_, ?_, hk⟩, fun h => absurd hstate h⟩
    · rcases List.mem_append.mp hev with hev | hev
      · exact hmain' ev hev
      · rw [List.mem_singleton.mp hev]
        rfl
    · refine (pace_append hpace').trans ?_
      change (paceStep k _ _).bind pure = some 0
      simp [paceStep, YieldController.recordElement]
  · rename_i hstay
    simp only [YieldController.shouldYield, YieldController.recordElement, Bool.or_eq_true,
      decide_eq_true_eq, not_or, ge_iff_le, not_le] at hstay
    refine ⟨fun _ => ⟨hmain', hpace', ?_⟩, fun h => absurd hstate h⟩
    change d.yieldCtrl.elementsSinceYield + 1 < k
    by_contra hle
    rcases htime (not_lt.mp hle) with hquantum | htime
    · exact absurd hquantum (not_le.mpr hstay.1)
    · exact absurd htime (not_le.mpr hstay.2)

theorem Keeps.of_cancellation (h : Keeps k d) (c : FlowCancellation) :
    Keeps k (d.withCancellation c) := ⟨h.running, h.ended⟩

/-- A round without a stage only marks streams. -/
theorem Keeps.propagate (h : Keeps k d) (hrun : d.state = .running) (c : FlowCancellation) :
    (d.propagateProducerComplete.withCancellation c).state = .running ∧
      Keeps k (d.propagateProducerComplete.withCancellation c) := by
  obtain ⟨hmain, hpace, hlt⟩ := h.running hrun
  obtain ⟨hcontext, hevents⟩ := foldl_propagateStage_frame (List.range d.topology.stages.length) d
  have hevents : (d.propagateProducerComplete.withCancellation c).events = d.events := hevents
  have hctrl : (d.propagateProducerComplete.withCancellation c).yieldCtrl = d.yieldCtrl :=
    yieldCtrl_propagateProducerComplete d
  have hstate : (d.propagateProducerComplete.withCancellation c).state = .running :=
    (congrArg Context.state hcontext).trans hrun
  refine ⟨hstate, fun _ => ?_, fun h => absurd hstate h⟩
  rw [hevents, hctrl]
  exact ⟨hmain, hpace, hlt⟩

/-- **Every round.** -/
theorem Keeps.step (h : Keeps k d) (htime : YieldsInTime k d r) : Keeps k (d.step r) := by
  by_cases hrun : d.state = .running
  · obtain ⟨hmain, hpace, hlt⟩ := h.running hrun
    rcases step_running hrun r with ⟨-, hstep⟩ | ⟨e, c, -, he, hstep⟩ | ⟨c, -, hstep⟩
    · rw [hstep]
      exact keeps_beginDrain (d := d.cancelBy r.cancelBefore) hmain hpace r
    · set executed := ((d.cancelBy r.cancelBefore).executeStage r e).1.withCancellation c
      obtain ⟨hmain', hpace'⟩ :=
        pace_executeStage (d := d.cancelBy r.cancelBefore) hmain hpace hlt r e
      have hctrl : ((d.cancelBy r.cancelBefore).executeStage r e).1.yieldCtrl = d.yieldCtrl :=
        yieldCtrl_executeStage _ r e
      have hstate : ((d.cancelBy r.cancelBefore).executeStage r e).1.state = .running :=
        (congrArg Context.state (context_executeStage _ r e)).trans hrun
      rcases hstep with hstep | hstep
      · rw [hstep]
        exact keeps_beginDrain (d := executed) hmain' hpace' r
      · have hafter : (d.step r).state = .running := by
          rw [hstep]
          exact (congrArg Context.state (afterStage_frame _ r).2.1).trans hstate
        have hgoes : d.GoesOn r := ⟨hrun, by rw [he]; rfl, hafter⟩
        rw [hstep]
        refine keeps_afterStage (d := executed) hstate hmain' ?_ (Nat.zero_lt_of_lt hlt) ?_
        · exact hpace'.trans (congrArg (fun y => some (y.elementsSinceYield + 1)) hctrl.symm)
        · simp only [executed, withCancellation, hctrl]
          exact htime hgoes
    · obtain ⟨hstate, hkeeps⟩ :=
        (h.of_cancellation (d.cancelBy r.cancelBefore).cancellation).propagate hrun c
      rcases hstep with hstep | hstep
      · obtain ⟨hmain', hpace', -⟩ := hkeeps.running hstate
        rw [hstep]
        exact keeps_beginDrain hmain' hpace' r
      · rw [hstep]
        exact hkeeps
  · by_cases hdrain : d.state = .draining
    · rcases step_draining hdrain r with ⟨e, -, -, hstep⟩ | ⟨-, hstep⟩
      · rw [hstep]
        have hstate : (d.executeStage r e).1.state = d.state :=
          congrArg Context.state (context_executeStage d r e)
        obtain ⟨acted, startNs, endNs, status, seqs, hevents, -⟩ := d.executeStage_events r e
        refine h.of_ended hrun (hstate ▸ hrun) ?_
        rw [hevents, List.append_assoc]
        exact List.prefix_append _ _
      · rw [hstep]
        obtain ⟨more, hevents, -⟩ := d.finish_events r
        exact h.of_ended hrun (not_live_finish d r).1 ⟨more, hevents.symm⟩
    · rw [step_of_not_live hrun hdrain]
      exact h

/-- No round changes the quantum of the driver. -/
theorem quantum_step (d : FlowDriver) (r : Round) :
    (d.step r).yieldCtrl.elementsPerYield = d.yieldCtrl.elementsPerYield := by
  by_cases hrun : d.state = .running
  · rcases step_running hrun r with ⟨-, hstep⟩ | ⟨e, c, -, -, hstep⟩ | ⟨c, -, hstep⟩
    · rw [hstep, yieldCtrl_beginDrain]
      rfl
    · have hctrl : ((d.cancelBy r.cancelBefore).executeStage r e).1.yieldCtrl = d.yieldCtrl :=
        yieldCtrl_executeStage _ r e
      rcases hstep with hstep | hstep
      · rw [hstep, yieldCtrl_beginDrain]
        exact congrArg YieldController.elementsPerYield hctrl
      · rw [hstep, quantum_afterStage]
        exact congrArg YieldController.elementsPerYield hctrl
    · have hctrl : (d.cancelBy r.cancelBefore).propagateProducerComplete.yieldCtrl = d.yieldCtrl :=
        yieldCtrl_propagateProducerComplete _
      rcases hstep with hstep | hstep
      · rw [hstep, yieldCtrl_beginDrain]
        exact congrArg YieldController.elementsPerYield hctrl
      · rw [hstep]
        exact congrArg YieldController.elementsPerYield hctrl
  · by_cases hdrain : d.state = .draining
    · rcases step_draining hdrain r with ⟨e, -, -, hstep⟩ | ⟨-, hstep⟩
      · rw [hstep, yieldCtrl_executeStage]
      · rw [hstep]
        rfl
    · rw [step_of_not_live hrun hdrain]

end FlowDriver

/-- **Yields to the runtime.**  In a run of a flow whose yield configuration is valid, and in
which every stage that is the configured number of executions away from the last yield uses up
the quantum of the driver, at most that number of stages are executed between two consecutive
yields, and the yields report all executions before the last of them. -/
theorem yields_within_of_guarded (f : BuiltFlow) (hvalid : f.config.yieldConfig.validate = .ok ())
    (rounds : List Round)
    (h : Guarded FlowDriver.step (FlowDriver.YieldsInTime f.config.yieldConfig.elementsPerYield)
      f.start rounds) :
    YieldsWithin f.config.yieldConfig.elementsPerYield (mainLoop (f.run rounds).events) := by
  obtain ⟨hpos, -, -⟩ := YieldConfig.validate_eq_ok_iff.mp hvalid
  have hstart : f.start.Keeps f.config.yieldConfig.elementsPerYield := by
    refine ⟨fun _ => ⟨fun ev hev => ?_, rfl, hpos⟩, fun h => absurd rfl h⟩
    rw [List.mem_singleton.mp hev]
    rfl
  exact (h.invariant (fun _ _ htime hkeeps => hkeeps.step htime) hstart).yieldsWithin

/-- The condition is met by every run of a flow whose priority has a quantum within the
configured number. -/
theorem guarded_of_quantum_le (f : BuiltFlow)
    (hle : f.config.priority.elementsPerYield ≤ f.config.yieldConfig.elementsPerYield)
    (rounds : List Round) :
    Guarded FlowDriver.step (FlowDriver.YieldsInTime f.config.yieldConfig.elementsPerYield)
      f.start rounds := by
  have hquantum : ∀ rounds : List Round,
      (rounds.foldl FlowDriver.step f.start).yieldCtrl.elementsPerYield ≤
        f.config.yieldConfig.elementsPerYield := by
    intro rounds
    induction rounds using List.reverseRecOn with
    | nil => exact (min_le_left _ _).trans hle
    | append_singleton rounds r ih =>
        rw [List.foldl_append]
        exact (FlowDriver.quantum_step _ r).trans_le ih
  refine (Guarded.of_forall (P := fun d => d.yieldCtrl.elementsPerYield ≤
    f.config.yieldConfig.elementsPerYield) hquantum rounds).mono fun d r hd _ hcount => ?_
  exact .inl (hd.trans hcount)

/-! ## A flow that does not yield in time -/

/-- A source and a sink, at the priority that yields most often, with a yield configuration. -/
def yieldingConfig (yieldConfig : YieldConfig) : FlowConfig :=
  { smallConfig [.source, .sink] [(0, 1)] 1 with
    priority := .background
    yieldConfig := yieldConfig }

/-- A flow of this configuration. -/
def yieldingFlow (yieldConfig : YieldConfig) : SpawnedFlow where
  flowId := ⟨0⟩
  config := yieldingConfig yieldConfig
  streams := pairFlow.streams
  startedAt := 0
  wallClock := 0
  built := pairFlow.built
  validated := pairFlow_validated

/-- A round that ends when the time quantum has passed for the first time, and eight more at the
same time. -/
def yieldingRounds : List Round :=
  List.replicate 9 { quietRound (forwarding 1) with finish := 100000 }

/-- With the quantum of its priority configured the flow yields as configured. -/
theorem yields_within_of_guarded_yieldingFlow :
    YieldsWithin 8 (mainLoop ((yieldingFlow ⟨8, 100000⟩).run yieldingRounds).events) :=
  yields_within_of_guarded (yieldingFlow ⟨8, 100000⟩).toBuiltFlow (by decide) yieldingRounds
    (guarded_of_quantum_le _ (by decide) _)

/-- Two yields with too many executions between them. -/
theorem not_yieldsWithin_of_gap {k : ℕ} {events : List FlowEvent} (i j : ℕ)
    (hfirst : (events[i]?.bind FlowEvent.yielded).isSome)
    (hsecond : (events[i + 1 + j]?.bind FlowEvent.yielded).isSome)
    (hsilent : ∀ ev ∈ (events.drop (i + 1)).take j, ev.yielded = none)
    (hmany : k < ((events.drop (i + 1)).take j).countP FlowEvent.isExecution) :
    ¬YieldsWithin k events := by
  intro h
  have hat : ∀ i, (events[i]?.bind FlowEvent.yielded).isSome →
      ∃ n, events.drop i = .flowYielded n :: events.drop (i + 1) := by
    intro i hi
    obtain ⟨n, hn⟩ := Option.isSome_iff_exists.mp hi
    obtain ⟨ev, hev, hyielded⟩ := Option.bind_eq_some_iff.mp hn
    cases ev with
    | flowYielded m => exact ⟨m, List.drop_eq_getElem?_toList_append.trans (by rw [hev]; rfl)⟩
    | _ => cases hyielded
  obtain ⟨n, hn⟩ := hat i hfirst
  obtain ⟨m, hm⟩ := hat (i + 1 + j) hsecond
  refine absurd (h.bounded (events.take i) n _ m (events.drop (i + 1 + j + 1)) ?_ hsilent)
    (not_le.mpr hmany)
  have hrest : (events.drop (i + 1)).take j ++ events.drop (i + 1 + j) = events.drop (i + 1) := by
    rw [← List.drop_drop (i := j)]
    exact List.take_append_drop j _
  rw [← hm, hrest, ← hn, List.take_append_drop]

/-- A flow that is to yield after each element yields after the first, and then executes eight
stages before it yields again. -/
theorem oversleeps :
    ¬∀ (f : SpawnedFlow) (rounds : List Round), f.config.yieldConfig.validate = .ok () →
      YieldsWithin f.config.yieldConfig.elementsPerYield (mainLoop (f.run rounds).events) := by
  intro h
  refine absurd (h (yieldingFlow ⟨1, 100000⟩) yieldingRounds (by decide)) ?_
  exact not_yieldsWithin_of_gap 8 52 (by decide) (by decide) (by decide) (by decide)

end Torvyn.Reactor
