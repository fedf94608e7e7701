/-
# Sinks that pause

A sink answers each push with a signal, and the driver drops the signal.  What keeps the
producer of a paused stream from running is the order in which the scheduler looks for a stage:
a sink with input comes before every stage behind it.  `pause_honoured_of_guarded` says for which
runs that is enough, and `pause_ignored` shows one for which it is not.
-/
import Torvyn.Reactor.Credit
import Torvyn.Reactor.Fatal

namespace Torvyn.Reactor

open FlowDriver

/-! ## The signals of the sinks -/

/-- An element that is pushed to a sink: the stage, the stream the element comes from, and what
the sink answers. -/
structure SinkPush where
  stageIndex : ℕ
  streamIndex : ℕ
  answer : Answer BackpressureSignal
  deriving DecidableEq, Repr

/-- The push of an execution. -/
def FlowDriver.sinkPush (d : FlowDriver) (r : Round) (e : StageExecution) : Option SinkPush :=
  match e.action with
  | .pushToSink inputStream =>
      (d.takenFrom e).bind fun si => (d.inputElement inputStream).map fun elemRef =>
        ⟨e.stageIndex, si, r.invoker.push e.componentId ⟨elemRef.metadata, elemRef.bufferHandle⟩⟩
  | _ => none

/-- The streams that are paused after an answer: a sink pauses the stream its element came from,
and it is ready for all its input streams. -/
def SinkPush.signalled (p : SinkPush) (inputs paused : List ℕ) : List ℕ :=
  match p.answer with
  | .ok .pause => p.streamIndex :: paused
  | .ok .ready => paused.filter fun si => si ∉ inputs
  | _ => paused

theorem SinkPush.mem_of_mem_signalled (p : SinkPush) {inputs paused : List ℕ} {si : ℕ}
    (h : si ∈ p.signalled inputs paused) (hne : si ≠ p.streamIndex) : si ∈ paused := by
  unfold signalled at h
  split at h
  · exact (List.mem_cons.mp h).resolve_left hne
  · exact (List.mem_filter.mp h).1
  · exact h

/-- A driver with the streams that its sinks have paused. -/
structure Watched where
  driver : FlowDriver
  paused : List ℕ

namespace Watched

/-- The streams that are paused after the answer of the round, if a sink gives one in it. -/
def signalled (w : Watched) (r : Round) : List ℕ :=
  match (w.driver.chosen r).bind (w.driver.sinkPush r) with
  | some p => p.signalled (w.driver.streamIndex.inputs p.stageIndex) w.paused
  | none => w.paused

/-- Whether a phase of backpressure of the stream ends in this round. -/
def releases (w : Watched) (r : Round) (si : ℕ) : Bool :=
  activeAt w.driver.streams si && !activeAt (w.driver.step r).streams si

/-- One round. -/
def step (w : Watched) (r : Round) : Watched where
  driver := w.driver.step r
  paused := (w.signalled r).filter fun si => !w.releases r si

/-- The round does not execute the producer of a stream that is paused. -/
def HonoursPause (w : Watched) (r : Round) : Prop :=
  ∀ e ∈ w.driver.chosen r, ∀ si ∈ w.driver.streamIndex.outputs e.stageIndex, si ∉ w.paused

instance (w : Watched) (r : Round) : Decidable (w.HonoursPause r) :=
  inferInstanceAs (Decidable (∀ e ∈ w.driver.chosen r, _))

/-- A sink that is handed the last element that waits for it leaves no stream paused, except
one whose producer is done and one whose backpressure ends with this element. -/
def PauseEnds (w : Watched) (r : Round) : Prop :=
  ∀ e ∈ w.driver.chosen r, ∀ p ∈ w.driver.sinkPush r e,
    (∀ si ∈ w.driver.streamIndex.inputs p.stageIndex,
      lenAt w.driver.streams si ≤ if si = p.streamIndex then 1 else 0) →
    ∀ si ∈ w.driver.streamIndex.inputs p.stageIndex,
      si ∈ p.signalled (w.driver.streamIndex.inputs p.stageIndex) w.paused →
      completeAt w.driver.streams si = true ∨
        (w.driver.state = .running ∧ activeAt w.driver.streams si = true ∧ p.answer = .ok .pause)

instance (w : Watched) (r : Round) : Decidable (w.PauseEnds r) :=
  inferInstanceAs (Decidable (∀ e ∈ w.driver.chosen r, ∀ p ∈ w.driver.sinkPush r e, _))

end Watched

/-- The producer of the stream is held back: elements wait for the sink behind it, or the
producer is done. -/
def HeldBack (t : FlowTopology) (streams : List StreamState) (si v : ℕ) : Prop :=
  (∃ sj ∈ (StreamIndex.build t).inputs v, 0 < lenAt streams sj) ∨ completeAt streams si = true

/-- The producers of all paused streams are held back. -/
structure PauseInv (t : FlowTopology) (w : Watched) : Prop where
  inv : DriverInv t w.driver
  held : ∀ si ∈ w.paused, ∃ v stage, t.stages[v]? = some stage ∧ stage.role = .sink ∧
    si ∈ (StreamIndex.build t).inputs v ∧ HeldBack t w.driver.streams si v

section PauseInv

variable {t : FlowTopology} {w : Watched} {d : FlowDriver} {r : Round} {e : StageExecution}

/-- The producer of a stream does not run once it is done. -/
theorem not_complete_of_ready (ht : t.Valid) (h : DriverInv t d) (he : d.nextReady = some e)
    (r : Round) {si : ℕ} (hsi : si ∈ (StreamIndex.build t).outputs e.stageIndex) :
    completeAt d.streams si = false := by
  obtain ⟨stage, hstage, -, hx, -⟩ :=
    nextReady_spec ht h.topology h.streamIndex h.streams.wired he r
  rw [← Bool.not_eq_true]
  intro hdone
  rcases hx.taken with ⟨hsource, -, -⟩ | ⟨-, -, i, hi, hpos, -⟩
  · have hnil := (ht.inputs_eq_nil_iff hstage).mpr hsource
    have hun := hx.unblocked
    rw [hsource] at hun
    obtain ⟨o, ho, hcan⟩ := hun
    rw [canProduceAt_iff h.streams.credit (h.streams.wired.lt_of_mem_outputs ho),
      h.streams.source _ hnil si hsi hdone o ho] at hcan
    cases hcan.1
  · have hempty := (h.streams.downstream _ (List.ne_nil_of_mem hi) si hsi hdone i hi).2
    omega

/-- What is known of a push to a sink. -/
theorem sinkPush_spec (ht : t.Valid) (h : DriverInv t d) (he : d.nextReady = some e)
    {p : SinkPush} (hp : d.sinkPush r e = some p) :
    p.stageIndex = e.stageIndex ∧ d.takenFrom e = some p.streamIndex ∧ d.addressed r e = [] ∧
      p.streamIndex ∈ (StreamIndex.build t).inputs e.stageIndex ∧
      ∃ stage, t.stages[e.stageIndex]? = some stage ∧ stage.role = .sink := by
  unfold sinkPush at hp
  split at hp
  · rename_i inputStream hpush
    obtain ⟨si, htaken, hp⟩ := Option.bind_eq_some_iff.mp hp
    obtain ⟨elemRef, -, rfl⟩ := Option.map_eq_some_iff.mp hp
    obtain ⟨stage, hstage, haction⟩ := h.stageAction_of_ready ht he
    obtain ⟨-, hcases⟩ := stageAction_cases h.streams.wired.id_eq haction
    obtain ⟨stage', -, -, hx, -⟩ :=
      nextReady_spec ht h.topology h.streamIndex h.streams.wired he r
    have hinput : si ∈ (StreamIndex.build t).inputs e.stageIndex := by
      rcases hx.taken with ⟨-, hnone, -⟩ | ⟨-, -, i, hi, -, hsome⟩
      · cases hnone.symm.trans htaken
      · obtain rfl := Option.some.inj (hsome.symm.trans htaken)
        exact hi
    have haddressed : d.addressed r e = [] := by
      unfold addressed
      simp only [hpush]
    refine ⟨rfl, htaken, haddressed, hinput, stage, hstage, ?_⟩
    rcases hcases with ⟨-, hpull⟩ | ⟨_, -, -, ⟨hsink, -⟩ | ⟨-, -, hprocess⟩⟩
    · cases hpull.symm.trans hpush
    · exact hsink
    · cases hprocess.symm.trans hpush
  · cases hp

/-- A stage that takes an element that waits for a sink is the sink. -/
theorem exists_sinkPush (ht : t.Valid) (h : DriverInv t d) (he : d.nextReady = some e)
    {v si : ℕ} {stage : StageDefinition} (hstage : t.stages[v]? = some stage)
    (hsink : stage.role = .sink) (hsi : si ∈ (StreamIndex.build t).inputs v)
    (htaken : d.takenFrom e = some si) : ∃ p, d.sinkPush r e = some p ∧ p.stageIndex = v := by
  obtain ⟨stage', hstage', haction⟩ := h.stageAction_of_ready ht he
  obtain ⟨-, hcases⟩ := stageAction_cases h.streams.wired.id_eq haction
  obtain ⟨_, -, -, hx, -⟩ := nextReady_spec ht h.topology h.streamIndex h.streams.wired he r
  obtain rfl : e.stageIndex = v := by
    rcases hx.taken with ⟨-, hnone, -⟩ | ⟨-, -, i, hi, -, hsome⟩
    · cases hnone.symm.trans htaken
    · obtain rfl := Option.some.inj (hsome.symm.trans htaken)
      exact StreamIndex.inputs_inj hi hsi
  obtain rfl := Option.some.inj (hstage.symm.trans hstage')
  obtain ⟨sj, hpush⟩ : ∃ sj, e.action = .pushToSink ⟨sj⟩ := by
    rcases hcases with ⟨hsource, -⟩ | ⟨sj, -, -, ⟨-, hpush⟩ | ⟨-, hnot, -⟩⟩
    · cases hsink.symm.trans hsource
    · exact ⟨sj, hpush⟩
    · exact absurd hsink hnot
  have htaken' := htaken
  simp only [takenFrom, hpush] at htaken'
  rcases d.takeInput_cases ⟨sj⟩ with ⟨-, -, hfrom⟩ | ⟨_, _, elemRef, -, -, helem, -, -⟩
  · cases hfrom.symm.trans htaken'
  · refine ⟨⟨e.stageIndex, si, r.invoker.push e.componentId
      ⟨elemRef.metadata, elemRef.bufferHandle⟩⟩, ?_, rfl⟩
    simp only [sinkPush, hpush, htaken, helem, Option.bind_some, Option.map_some]

/-- A stream keeps an element that is not taken. -/
theorem pos_step (h : DriverInv t d) (hlive : (d.step r).state = .running ∨
    (d.step r).state = .draining) {si : ℕ} (hlt : si < d.streams.length)
    (hpos : 0 < lenAt d.streams si) (htaken : ∀ e, d.chosen r = some e → d.takenFrom e ≠ some si) :
    0 < lenAt (d.step r).streams si := by
  obtain ⟨-, hnone, hsome⟩ := step_read h r hlive hlt
  cases hchosen : d.chosen r with
  | none =>
      rw [hnone hchosen]
      exact hpos
  | some e =>
      have hcapacity := capacityAt_pos hlt
      rw [hsome e hchosen, if_neg (htaken e hchosen)]
      split <;> omega

/-- A round in which nothing is pushed to the sink changes nothing. -/
theorem HeldBack.step (ht : t.Valid) (h : DriverInv t d) {v si : ℕ} {stage : StageDefinition}
    (hheld : HeldBack t d.streams si v) (hlive : (d.step r).state = .running ∨
      (d.step r).state = .draining) (hstage : t.stages[v]? = some stage)
    (hsink : stage.role = .sink) (hin : si ∈ (StreamIndex.build t).inputs v)
    (hnot : ∀ e p, d.chosen r = some e → d.sinkPush r e = some p → p.stageIndex ≠ v) :
    HeldBack t (d.step r).streams si v := by
  rcases hheld with ⟨sj, hsj, hpos⟩ | hdone
  · refine .inl ⟨sj, hsj, pos_step h hlive (h.streams.wired.lt_of_mem_inputs hsj) hpos ?_⟩
    intro e he htaken
    obtain ⟨p, hp, hv⟩ :=
      exists_sinkPush ht h (ready_of_chosen he).2 hstage hsink hsj htaken (r := r)
    exact hnot e p he hp hv
  · exact .inr ((step_read h r hlive (h.streams.wired.lt_of_mem_inputs hin)).1 hdone)

/-- The push of an execution is the one the driver makes. -/
theorem takeInput_of_sinkPush {p : SinkPush} (hp : d.sinkPush r e = some p) :
    ∃ inputStream elemRef d', e.action = .pushToSink inputStream ∧
      d.takeInput inputStream = some (elemRef, d') ∧
      p.answer = r.invoker.push e.componentId ⟨elemRef.metadata, elemRef.bufferHandle⟩ := by
  unfold sinkPush at hp
  split at hp
  · rename_i inputStream hpush
    obtain ⟨si, -, hp⟩ := Option.bind_eq_some_iff.mp hp
    obtain ⟨elemRef, helem, rfl⟩ := Option.map_eq_some_iff.mp hp
    rcases d.takeInput_cases inputStream with
      ⟨-, hnone, -⟩ | ⟨_, _, elemRef', -, -, helem', -, htake⟩
    · cases hnone.symm.trans helem
    · obtain rfl := Option.some.inj (helem'.symm.trans helem)
      exact ⟨inputStream, _, _, hpush, htake, rfl⟩
  · cases hp

/-- The answer is in the record of the driver. -/
theorem invoked_of_sinkPush {p : SinkPush} (hp : d.sinkPush r e = some p) :
    ∃ element, .invoked e.componentId (.push element p.answer) ∈ (d.executeStage r e).1.events := by
  obtain ⟨inputStream, elemRef, d', hpush, htake, hanswer⟩ :=
    takeInput_of_sinkPush (d := { d with currentElementSequence := none }) hp
  refine ⟨⟨elemRef.metadata, elemRef.bufferHandle⟩, ?_⟩
  obtain ⟨_, _, _, hevents⟩ := events_recordExecution
    ({ d with currentElementSequence := none }.executeAction r e).1 r e
    ({ d with currentElementSequence := none }.executeAction r e).2
  unfold executeStage
  rw [hevents]
  refine List.mem_append_left _ ?_
  simp only [executeAction, hpush, executePush, htake, ← hanswer]
  cases p.answer with
  | ok signal =>
      exact List.mem_append_left _ (List.mem_append_right _ (List.mem_singleton_self _))
  | error | timeout => exact List.mem_append_right _ (List.mem_singleton_self _)

/-- The main loop goes on after a push that the sink has accepted. -/
theorem state_step_of_accepted (hrun : d.state = .running) (hchosen : d.chosen r = some e)
    {p : SinkPush} (hp : d.sinkPush r e = some p) {signal : BackpressureSignal}
    (hanswer : p.answer = .ok signal) : (d.step r).state = .running := by
  have hok : ((d.cancelBy r.cancelBefore).executeStage r e).2 = .ok () := by
    obtain ⟨inputStream, elemRef, d', hpush, htake, heq⟩ := takeInput_of_sinkPush
      (d := { d.cancelBy r.cancelBefore with currentElementSequence := none }) hp
    simp only [executeStage, executeAction, hpush, executePush, htake, ← heq, hanswer,
      Answer.toExcept]
  obtain ⟨-, hcontext, -⟩ := (((d.cancelBy r.cancelBefore).executeStage r e).1.cancelBy
    r.cancelDuring).afterStage_frame r
  have hstate : ((d.cancelBy r.cancelBefore).executeStage r e).1.state = .running :=
    (congrArg Context.state (context_executeStage _ r e)).trans hrun
  rw [step_of_ok hrun hchosen hok]
  exact (congrArg Context.state hcontext).trans hstate

/-- **The producer of a paused stream does not run.** -/
theorem PauseInv.honoursPause (ht : t.Valid) (h : PauseInv t w) (r : Round) :
    w.HonoursPause r := by
  intro e he si hsi hpaused
  obtain ⟨-, hready⟩ := ready_of_chosen he
  rw [h.inv.streamIndex] at hsi
  obtain ⟨v, stage, hstage, hsink, hinput, hheld⟩ := h.held si hpaused
  rcases hheld with ⟨sj, hsj, hpos⟩ | hdone
  · -- the sink comes before its producers
    obtain ⟨-, -, -, -, hlater⟩ :=
      nextReady_spec ht h.inv.topology h.inv.streamIndex h.inv.streams.wired hready r
    have hlink : Links t si e.stageIndex v := by
      obtain ⟨c, hc, hfrom⟩ := StreamIndex.mem_outputs.mp hsi
      obtain ⟨c', hc', hto⟩ := StreamIndex.mem_inputs.mp hinput
      obtain rfl := Option.some.inj (hc.symm.trans hc')
      exact ⟨c, hc, hfrom, hto⟩
    have hnone := hlater v stage hstage (hlink.rank_lt ht)
    rw [hsink] at hnone
    have hempty := (stageAction_eq_none_iff.mp hnone trivial).2 sj hsj
    rw [← Bool.not_eq_true, hasInputAt_eq_true_iff] at hempty
    exact hempty hpos
  · rw [not_complete_of_ready ht h.inv hready r hsi] at hdone
    cases hdone

/-- **After a push** the producers of the streams of the sink are held back, if it leaves none of
them paused when its elements are used up. -/
theorem heldBack_of_sinkPush (ht : t.Valid) (h : DriverInv t w.driver) (hends : w.PauseEnds r)
    (hlive : (w.driver.step r).state = .running ∨ (w.driver.step r).state = .draining)
    (he : w.driver.chosen r = some e) {p : SinkPush} (hp : w.driver.sinkPush r e = some p) {si : ℕ}
    (hin : si ∈ (StreamIndex.build t).inputs e.stageIndex)
    (hsignalled : si ∈ p.signalled (w.driver.streamIndex.inputs p.stageIndex) w.paused)
    (hkept : w.releases r si = false) : HeldBack t (w.driver.step r).streams si e.stageIndex := by
  obtain ⟨hstageIndex, htaken, haddressed, -, -⟩ := sinkPush_spec ht h (ready_of_chosen he).2 hp
  by_cases hlast : ∀ sj ∈ (StreamIndex.build t).inputs e.stageIndex,
      lenAt w.driver.streams sj ≤ if sj = p.streamIndex then 1 else 0
  · have hguard := hends e he p hp
    rw [hstageIndex, h.streamIndex] at hguard hsignalled
    rcases hguard hlast si hin hsignalled with hdone | ⟨hrun, hactive, hpause⟩
    · exact .inr ((step_read h r hlive (h.streams.wired.lt_of_mem_inputs hin)).1 hdone)
    · -- backpressure that has not been released has an element to wait for
      have hstill : activeAt (w.driver.step r).streams si = true := by
        simpa [Watched.releases, hactive] using hkept
      exact .inl ⟨si, hin, (h.step ht r hlive).active
        (state_step_of_accepted hrun he hp hpause) si hstill⟩
  · obtain ⟨sj, hsj, hmore⟩ : ∃ sj ∈ (StreamIndex.build t).inputs e.stageIndex,
        (if sj = p.streamIndex then 1 else 0) < lenAt w.driver.streams sj := by
      simpa using hlast
    obtain ⟨-, -, hlen⟩ := step_read h r hlive (h.streams.wired.lt_of_mem_inputs hsj)
    have hleft : lenAt (w.driver.step r).streams sj =
        lenAt w.driver.streams sj - if sj = p.streamIndex then 1 else 0 := by
      rw [hlen e he, haddressed, if_neg List.not_mem_nil, htaken]
      simp only [Option.some.injEq, eq_comm (a := p.streamIndex)]
    exact .inl ⟨sj, hsj, by omega⟩

/-- **Every round.** -/
theorem PauseInv.step (ht : t.Valid) (h : PauseInv t w) (hends : w.PauseEnds r)
    (hlive : (w.driver.step r).state = .running ∨ (w.driver.step r).state = .draining) :
    PauseInv t (w.step r) := by
  refine ⟨h.inv.step ht r hlive, fun si hsi => ?_⟩
  obtain ⟨hsignalled, hkept⟩ := List.mem_filter.mp hsi
  rw [Bool.not_eq_true'] at hkept
  have hold : si ∈ w.paused → (∀ v, si ∈ (StreamIndex.build t).inputs v →
      ∀ e p, w.driver.chosen r = some e → w.driver.sinkPush r e = some p → p.stageIndex ≠ v) →
      ∃ v stage, t.stages[v]? = some stage ∧ stage.role = .sink ∧
        si ∈ (StreamIndex.build t).inputs v ∧ HeldBack t (w.driver.step r).streams si v := by
    intro hpaused hnot
    obtain ⟨v, stage, hstage, hsink, hin, hheld⟩ := h.held si hpaused
    exact ⟨v, stage, hstage, hsink, hin,
      hheld.step ht h.inv hlive hstage hsink hin (hnot v hin)⟩
  unfold Watched.signalled at hsignalled
  split at hsignalled
  · rename_i p hp
    obtain ⟨e, he, hp⟩ := Option.bind_eq_some_iff.mp hp
    obtain ⟨hstageIndex, -, -, hinput, stage, hstage, hsink⟩ :=
      sinkPush_spec ht h.inv (ready_of_chosen he).2 hp
    by_cases hin : si ∈ (StreamIndex.build t).inputs e.stageIndex
    · exact ⟨_, stage, hstage, hsink, hin,
        heldBack_of_sinkPush ht h.inv hends hlive he hp hin hsignalled hkept⟩
    · refine hold (p.mem_of_mem_signalled hsignalled fun heq => hin (heq ▸ hinput)) ?_
      rintro v hin' e' p' he' hp' rfl
      obtain rfl := Option.some.inj (he.symm.trans he')
      obtain rfl := Option.some.inj (hp.symm.trans hp')
      rw [hstageIndex] at hin'
      exact hin hin'
  · rename_i hnone
    refine hold hsignalled fun v _ e p he hp => ?_
    rw [he, Option.bind_some, hp] at hnone
    cases hnone

end PauseInv

/-- **Paused sinks.**  In every run in which no sink runs out of elements while it has paused a
stream, except a stream whose producer is done or whose backpressure ends then, the producer of
a stream does not run between a pause of the stream and the next time the sink is ready or the
backpressure of the stream ends. -/
theorem pause_honoured_of_guarded (f : SpawnedFlow) (rounds : List Round)
    (h : Guarded Watched.step Watched.PauseEnds ⟨f.start, []⟩ rounds) :
    Guarded Watched.step Watched.HonoursPause ⟨f.start, []⟩ rounds := by
  have ht := f.valid
  have hinv := h.with_invariant
    (P := fun w => w.driver.state = .running ∨ w.driver.state = .draining →
      PauseInv f.config.topology w) ?_ fun _ => ⟨f.inv_start, by simp⟩
  · refine hinv.mono fun w r hw e he => ?_
    exact (hw.2 (ready_of_chosen he).1).honoursPause ht r e he
  · intro w r hends hw hlive
    refine (hw ?_).step ht hends hlive
    by_contra hnot
    obtain ⟨hrun, hdrain⟩ := not_or.mp hnot
    rw [show (w.step r).driver = w.driver from step_of_not_live hrun hdrain r] at hlive
    exact hnot hlive

/-! ## A pause that is ignored -/

/-- Components of which the sink asks for a pause after each element. -/
def pausing : Invoker := { forwarding 1 with push := fun _ _ => .ok .pause }

/-- A source and a sink with a stream of capacity one. -/
def pairSpawned : SpawnedFlow where
  toBuiltFlow := pairFlow
  validated := pairFlow_validated

/-- On a stream of capacity one each element ends a phase of backpressure. -/
theorem pause_honoured_of_guarded_pairSpawned :
    Guarded Watched.step Watched.HonoursPause ⟨pairSpawned.start, []⟩
      (List.replicate 3 (quietRound pausing)) :=
  pause_honoured_of_guarded pairSpawned _ (by decide)

/-- With room for a second element the source is pulled again although the sink has paused. -/
theorem pause_ignored :
    ¬∀ (f : SpawnedFlow) (rounds : List Round),
      Guarded Watched.step Watched.HonoursPause ⟨f.start, []⟩ rounds := by
  intro h
  exact absurd (h failFastFlow (List.replicate 3 (quietRound pausing))) (by decide)

end Torvyn.Reactor
