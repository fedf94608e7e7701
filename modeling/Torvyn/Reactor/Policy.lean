/-
# Backpressure policies

Every stream has a backpressure policy, and `push_with_policy` says what it means for an element
that finds the queue full.  The driver never calls it.  A stream that is full or under
backpressure makes its producer wait whatever its policy is, and an element that is emitted into
a full stream is dropped whatever the policy is.  `policies_followed_iff` says in which rounds
this makes no difference.
-/
import Torvyn.Data.GuardedRun
import Torvyn.Reactor.Loss
import Torvyn.Reactor.Provenance

namespace Torvyn.Reactor

/-! ## What the policies ask for -/

/-- The stream as it is when it has room and no backpressure. -/
def StreamState.relieved (s : StreamState) : StreamState :=
  { s.discardAll with demand := s.queue.capacity, backpressure := .normal }

/-- The streams when those of a stage's outputs that do not block their producer have room. -/
def relieveOutputs (streams : List StreamState) (outputs : List ℕ) : List StreamState :=
  streams.mapIdx fun si s =>
    if si ∈ outputs ∧ s.backpressurePolicy ≠ .blockProducer then s.relieved else s

namespace FlowDriver

/-- The elements of an answer in the form in which they are queued, with the streams that they
are addressed to. -/
def stampAll (input : StreamElementRef) : ℕ → List (OutputElement × ℕ) →
    List (ℕ × StreamElementRef)
  | _, [] => []
  | seq, (output, si) :: ts =>
      (si, stamp seq input.originSequence input.metadata.timestampNs output) ::
        stampAll input (seq + 1) ts

/-- What the execution of a stage emits, and into which streams. -/
def emitted (d : FlowDriver) (r : Round) (e : StageExecution) :
    List (ℕ × StreamElementRef) :=
  let outputs := d.streamIndex.outputs e.stageIndex
  match e.action with
  | .pullFromSource =>
      match r.invoker.pull e.componentId with
      | .ok (some element) => outputs.head?.toList.map fun si =>
          (si, stamp d.nextGlobalSequence d.nextGlobalSequence r.timestampNs element)
      | _ => []
  | .processElement inputStream =>
      match d.inputElement inputStream with
      | none => []
      | some elemRef =>
          match r.invoker.process e.componentId ⟨elemRef.metadata, elemRef.bufferHandle⟩ with
          | .ok result => stampAll elemRef d.nextGlobalSequence (targets result outputs)
          | _ => []
  | .pushToSink _ => []

end FlowDriver

/-- A stream handles an emitted element as its own policy says: `s` is the stream before the
round, `s'` the stream after it, and `result` how the execution of the producer has ended. -/
structure HandledByPolicy (s s' : StreamState) (elem : StreamElementRef)
    (result : Except FlowError Unit) : Prop where
  queue : s'.queue.contents = (s.queue.pushWithPolicy elem s.backpressurePolicy).2.contents
  raised : s.queue.isFull = true → s.backpressurePolicy = .error → ∃ err, result = .error err
  kept : s.backpressurePolicy = .blockProducer → s.queue.isFull = false

/-- The policies are followed in a round: no stage waits for room on a stream that does not block
its producer, and every emitted element is handled as the policy of its stream says. -/
structure FollowsPolicies (t : FlowTopology) (d : FlowDriver) (r : Round) : Prop where
  eligible : d.state = .running ∨ d.state = .draining → ∀ v stage, t.stages[v]? = some stage →
    stageAction d.streams d.streamIndex v stage.role = none →
      stageAction (relieveOutputs d.streams (d.streamIndex.outputs v)) d.streamIndex v
        stage.role = none
  handled : ∀ e, d.chosen r = some e → ∀ p ∈ d.emitted r e, ∀ s s',
    d.streams[p.1]? = some s → (d.step r).streams[p.1]? = some s' →
      HandledByPolicy s s' p.2 (d.executeStage r e).2

/-! ## When the policies make no difference -/

/-- Whether a stream makes its producer wait although its policy is another one. -/
def StreamState.holdsUp (s : StreamState) : Bool :=
  s.backpressurePolicy != .blockProducer && !s.producerComplete &&
    (s.queue.isFull || s.backpressure.isActive)

/-- `StreamState.holdsUp` of the stream of index `si`. -/
def holdsUpAt (streams : List StreamState) (si : ℕ) : Bool := streams[si]?.any StreamState.holdsUp

/-- The streams that hold the stage up against their policy decide nothing: a source or router
has another output with room, and a processor another output without. -/
def Indifferent (streams : List StreamState) (outputs : List ℕ) : ComponentRole → Prop
  | .sink | .filter => True
  | .processor => (∃ o ∈ outputs, holdsUpAt streams o = true) →
      ∃ o ∈ outputs, canProduceAt streams o = false ∧ holdsUpAt streams o = false
  | .source | .router => (∃ o ∈ outputs, holdsUpAt streams o = true) →
      ∃ o ∈ outputs, canProduceAt streams o = true

/-- The policies make no difference in a round: no stage with something to do is held up, and
elements are addressed to full streams only if these drop the newest element. -/
structure PoliciesIndifferent (t : FlowTopology) (d : FlowDriver) (r : Round) : Prop where
  outputs : d.state = .running ∨ d.state = .draining → ∀ v stage, t.stages[v]? = some stage →
    (stage.role = .source ∨ ∃ si ∈ (StreamIndex.build t).inputs v, 0 < lenAt d.streams si) →
      Indifferent d.streams ((StreamIndex.build t).outputs v) stage.role
  addressed : ∀ e, d.chosen r = some e → ∀ si ∈ d.addressed r e, ∀ s,
    d.streams[si]? = some s → s.queue.isFull = true → s.backpressurePolicy = .dropNewest

/-! ## Eligibility -/

section Eligibility

variable {t : FlowTopology} {streams : List StreamState} {outputs : List ℕ} {si : ℕ}

/-- Relief leaves the other streams as they are. -/
theorem hasInputAt_relieveOutputs (h : si ∉ outputs) :
    hasInputAt (relieveOutputs streams outputs) si = hasInputAt streams si := by
  unfold hasInputAt relieveOutputs
  rw [List.getElem?_mapIdx]
  cases streams[si]? with
  | none => rfl
  | some s =>
      simp only [Option.map_some, if_neg (not_and_of_not_left _ h)]

/-- A relieved output has room exactly if it had some, or was held up against its policy. -/
theorem canProduceAt_relieveOutputs (hcredit : ∀ s ∈ streams, s.Credit) (h : si ∈ outputs) :
    canProduceAt (relieveOutputs streams outputs) si =
      (canProduceAt streams si || holdsUpAt streams si) := by
  unfold canProduceAt holdsUpAt relieveOutputs
  rw [List.getElem?_mapIdx]
  cases hs : streams[si]? with
  | none => rfl
  | some s =>
      have hcredit := hcredit s (List.mem_of_getElem? hs)
      have hlaw := hcredit.law
      have hle := s.queue.len_le
      have hpos := s.queue.capacity_pos
      have hcan := StreamState.producerCanProduce_iff hcredit
      simp only [Option.map_some, Option.any_some]
      by_cases hpolicy : s.backpressurePolicy = .blockProducer
      · have hnot : ¬ (si ∈ outputs ∧ s.backpressurePolicy ≠ .blockProducer) := by simp [hpolicy]
        rw [if_neg hnot]
        simp [StreamState.holdsUp, hpolicy]
      · rw [if_pos ⟨h, hpolicy⟩, Bool.eq_iff_iff, Bool.or_eq_true, hcan]
        -- a relieved stream can take an element unless its producer is done
        have hrelieved : s.relieved.producerCanProduce = true ↔ s.producerComplete = false := by
          obtain ⟨-, hlen⟩ := s.queue.drainAll_spec
          have hroom : s.relieved.queue.isFull = false := by
            rw [← Bool.not_eq_true, BoundedQueue.isFull_iff]
            show ¬ s.queue.drainAll.2.len = s.queue.drainAll.2.capacity
            rw [hlen, BoundedQueue.capacity_drainAll]
            omega
          have hdemand : decide (s.relieved.demand > 0) = true := decide_eq_true hpos
          unfold StreamState.producerCanProduce
          rw [hroom, hdemand]
          simp [StreamState.relieved, StreamState.discardAll, BackpressureState.isActive]
        rw [hrelieved]
        cases hc : s.producerComplete <;> cases hf : s.queue.isFull <;>
          cases hb : s.backpressure.isActive <;> simp [StreamState.holdsUp, hpolicy, hc, hf, hb]

/-- No stage feeds itself. -/
theorem notMem_outputs_of_mem_inputs (ht : t.Valid) {v : ℕ}
    (h : si ∈ (StreamIndex.build t).inputs v) : si ∉ (StreamIndex.build t).outputs v := by
  intro hout
  obtain ⟨c, hc, hto⟩ := StreamIndex.mem_inputs.mp h
  obtain ⟨c', hc', hfrom⟩ := StreamIndex.mem_outputs.mp hout
  obtain rfl := Option.some.inj (hc.symm.trans hc')
  exact ht.noLoop c (List.mem_of_getElem? hc) (hfrom.trans hto.symm)

/-- A stream that holds its producer up takes nothing. -/
theorem not_canProduceAt_of_holdsUpAt (h : holdsUpAt streams si = true) :
    canProduceAt streams si = false := by
  unfold holdsUpAt at h
  unfold canProduceAt
  cases hs : streams[si]? with
  | none => rfl
  | some s =>
      rw [hs] at h
      simp only [Option.any_some, StreamState.holdsUp, Bool.and_eq_true, Bool.or_eq_true] at h
      rw [Option.any_some, StreamState.producerCanProduce]
      rcases h.2 with hfull | hactive
      · simp [hfull]
      · simp [hactive]

/-- Relief unblocks no stage exactly if the outputs make no difference to it. -/
theorem unblocked_relieved_iff {relieved : List StreamState}
    (h : ∀ o ∈ outputs, (canProduceAt relieved o = true ↔
      canProduceAt streams o = true ∨ holdsUpAt streams o = true)) (role : ComponentRole) :
    (Unblocked relieved outputs role → Unblocked streams outputs role) ↔
      Indifferent streams outputs role := by
  have hany : (∃ o ∈ outputs, canProduceAt relieved o = true) ↔
      (∃ o ∈ outputs, canProduceAt streams o = true) ∨
        ∃ o ∈ outputs, holdsUpAt streams o = true := by
    rw [← exists_or]
    exact exists_congr fun o => by rw [← and_or_left]; exact and_congr_right (h o)
  cases role with
  | sink | filter => exact iff_of_true id trivial
  | source | router =>
      show ((∃ o ∈ outputs, _) → ∃ o ∈ outputs, _) ↔ (_ → _)
      rw [hany, or_imp]
      exact and_iff_right id
  | processor =>
      show ((∀ o ∈ outputs, _) → ∀ o ∈ outputs, _) ↔ (_ → _)
      constructor
      · rintro hfree ⟨o, ho, hholds⟩
        by_contra hnone
        push Not at hnone
        have hcan := hfree (fun o' ho' => (h o' ho').mpr ?_) o ho
        · rw [not_canProduceAt_of_holdsUpAt hholds] at hcan
          cases hcan
        · cases hcan' : canProduceAt streams o' with
          | true => exact .inl rfl
          | false => exact .inr (by simpa using hnone o' ho' hcan')
      · intro hother hrelieved o ho
        refine ((h o ho).mp (hrelieved o ho)).resolve_right fun hholds => ?_
        obtain ⟨o', ho', hnot, hnot'⟩ := hother ⟨o, ho, hholds⟩
        rcases (h o' ho').mp (hrelieved o' ho') with hcan | hholds'
        · rw [hnot] at hcan
          cases hcan
        · rw [hnot'] at hholds'
          cases hholds'

/-- **A stage is eligible as the policies ask** exactly if its outputs make no difference or it
has nothing to do. -/
theorem eligible_iff (ht : t.Valid) (hcredit : ∀ s ∈ streams, s.Credit) (v : ℕ)
    (role : ComponentRole) :
    (stageAction streams (.build t) v role = none →
      stageAction (relieveOutputs streams ((StreamIndex.build t).outputs v)) (.build t) v
        role = none) ↔
      ((role = .source ∨ ∃ si ∈ (StreamIndex.build t).inputs v, 0 < lenAt streams si) →
        Indifferent streams ((StreamIndex.build t).outputs v) role) := by
  have hinputs : (∀ si ∈ (StreamIndex.build t).inputs v,
      hasInputAt (relieveOutputs streams ((StreamIndex.build t).outputs v)) si = false) ↔
        ∀ si ∈ (StreamIndex.build t).inputs v, hasInputAt streams si = false := by
    refine forall₂_congr fun si hsi => ?_
    rw [hasInputAt_relieveOutputs (notMem_outputs_of_mem_inputs ht hsi)]
  have houtputs : ∀ o ∈ (StreamIndex.build t).outputs v,
      (canProduceAt (relieveOutputs streams ((StreamIndex.build t).outputs v)) o = true ↔
        canProduceAt streams o = true ∨ holdsUpAt streams o = true) := by
    intro o ho
    rw [canProduceAt_relieveOutputs hcredit ho, Bool.or_eq_true]
  have hwork : (∃ si ∈ (StreamIndex.build t).inputs v, 0 < lenAt streams si) ↔
      ¬ ∀ si ∈ (StreamIndex.build t).inputs v, hasInputAt streams si = false := by
    simp only [not_forall, exists_prop, Bool.not_eq_false, hasInputAt_eq_true_iff]
  have hindifferent := unblocked_relieved_iff houtputs role
  rw [stageAction_eq_none_iff, stageAction_eq_none_iff, hinputs, hwork]
  by_cases hidle : role ≠ .source ∧ ∀ si ∈ (StreamIndex.build t).inputs v,
      hasInputAt streams si = false
  · -- a stage with nothing to do runs neither with room nor without
    constructor
    · rintro - (hsource | hwork)
      · exact absurd hsource hidle.1
      · exact absurd hidle.2 hwork
    · exact fun _ _ _ => hidle
  · have hbusy : role = .source ∨ ¬ ∀ si ∈ (StreamIndex.build t).inputs v,
        hasInputAt streams si = false := by
      rwa [not_and_or, not_not] at hidle
    rw [forall_prop_of_true hbusy, ← hindifferent]
    constructor
    · intro h hrelieved
      by_contra hblocked
      exact hidle (h (fun hfree => absurd hfree hblocked) hrelieved)
    · exact fun h hblocked hrelieved => hblocked (h hrelieved)

end Eligibility

/-! ## Emissions -/

namespace FlowDriver

/-- Every element of an answer goes where the answer is addressed to, with a fresh number. -/
theorem map_fst_stampAll (input : StreamElementRef) (seq : ℕ) (ts : List (OutputElement × ℕ)) :
    (stampAll input seq ts).map Prod.fst = ts.map Prod.snd := by
  induction ts generalizing seq with
  | nil => rfl
  | cons t ts ih => exact congrArg (t.2 :: ·) (ih (seq + 1))

theorem le_sequence_of_mem_stampAll {input : StreamElementRef} {seq : ℕ}
    {ts : List (OutputElement × ℕ)} {p : ℕ × StreamElementRef} (h : p ∈ stampAll input seq ts) :
    seq ≤ p.2.sequence := by
  induction ts generalizing seq with
  | nil => cases h
  | cons t ts ih =>
      rcases List.mem_cons.mp h with rfl | h
      · exact le_rfl
      · exact (Nat.le_succ seq).trans (ih h)

/-- What is emitted is what is addressed. -/
theorem map_fst_emitted (d : FlowDriver) (r : Round) (e : StageExecution) :
    (d.emitted r e).map Prod.fst = d.addressed r e := by
  obtain ⟨componentId, stageIdx, action⟩ := e
  unfold emitted addressed
  cases action with
  | pullFromSource =>
      simp only
      cases hanswer : r.invoker.pull componentId with
      | error | timeout => rfl
      | ok output =>
          cases output with
          | none => rfl
          | some element =>
              simp only [List.map_map]
              exact List.map_id _
  | processElement id =>
      simp only
      cases helem : d.inputElement id with
      | none => rfl
      | some elem =>
          simp only
          cases hanswer : r.invoker.process componentId ⟨elem.metadata, elem.bufferHandle⟩ with
          | error | timeout => rfl
          | ok result => exact map_fst_stampAll elem _ _
  | pushToSink id => rfl

/-- The stream that an element is addressed to is offered this element and no other. -/
theorem getElem?_pushAll_of_mem {input : StreamElementRef} {ts : List (OutputElement × ℕ)}
    {d : FlowDriver} (hnodup : (ts.map Prod.snd).Nodup) {p : ℕ × StreamElementRef}
    (hp : p ∈ stampAll input d.nextGlobalSequence ts) {s : StreamState}
    (hs : d.streams[p.1]? = some s) :
    (d.pushAll input ts).streams[p.1]? = some (s.emit p.2).2.recordEnqueue := by
  induction ts generalizing d with
  | nil => cases hp
  | cons t ts ih =>
      obtain ⟨hnot, hnodup⟩ := List.nodup_cons.mp hnodup
      have hsequence : (d.pushOutput input t.1 t.2).nextGlobalSequence =
          d.nextGlobalSequence + 1 := by
        unfold pushOutput
        cases hs : d.streams[t.2]? with
        | none => simp only [hs]
        | some s =>
            simp only [hs]
            rfl
      show ((d.pushOutput input t.1 t.2).pushAll input ts).streams[p.1]? = _
      rcases List.mem_cons.mp hp with rfl | hp
      · rw [getElem?_pushAll_of_notMem ts _ hnot, pushOutput_eq input t.1 hs]
        exact List.getElem?_set_self (List.getElem?_eq_some_iff.mp hs).1
      · -- the first push goes to another stream
        have hmem : p.1 ∈ ts.map Prod.snd := by
          rw [← map_fst_stampAll input (d.nextGlobalSequence + 1)]
          exact List.mem_map_of_mem hp
        have hother : p.1 ∉ [t].map Prod.snd := by
          intro h
          rw [List.mem_singleton.mp h] at hmem
          exact hnot hmem
        apply ih hnodup
        · rw [hsequence]
          exact hp
        · exact (getElem?_pushAll_of_notMem [t] d hother).trans hs

/-- **An emitted element is pushed onto its stream**, and the execution ends well. -/
theorem executeStage_emitted {d : FlowDriver} {r : Round} {e : StageExecution}
    (hnodup : (d.streamIndex.outputs e.stageIndex).Nodup) {p : ℕ × StreamElementRef}
    (hp : p ∈ d.emitted r e) (htaken : d.takenFrom e ≠ some p.1) {s : StreamState}
    (hs : d.streams[p.1]? = some s) :
    d.nextGlobalSequence ≤ p.2.sequence ∧ (d.executeStage r e).2 = .ok () ∧
      ∃ s', (d.executeStage r e).1.streams[p.1]? = some s' ∧ s'.queue = (s.queue.push p.2).2 := by
  have hlt := (List.getElem?_eq_some_iff.mp hs).1
  suffices haction : d.nextGlobalSequence ≤ p.2.sequence ∧
      ({ d with currentElementSequence := none }.executeAction r e).2 = .ok () ∧
      ∃ s', ({ d with currentElementSequence := none }.executeAction r e).1.streams[p.1]? = some s' ∧
        s'.queue = (s.queue.push p.2).2 by
    obtain ⟨hsequence, hresult, hstream⟩ := haction
    refine ⟨hsequence, hresult, ?_⟩
    rw [executeStage, (recordExecution_frame _ r e _).1]
    exact hstream
  obtain ⟨componentId, stageIdx, action⟩ := e
  cases action with
  | pullFromSource =>
      show _ ∧ (executePull _ r stageIdx componentId).2 = _ ∧
        ∃ s', (executePull _ r stageIdx componentId).1.streams[p.1]? = _ ∧ _
      unfold emitted at hp
      simp only at hp
      cases hanswer : r.invoker.pull componentId with
      | error | timeout =>
          rw [hanswer] at hp
          cases hp
      | ok output =>
          rw [hanswer] at hp
          cases output with
          | none => cases hp
          | some element =>
              obtain ⟨si, hsi, rfl⟩ := List.mem_map.mp hp
              have hhead := Option.mem_toList.mp hsi
              let asked := ({ d with currentElementSequence := none } : FlowDriver).log
                (.invoked componentId (.pull (.ok (some element))))
              have hexecuted : executePull { d with currentElementSequence := none } r stageIdx
                  componentId = (asked.pushPulled r element si, .ok ()) := by
                simp only [executePull, hanswer, Answer.toExcept, log]
                rw [hhead]
                rfl
              have hs : asked.streams[si]? = some s := hs
              rw [hexecuted]
              refine ⟨le_rfl, rfl, ?_⟩
              simp only [pushPulled_eq r element hs]
              refine ⟨_, List.getElem?_set_self hlt, ?_⟩
              split <;> rfl
  | processElement id =>
      show _ ∧ (executeProcess _ r stageIdx componentId id).2 = _ ∧
        ∃ s', (executeProcess _ r stageIdx componentId id).1.streams[p.1]? = _ ∧ _
      unfold emitted at hp
      simp only at hp
      rcases ({ d with currentElementSequence := none } : FlowDriver).takeInput_cases id with
        ⟨-, hnone, -⟩ | ⟨si, s₀, elem, hs₀, hpos, helem, hfrom, htake⟩
      · have hnone : d.inputElement id = none := hnone
        rw [hnone] at hp
        cases hp
      · have helem : d.inputElement id = some elem := helem
        rw [helem] at hp
        simp only at hp
        have hne : si ≠ p.1 := fun h => htaken (h ▸ hfrom)
        cases hanswer : r.invoker.process componentId ⟨elem.metadata, elem.bufferHandle⟩ with
        | error | timeout =>
            rw [hanswer] at hp
            cases hp
        | ok result =>
            rw [hanswer] at hp
            let asked := (({ d with currentElementSequence := none } : FlowDriver).taking si s₀
              elem).log (.invoked componentId (.process ⟨elem.metadata, elem.bufferHandle⟩ (.ok result)))
            have hexecuted : executeProcess { d with currentElementSequence := none } r stageIdx
                componentId id =
                  (asked.pushAll elem (targets result (d.streamIndex.outputs stageIdx)), .ok ()) := by
              simp only [executeProcess, htake, hanswer, Answer.toExcept]
              rfl
            have hs : asked.streams[p.1]? = some s := (List.getElem?_set_ne hne).trans hs
            rw [hexecuted]
            exact ⟨le_sequence_of_mem_stampAll hp, rfl, _, getElem?_pushAll_of_mem (d := asked)
              ((targets_sublist _ _).nodup hnodup) hp hs, rfl⟩
  | pushToSink id => cases hp

end FlowDriver

/-- **An emitted element is handled as its policy says** exactly if the stream has room or drops
the newest element. -/
theorem handled_iff {t : FlowTopology} (ht : t.Valid) {d : FlowDriver} (h : DriverInv t d)
    (htraced : d.Traced) {r : Round} {e : StageExecution} (hchosen : d.chosen r = some e)
    {p : ℕ × StreamElementRef} (hp : p ∈ d.emitted r e) {s s' : StreamState}
    (hs : d.streams[p.1]? = some s) (hs' : (d.step r).streams[p.1]? = some s') :
    HandledByPolicy s s' p.2 (d.executeStage r e).2 ↔
      (s.queue.isFull = true → s.backpressurePolicy = .dropNewest) := by
  obtain ⟨-, hready⟩ := FlowDriver.ready_of_chosen hchosen
  have haddressed : p.1 ∈ d.addressed r e := by
    rw [← d.map_fst_emitted]
    exact List.mem_map_of_mem hp
  have htaken := taken_ne_of_addressed ht h hready haddressed
  have hnodup : ∀ v, (d.streamIndex.outputs v).Nodup := by
    intro v
    rw [h.streamIndex]
    exact StreamIndex.outputs_nodup
  have hresult : (d.executeStage r e).2 = .ok () :=
    (FlowDriver.executeStage_emitted (hnodup _) hp htaken hs).2.1
  have hqueue : d.nextGlobalSequence ≤ p.2.sequence ∧ s'.queue = (s.queue.push p.2).2 := by
    obtain ⟨c, hquiet⟩ := FlowDriver.quiet_step_of_chosen hchosen
    obtain ⟨hsequence, -, s₁, hs₁, hqueue⟩ :=
      @FlowDriver.executeStage_emitted (d.withCancellation c) r e (hnodup _) p hp htaken s hs
    obtain ⟨s₂, hs₂, -, hqueue₂, -⟩ := hquiet.stream p.1 s₁ hs₁
    obtain rfl := Option.some.inj (hs'.symm.trans hs₂)
    exact ⟨hsequence, hqueue₂.trans hqueue⟩
  -- the new element is not in the queue yet
  have hfresh : p.2 ∉ s.queue.contents := by
    intro hmem
    have hqueued := htraced.queued s (List.mem_of_getElem? hs) p.2 hmem
    have hbelow := htraced.log.below p.2 ((enqueued_sublist s.id d.events).subset hqueued)
    have hsequence := hqueue.1
    omega
  have hcontents : s'.queue.contents =
      if s.queue.isFull then s.queue.contents else s.queue.contents ++ [p.2] := by
    rw [hqueue.2, BoundedQueue.contents_push]
  cases hfull : s.queue.isFull with
  | false =>
      refine iff_of_true ⟨?_, ?_, ?_⟩ (by simp)
      · rw [hcontents, BoundedQueue.contents_pushWithPolicy, hfull, if_pos rfl]
        rfl
      · intro htrue
        rw [hfull] at htrue
        cases htrue
      · exact fun _ => hfull
  | true =>
      rw [hfull, if_pos rfl] at hcontents
      rw [forall_prop_of_true rfl]
      constructor
      · rintro ⟨hpolicy, hraised, hkept⟩
        cases hcase : s.backpressurePolicy with
        | blockProducer =>
            rw [hkept hcase] at hfull
            cases hfull
        | dropOldest =>
            rw [hcontents, BoundedQueue.contents_pushWithPolicy, hfull, hcase, if_neg (by simp),
              if_pos rfl] at hpolicy
            refine absurd ?_ hfresh
            rw [hpolicy]
            exact List.mem_append_right _ (List.mem_singleton_self _)
        | dropNewest => rfl
        | error =>
            obtain ⟨err, herr⟩ := hraised hfull hcase
            cases hresult.symm.trans herr
      · intro hcase
        refine ⟨?_, ?_, ?_⟩
        · rw [hcontents, BoundedQueue.contents_pushWithPolicy, hfull, hcase, if_neg (by simp),
            if_neg (by simp)]
        · intro _ herror
          cases hcase.symm.trans herror
        · intro hblock
          cases hcase.symm.trans hblock

/-! ## Runs -/

/-- **One round.** -/
theorem followsPolicies_iff {t : FlowTopology} (ht : t.Valid) {d : FlowDriver}
    (h : d.state = .running ∨ d.state = .draining → DriverInv t d) (htraced : d.Traced)
    (r : Round) : FollowsPolicies t d r ↔ PoliciesIndifferent t d r := by
  have heligible : (d.state = .running ∨ d.state = .draining → ∀ v stage,
      t.stages[v]? = some stage → stageAction d.streams d.streamIndex v stage.role = none →
        stageAction (relieveOutputs d.streams (d.streamIndex.outputs v)) d.streamIndex v
          stage.role = none) ↔
      (d.state = .running ∨ d.state = .draining → ∀ v stage, t.stages[v]? = some stage →
        (stage.role = .source ∨ ∃ si ∈ (StreamIndex.build t).inputs v, 0 < lenAt d.streams si) →
          Indifferent d.streams ((StreamIndex.build t).outputs v) stage.role) := by
    refine forall_congr' fun hlive => ?_
    rw [(h hlive).streamIndex]
    exact forall₃_congr fun v stage _ => eligible_iff ht (h hlive).streams.credit v stage.role
  have hhandled : (∀ e, d.chosen r = some e → ∀ p ∈ d.emitted r e, ∀ s s',
      d.streams[p.1]? = some s → (d.step r).streams[p.1]? = some s' →
        HandledByPolicy s s' p.2 (d.executeStage r e).2) ↔
      ∀ e, d.chosen r = some e → ∀ si ∈ d.addressed r e, ∀ s, d.streams[si]? = some s →
        s.queue.isFull = true → s.backpressurePolicy = .dropNewest := by
    refine forall₂_congr fun e hchosen => ?_
    have hinv := h (FlowDriver.ready_of_chosen hchosen).1
    rw [← d.map_fst_emitted, List.forall_mem_map]
    refine forall₂_congr fun p hp => forall_congr' fun s => ?_
    constructor
    · intro hpolicy hs
      have hlt := (List.getElem?_eq_some_iff.mp hs).1
      rw [← d.length_step r] at hlt
      have hs' := List.getElem?_eq_getElem hlt
      exact (handled_iff ht hinv htraced hchosen hp hs hs').mp (hpolicy _ hs hs')
    · intro hpolicy s' hs hs'
      exact (handled_iff ht hinv htraced hchosen hp hs hs').mpr (hpolicy hs)
  constructor
  · exact fun hfollows => ⟨heligible.mp hfollows.eligible, hhandled.mp hfollows.handled⟩
  · exact fun hindifferent =>
      ⟨heligible.mpr hindifferent.outputs, hhandled.mpr hindifferent.addressed⟩

/-- **Policy fidelity**: in every run the backpressure policies are followed throughout if and
only if they make no difference in any of its rounds. -/
theorem policies_followed_iff (f : SpawnedFlow) (rounds : List Round) :
    Guarded FlowDriver.step (FollowsPolicies f.config.topology) f.start rounds ↔
      Guarded FlowDriver.step (PoliciesIndifferent f.config.topology) f.start rounds := by
  have hinv : Guarded FlowDriver.step (fun d _ =>
      (d.state = .running ∨ d.state = .draining → DriverInv f.config.topology d) ∧ d.Traced)
      f.start rounds :=
    .of_forall (fun before => ⟨f.inv_run before, f.traced_start.run before⟩) rounds
  exact hinv.congr fun d r hd => followsPolicies_iff f.valid hd.1 hd.2 r

/-! ## A small flow -/

/-- The flow of `lossyFlow` with another backpressure policy on all of its streams. -/
def lossyUnder (policy : BackpressurePolicy) : SpawnedFlow where
  flowId := ⟨0⟩
  config := { lossyConfig with defaultBackpressurePolicy := policy }
  streams := (spawnStreams ⟨0⟩ { lossyConfig with defaultBackpressurePolicy := policy }).get
    (by cases policy <;> decide)
  startedAt := 0
  wallClock := 0
  built := (Option.some_get _).symm
  validated := by cases policy <;> decide

/-- The source has filled its only output. -/
def filled (policy : BackpressurePolicy) : FlowDriver := (lossyUnder policy).run (lossyRounds.take 1)

/-- A filter is about to emit an element into a full stream. -/
def overflowing (policy : BackpressurePolicy) : FlowDriver :=
  (lossyUnder policy).run (lossyRounds.take 7)

/-- The source waits although its output is not meant to block it. -/
theorem not_followsPolicies_filled {policy : BackpressurePolicy} (h : policy ≠ .blockProducer) :
    ¬ FollowsPolicies lossyConfig.topology (filled policy) (quietRound (forwarding 3)) := by
  intro hfollows
  have hlive : (filled policy).state = .running := by cases policy <;> decide
  have hwaits : stageAction (filled policy).streams (filled policy).streamIndex 0 .source = none := by
    cases policy <;> decide
  have hnone := hfollows.eligible (.inl hlive) 0 ⟨⟨0⟩, .source⟩ rfl hwaits
  have hsome : stageAction (relieveOutputs (filled policy).streams
      ((filled policy).streamIndex.outputs 0)) (filled policy).streamIndex 0 .source =
        some .pullFromSource := by
    cases policy with
    | blockProducer => exact absurd rfl h
    | _ => decide
  cases hnone.symm.trans hsome

/-- The element is lost although its stream neither has room nor drops the newest element. -/
theorem not_followsPolicies_overflowing {policy : BackpressurePolicy} (h : policy ≠ .dropNewest) :
    ¬ FollowsPolicies lossyConfig.topology (overflowing policy) (quietRound (forwarding 3)) := by
  intro hfollows
  have hinv := (lossyUnder policy).inv_run (lossyRounds.take 7)
  have htraced := (lossyUnder policy).traced_start.run (lossyRounds.take 7)
  have hindifferent := (followsPolicies_iff (lossyUnder policy).valid hinv htraced _).mp hfollows
  have hchosen : (overflowing policy).chosen (quietRound (forwarding 3)) =
      some ⟨⟨3⟩, 3, .processElement ⟨4⟩⟩ := by cases policy <;> decide
  have haddressed : 5 ∈ (overflowing policy).addressed (quietRound (forwarding 3))
      ⟨⟨3⟩, 3, .processElement ⟨4⟩⟩ := by cases policy <;> decide
  have hstream : ((overflowing policy).streams[5]?.map fun s =>
      (s.queue.isFull, s.backpressurePolicy)) = some (true, policy) := by
    cases policy <;> decide
  obtain ⟨s, hs, hsame⟩ := Option.map_eq_some_iff.mp hstream
  obtain ⟨hfull, hpolicy⟩ := Prod.mk.inj hsame
  exact h (hpolicy.symm.trans (hindifferent.addressed _ hchosen 5 haddressed s hs hfull))

/-- A full stream makes its producer wait under each of the policies that do not block it, and an
element that is emitted into a full stream is lost under `DropOldest`, without an error under
`Error`, and even under `BlockProducer`. -/
theorem policies_ignored :
    ¬ FollowsPolicies lossyConfig.topology (filled .dropOldest) (quietRound (forwarding 3)) ∧
      ¬ FollowsPolicies lossyConfig.topology (filled .dropNewest) (quietRound (forwarding 3)) ∧
      ¬ FollowsPolicies lossyConfig.topology (filled .error) (quietRound (forwarding 3)) ∧
      ¬ FollowsPolicies lossyConfig.topology (overflowing .dropOldest) (quietRound (forwarding 3)) ∧
      ¬ FollowsPolicies lossyConfig.topology (overflowing .error) (quietRound (forwarding 3)) ∧
      ¬ FollowsPolicies lossyConfig.topology (overflowing .blockProducer)
        (quietRound (forwarding 3)) :=
  ⟨not_followsPolicies_filled (by decide), not_followsPolicies_filled (by decide),
    not_followsPolicies_filled (by decide), not_followsPolicies_overflowing (by decide),
    not_followsPolicies_overflowing (by decide), not_followsPolicies_overflowing (by decide)⟩

end Torvyn.Reactor
