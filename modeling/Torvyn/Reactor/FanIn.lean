/-
# Several inputs

The scheduler looks at the stages and at the input streams of a stage in a fixed order, and
keeps no record of what it has served.  `served_in_scan_order` says what comes of it: of two
sources that can both produce, the later one in the order is served and the other never, and of
two input streams that both hold elements the first one is served, at most as often as it holds
elements, since nothing comes to a stage that could run.
-/
import Torvyn.Data.GuardedRun
import Torvyn.Reactor.Buffering
import Torvyn.Reactor.Fatal

namespace Torvyn.Reactor

open FlowDriver Torvyn.Graph

/-! ## Sources -/

/-- The stage is a source. -/
def IsSource (t : FlowTopology) (u : ℕ) : Prop :=
  ∃ stage, t.stages[u]? = some stage ∧ stage.role = .source

/-- Some output stream of the stage can take an element. -/
def FlowDriver.CanAccept (d : FlowDriver) (u : ℕ) : Prop :=
  ∃ o ∈ d.streamIndex.outputs u, canProduceAt d.streams o = true

/-- The stage is served in this round. -/
def FlowDriver.serves (u : ℕ) (d : FlowDriver) (r : Round) : Bool :=
  (d.chosen r).any (·.stageIndex = u)

/-- An element of the stream is served in this round. -/
def FlowDriver.servesStream (si : ℕ) (d : FlowDriver) (r : Round) : Bool :=
  (d.chosen r).any fun e => d.takenFrom e = some si

section Order

variable {t : FlowTopology} {d : FlowDriver} {r : Round} {e : StageExecution}

/-- **A source is not served while a later one can produce.** -/
theorem not_serves_of_later (ht : t.Valid) (h : DriverInv t d) {u u' : ℕ} (hsource : IsSource t u')
    (hrank : t.rank u < t.rank u') (haccept : d.CanAccept u') : d.serves u r = false := by
  rw [serves, Option.any_eq_false]
  intro e he
  rw [decide_eq_false_iff_not]
  rintro rfl
  obtain ⟨stage', hstage', hrole⟩ := hsource
  obtain ⟨-, -, -, -, hlater⟩ := nextReady_spec ht h.topology h.streamIndex h.streams.wired
    (ready_of_chosen he).2 r
  have hnone := hlater u' stage' hstage' hrank
  rw [hrole] at hnone
  have hun : Unblocked d.streams ((StreamIndex.build t).outputs u') .source := by
    rw [← h.streamIndex]
    exact haccept
  exact (stageAction_eq_none_iff.mp hnone hun).1 rfl

/-- The input streams of a stage are looked at in the order of the connections. -/
theorem StreamIndex.inputs_sorted {v : ℕ} :
    ((StreamIndex.build t).inputs v).Pairwise (· < ·) := by
  simp only [StreamIndex.build, bucket_apply]
  have hsub : ((t.connections.zipIdx.filter fun p => p.1.toStage = v).map (·.2)).Sublist
      (t.connections.zipIdx.map (·.2)) := List.filter_sublist.map _
  refine List.Pairwise.sublist hsub ?_
  rw [List.zipIdx_map_snd]
  exact List.pairwise_lt_range'

/-- The stream that the scheduler takes from is the first one that holds an element. -/
theorem le_of_firstInput {streams : List StreamState} {inputs : List ℕ} {si sj : ℕ}
    (hid : ∀ (si : ℕ) (s : StreamState), streams[si]? = some s → s.id = ⟨si⟩)
    (hsorted : inputs.Pairwise (· < ·)) (h : firstInput streams inputs = some ⟨si⟩)
    (hsj : sj ∈ inputs) (hin : hasInputAt streams sj = true) : si ≤ sj := by
  obtain ⟨sk, hfind, hmap⟩ := Option.bind_eq_some_iff.mp h
  obtain ⟨s, hs, hsk⟩ := Option.map_eq_some_iff.mp hmap
  obtain rfl : sk = si := StreamId.mk.inj ((hid sk s hs).symm.trans hsk)
  obtain ⟨-, as, bs, rfl, has⟩ := List.find?_eq_some_iff_append.mp hfind
  rcases List.mem_append.mp hsj with hsj | hsj
  · have := has sj hsj
    simp [hin] at this
  · rcases List.mem_cons.mp hsj with rfl | hsj
    · exact le_rfl
    · exact (List.rel_of_pairwise_cons (List.pairwise_append.mp hsorted).2.1 hsj).le

/-- A stage that can run and is no source takes from its first input. -/
theorem firstInput_of_stageAction {streams : List StreamState} {index : StreamIndex} {v : ℕ}
    {role : ComponentRole} {action : StageAction}
    (h : stageAction streams index v role = some action) : action = .pullFromSource ∨
      ∃ id, firstInput streams (index.inputs v) = some id ∧
        (action = .pushToSink id ∨ action = .processElement id) := by
  have hmap : ∀ {f : StreamId → StageAction},
      (∀ id, f id = .pushToSink id ∨ f id = .processElement id) →
      (firstInput streams (index.inputs v)).map f = some action →
      ∃ id, firstInput streams (index.inputs v) = some id ∧
        (action = .pushToSink id ∨ action = .processElement id) := by
    intro f hf hsome
    obtain ⟨id, hid, rfl⟩ := Option.map_eq_some_iff.mp hsome
    exact ⟨id, hid, hf id⟩
  unfold stageAction at h
  cases role with
  | source =>
      simp only at h
      split at h
      · exact .inl (Option.some.inj h).symm
      · cases h
  | sink => exact .inr (hmap (fun _ => .inl rfl) h)
  | processor | filter | router =>
      simp only at h
      split at h
      · exact .inr (hmap (fun _ => .inr rfl) h)
      · cases h

/-- **A stream is not served while an earlier input stream of its stage holds an element.** -/
theorem le_of_takenFrom (ht : t.Valid) (h : DriverInv t d) (he : d.nextReady = some e) {si sj : ℕ}
    (htaken : d.takenFrom e = some si) (hsj : sj ∈ (StreamIndex.build t).inputs e.stageIndex)
    (hpos : 0 < lenAt d.streams sj) : si ≤ sj := by
  obtain ⟨stage, -, haction⟩ := h.stageAction_of_ready ht he
  rcases firstInput_of_stageAction haction with hpull | ⟨id, hfirst, hkind⟩
  · simp only [takenFrom, hpull] at htaken
    cases htaken
  · obtain ⟨sk, -, hin, rfl⟩ := firstInput_eq_some h.streams.wired.id_eq hfirst
    have hfrom := findIdx?_of_hasInputAt h.streams.wired hin
    obtain rfl : sk = si := by
      rcases hkind with hkind | hkind
      · simp only [takenFrom, hkind, hfrom] at htaken
        exact Option.some.inj htaken
      · simp only [takenFrom, hkind, hfrom] at htaken
        exact Option.some.inj htaken
    exact le_of_firstInput h.streams.wired.id_eq StreamIndex.inputs_sorted hfirst hsj
      (hasInputAt_eq_true_iff.mpr hpos)

end Order

/-! ## Clogged stages -/

/-- The stream has no room for an element, or is not to be given one. -/
def Blocked (streams : List StreamState) (si : ℕ) : Prop :=
  lenAt streams si = capacityAt streams si ∨ activeAt streams si = true

/-- A stage that can never run again, because what it produces would end in front of a router
without outputs. -/
inductive Clogged (t : FlowTopology) (streams : List StreamState) : ℕ → Prop
  | processor {w o w' : ℕ} {stage : StageDefinition} : t.stages[w]? = some stage →
      stage.role = .processor → Links t o w w' → Blocked streams o → Clogged t streams w' →
      Clogged t streams w
  | router {w : ℕ} {stage : StageDefinition} : t.stages[w]? = some stage → stage.role = .router →
      (∀ o w', Links t o w w' → Blocked streams o) →
      (∀ o w', Links t o w w' → Clogged t streams w') → Clogged t streams w

section Clogged

variable {t : FlowTopology} {d : FlowDriver} {r : Round} {w : ℕ}

theorem Blocked.canProduceAt_eq (h : StreamsInv t d.streams) {o : ℕ} (ho : o < d.streams.length)
    (hblocked : Blocked d.streams o) : canProduceAt d.streams o = false := by
  rw [← Bool.not_eq_true, canProduceAt_iff h.credit ho]
  rintro ⟨-, hlt, hinactive⟩
  rcases hblocked with hfull | hactive
  · omega
  · rw [hactive] at hinactive
    cases hinactive

/-- A clogged stage cannot run. -/
theorem Clogged.stageIndex_ne (ht : t.Valid) (h : DriverInv t d) (hclogged : Clogged t d.streams w)
    {e : StageExecution} (he : d.nextReady = some e) (r : Round) : e.stageIndex ≠ w := by
  obtain ⟨stage', hstage', -, hx, -⟩ :=
    nextReady_spec ht h.topology h.streamIndex h.streams.wired he r
  rintro rfl
  have hun := hx.unblocked
  cases hclogged with
  | processor hstage hrole hlink hblocked =>
      obtain rfl := Option.some.inj (hstage.symm.trans hstage')
      rw [hrole] at hun
      have hcan := hun _ hlink.mem_outputs
      rw [hblocked.canProduceAt_eq h.streams (lt_of_links h hlink)] at hcan
      cases hcan
  | router hstage hrole hblocked =>
      obtain rfl := Option.some.inj (hstage.symm.trans hstage')
      rw [hrole] at hun
      obtain ⟨o, ho, hcan⟩ := hun
      obtain ⟨w', hlink⟩ := links_of_mem_outputs ho
      rw [(hblocked o w' hlink).canProduceAt_eq h.streams (lt_of_links h hlink)] at hcan
      cases hcan

/-- A stream between two stages that do not run stays blocked. -/
theorem Blocked.step (ht : t.Valid) (h : DriverInv t d) (hfirm : d.Firm) {o u : ℕ}
    (hlink : Links t o u w) (hblocked : Blocked d.streams o)
    (hlive : (d.step r).state = .running ∨ (d.step r).state = .draining)
    (hproducer : ∀ e, d.chosen r = some e → e.stageIndex ≠ u)
    (hconsumer : ∀ e, d.chosen r = some e → e.stageIndex ≠ w) :
    Blocked (d.step r).streams o := by
  have hlt : o < d.streams.length := lt_of_links h hlink
  have hlen : lenAt (d.step r).streams o = lenAt d.streams o := by
    obtain ⟨-, hnone, hsome⟩ := step_read h r hlive hlt
    cases hchosen : d.chosen r with
    | none => exact hnone hchosen
    | some e =>
        obtain ⟨_, -, -, hx, -⟩ := nextReady_spec ht h.topology h.streamIndex h.streams.wired
          (ready_of_chosen hchosen).2 r
        have hnot : o ∉ d.addressed r e := fun ho => hproducer e hchosen
          (StreamIndex.outputs_inj (hx.pushed.subset ho) hlink.mem_outputs)
        have htaken : d.takenFrom e ≠ some o := by
          intro htaken
          rcases hx.taken with ⟨-, hnone, -⟩ | ⟨-, -, i, hi, -, hsome⟩
          · cases hnone.symm.trans htaken
          · obtain rfl := Option.some.inj (hsome.symm.trans htaken)
            exact hconsumer e hchosen (StreamIndex.inputs_inj hi hlink.mem_inputs)
        rw [hsome e hchosen, if_neg hnot, if_neg htaken, Nat.sub_zero]
  unfold Blocked
  rw [hlen, d.capacityAt_step r o]
  by_cases hfull : lenAt d.streams o = capacityAt d.streams o
  · exact .inl hfull
  · right
    have hactive := hblocked.resolve_left hfull
    have hlt' : o < (d.step r).streams.length := d.length_step r ▸ hlt
    have hs := List.getElem?_eq_getElem hlt
    have hs' := List.getElem?_eq_getElem hlt'
    rw [lenAt_eq hs, capacityAt_eq hs] at hfull
    rw [lenAt_eq hs, lenAt_eq hs'] at hlen
    rw [activeAt_eq hs] at hactive
    rw [activeAt_eq hs']
    have habove := (hfirm o _ hs hactive).resolve_left hfull
    by_contra hinactive
    have hlow := (d.changed_step r hs hs').2 hactive (by simpa using hinactive)
    rw [d.lowWatermarkDepth_step r hs hs', hlen] at hlow
    omega

theorem Clogged.step (ht : t.Valid) (h : DriverInv t d) (hfirm : d.Firm)
    (hclogged : Clogged t d.streams w)
    (hlive : (d.step r).state = .running ∨ (d.step r).state = .draining) :
    Clogged t (d.step r).streams w := by
  have hidle : ∀ {w}, Clogged t d.streams w → ∀ e, d.chosen r = some e → e.stageIndex ≠ w :=
    fun hw e he => hw.stageIndex_ne ht h (ready_of_chosen he).2 r
  induction hclogged with
  | processor hstage hrole hlink hblocked hrest ih =>
      exact .processor hstage hrole hlink (hblocked.step ht h hfirm hlink hlive
        (hidle (.processor hstage hrole hlink hblocked hrest)) (hidle hrest)) ih
  | router hstage hrole hblocked hrest ih =>
      refine .router hstage hrole (fun o w' hlink => ?_) ih
      exact (hblocked o w' hlink).step ht h hfirm hlink hlive
        (hidle (.router hstage hrole hblocked hrest)) (hidle (hrest o w' hlink))

/-- **Where the scheduler stops, every stage with input is clogged** from there on. -/
theorem clogged_of_idle (ht : t.Valid) (h : DriverInv t d) (hrun : d.state = .running) {k : ℕ}
    (hidle : ∀ w stage, t.stages[w]? = some stage → k ≤ t.rank w →
      stageAction d.streams (.build t) w stage.role = none) {i u : ℕ} (hlink : Links t i u w)
    (hk : k ≤ t.rank w) (hpos : 0 < lenAt d.streams i) : Clogged t d.streams w := by
  refine empty_downstream (Links t) (fun v => t.rank v + 1) (t.stages.length + 1)
    (fun i => ∀ u w, Links t i u w → 0 < lenAt d.streams i → Clogged t d.streams w) ?_ ?_ hlink
    (Nat.lt_succ_of_le hk) u w hlink hpos
  · intro i u w hlink
    have hrank := hlink.rank_lt ht
    have hlt := ht.rank_lt_length (hlink.lt_length ht).2
    exact ⟨by omega, by omega⟩
  · intro w hw hout i u hlink u' w' hlink' hpos
    obtain rfl := StreamIndex.inputs_inj hlink.mem_inputs hlink'.mem_inputs
    obtain ⟨stage, hstage⟩ : ∃ stage, t.stages[w]? = some stage :=
      ⟨_, List.getElem?_eq_getElem (hlink.lt_length ht).2⟩
    have hinput : hasInputAt d.streams i = true := hasInputAt_eq_true_iff.mpr hpos
    have hne : (StreamIndex.build t).inputs w ≠ [] := List.ne_nil_of_mem hlink.mem_inputs
    have hun : ¬Unblocked d.streams ((StreamIndex.build t).outputs w) stage.role := by
      intro hun
      have hnone := (stageAction_eq_none_iff.mp (hidle w stage hstage (by omega)) hun).2 i
        hlink.mem_inputs
      rw [hnone] at hinput
      cases hinput
    -- an output that cannot take an element holds one, since its producer is not done
    have hblocked : ∀ o ∈ (StreamIndex.build t).outputs w, canProduceAt d.streams o ≠ true →
        Blocked d.streams o ∧ 0 < lenAt d.streams o := by
      intro o ho hcan
      have hlt := h.streams.wired.lt_of_mem_outputs ho
      have hcapacity := capacityAt_pos hlt
      rw [Ne, canProduceAt_iff h.streams.credit hlt] at hcan
      have hopen : completeAt d.streams o = false := by
        rw [← Bool.not_eq_true]
        intro hdone
        have hempty := (h.streams.downstream w hne o ho hdone i hlink.mem_inputs).2
        omega
      by_cases hfull : lenAt d.streams o < capacityAt d.streams o
      · have hactive : activeAt d.streams o = true := by
          rw [← Bool.not_eq_false]
          exact fun hinactive => hcan ⟨hopen, hfull, hinactive⟩
        exact ⟨.inr hactive, h.active hrun o hactive⟩
      · have hle := lenAt_le_capacityAt d.streams o
        exact ⟨.inl (by omega), by omega⟩
    have hclogged : ∀ o ∈ (StreamIndex.build t).outputs w, canProduceAt d.streams o ≠ true →
        ∀ w', Links t o w w' → Clogged t d.streams w' :=
      fun o ho hcan w' hlink => hout o w' hlink w w' hlink (hblocked o ho hcan).2
    cases hrole : stage.role with
    | sink | filter =>
        rw [hrole] at hun
        exact absurd trivial hun
    | source => exact absurd ((ht.inputs_eq_nil_iff hstage).mpr hrole) hne
    | processor =>
        rw [hrole] at hun
        obtain ⟨o, ho, hcan⟩ : ∃ o ∈ (StreamIndex.build t).outputs w,
            canProduceAt d.streams o ≠ true := by
          simpa [Unblocked] using hun
        obtain ⟨w', hlink'⟩ := links_of_mem_outputs ho
        exact .processor hstage hrole hlink' (hblocked o ho hcan).1 (hclogged o ho hcan w' hlink')
    | router =>
        rw [hrole] at hun
        have hall : ∀ o ∈ (StreamIndex.build t).outputs w, canProduceAt d.streams o ≠ true :=
          fun o ho hcan => hun ⟨o, ho, hcan⟩
        exact .router hstage hrole
          (fun o w' hlink' => (hblocked o hlink'.mem_outputs (hall o hlink'.mem_outputs)).1)
          fun o w' hlink' => hclogged o hlink'.mem_outputs (hall o hlink'.mem_outputs) w' hlink'

end Clogged

/-! ## Windows of decisions -/

/-- A decision of the main loop at which both sources can produce. -/
def BothOpen (u u' : ℕ) (d : FlowDriver) (_ : Round) : Prop :=
  d.state = .running ∧ d.CanAccept u ∧ d.CanAccept u'

/-- A decision of the main loop at which both streams hold elements. -/
def BothWaiting (si sj : ℕ) (d : FlowDriver) (_ : Round) : Prop :=
  d.state = .running ∧ 0 < lenAt d.streams si ∧ 0 < lenAt d.streams sj

instance (u u' : ℕ) (d : FlowDriver) (r : Round) : Decidable (BothOpen u u' d r) :=
  inferInstanceAs (Decidable (d.state = .running ∧
    (∃ o ∈ d.streamIndex.outputs u, canProduceAt d.streams o = true) ∧
      ∃ o ∈ d.streamIndex.outputs u', canProduceAt d.streams o = true))

instance (si sj : ℕ) (d : FlowDriver) (r : Round) : Decidable (BothWaiting si sj d r) :=
  inferInstanceAs (Decidable (_ ∧ _ ∧ _))

section Windows

variable {t : FlowTopology} {d : FlowDriver} {r : Round} {v si sj : ℕ}

/-- The stage that an element of an input stream is taken by. -/
theorem stageIndex_of_takenFrom (ht : t.Valid) (h : DriverInv t d) {e : StageExecution}
    (he : d.nextReady = some e) (r : Round) (hsi : si ∈ (StreamIndex.build t).inputs v)
    (htaken : d.takenFrom e = some si) : e.stageIndex = v := by
  obtain ⟨_, -, -, hx, -⟩ := nextReady_spec ht h.topology h.streamIndex h.streams.wired he r
  rcases hx.taken with ⟨-, hnone, -⟩ | ⟨-, -, i, hi, -, hsome⟩
  · cases hnone.symm.trans htaken
  · obtain rfl := Option.some.inj (hsome.symm.trans htaken)
    exact StreamIndex.inputs_inj hi hsi

/-- The second of two input streams with elements is not served. -/
theorem not_servesStream_of_earlier (ht : t.Valid) (h : DriverInv t d)
    (hsi : si ∈ (StreamIndex.build t).inputs v) (hsj : sj ∈ (StreamIndex.build t).inputs v)
    (hlt : si < sj) (hpos : 0 < lenAt d.streams si) : d.servesStream sj r = false := by
  rw [servesStream, Option.any_eq_false]
  intro e he
  rw [decide_eq_false_iff_not]
  intro htaken
  have hready := (ready_of_chosen he).2
  obtain rfl := stageIndex_of_takenFrom ht h hready r hsj htaken
  have := le_of_takenFrom ht h hready htaken hsi hpos
  omega

/-- What is left of a stream, unless its consumer is clogged, and how often it has been served. -/
def Remaining (t : FlowTopology) (v si capacity n : ℕ) (d : FlowDriver) : Prop :=
  n ≤ capacity ∧ (d.state = .running →
    Clogged t d.streams v ∨ n + lenAt d.streams si ≤ capacity)

/-- **One decision**: what is served is gone, and a stage that gets more is clogged. -/
theorem Remaining.step (ht : t.Valid) (h : DriverInv t d) (hrun : d.state = .running)
    (hfirm : d.Firm) (hsi : si ∈ (StreamIndex.build t).inputs v) {capacity n : ℕ}
    (hremaining : Remaining t v si capacity n d) (hpos : 0 < lenAt d.streams si) :
    Remaining t v si capacity (n + if d.servesStream si r then 1 else 0) (d.step r) := by
  obtain ⟨hle, hleft⟩ := hremaining
  have hlt := h.streams.wired.lt_of_mem_inputs hsi
  have hclogged : Clogged t d.streams v → d.servesStream si r = false := by
    intro hclogged
    rw [servesStream, Option.any_eq_false]
    intro e he
    rw [decide_eq_false_iff_not]
    intro htaken
    have hready := (ready_of_chosen he).2
    exact hclogged.stageIndex_ne ht h hready r (stageIndex_of_takenFrom ht h hready r hsi htaken)
  have hstays : Clogged t d.streams v → Remaining t v si capacity n (d.step r) :=
    fun hclogged => ⟨hle, fun hrun' => .inl (hclogged.step ht h hfirm (.inl hrun'))⟩
  rcases hleft hrun with hblocked | hleft
  · rw [hclogged hblocked]
    exact hstays hblocked
  · cases hchosen : d.chosen r with
    | none =>
        have hserves : d.servesStream si r = false := by rw [servesStream, hchosen, Option.any_none]
        rw [hserves]
        refine ⟨hle, fun hrun' => .inr ?_⟩
        rw [(step_read h r (.inl hrun') hlt).2.1 hchosen]
        exact hleft
    | some e =>
        have hready := (ready_of_chosen hchosen).2
        have hserves : d.servesStream si r = decide (d.takenFrom e = some si) := by
          rw [servesStream, hchosen, Option.any_some]
        by_cases htaken : d.takenFrom e = some si
        · have hnot : si ∉ d.addressed r e := fun ho => taken_ne_of_addressed ht h hready ho htaken
          rw [hserves, decide_eq_true htaken, if_pos rfl]
          refine ⟨by omega, fun hrun' => .inr ?_⟩
          rw [(step_read h r (.inl hrun') hlt).2.2 e hchosen, if_neg hnot, if_pos htaken]
          omega
        · rw [hserves, decide_eq_false htaken]
          by_cases hin : si ∈ d.addressed r e
          · -- the producer runs before its consumer, which can only be clogged
            obtain ⟨_, -, -, hx, hlater⟩ :=
              nextReady_spec ht h.topology h.streamIndex h.streams.wired hready r
            obtain ⟨w, hlink⟩ := links_of_mem_outputs (hx.pushed.subset hin)
            obtain rfl := StreamIndex.inputs_inj hlink.mem_inputs hsi
            exact hstays (clogged_of_idle ht h hrun hlater hlink (hlink.rank_lt ht) hpos)
          · refine ⟨hle, fun hrun' => .inr ?_⟩
            rw [(step_read h r (.inl hrun') hlt).2.2 e hchosen, if_neg hin, if_neg htaken]
            exact hleft

end Windows

/-- What holds at every decision of a window. -/
theorem SpawnedFlow.inv_window (f : SpawnedFlow) (before window : List Round) :
    Guarded FlowDriver.step (fun d _ => d.state = .running →
      DriverInv f.config.topology d ∧ d.Firm) (f.run before) window := by
  refine Guarded.of_forall (P := fun d => d.state = .running →
    DriverInv f.config.topology d ∧ d.Firm) (fun as hrun => ?_) window
  have hrun' : (f.run (before ++ as)).state = .running := by
    rw [BuiltFlow.run, FlowDriver.run_append]
    exact hrun
  have hboth := And.intro (f.inv_run (before ++ as) (.inl hrun'))
    (f.firm_run (before ++ as) hrun')
  rw [BuiltFlow.run, FlowDriver.run_append] at hboth
  exact hboth

/-- No run changes the capacity of a stream. -/
theorem BuiltFlow.capacityAt_run (f : BuiltFlow) (rounds : List Round) (si : ℕ) :
    capacityAt (f.run rounds).streams si = capacityAt f.streams si := by
  induction rounds using List.reverseRecOn with
  | nil => rfl
  | append_singleton rounds r ih => rw [f.run_snoc, capacityAt_step, ih]

/-- **Fan-in in the order of the scan.**  Of two sources that can both produce at every decision
of a window, the one that comes first in the topological order is not served in it.  Of two
input streams of a stage that both hold elements at every decision of a window, the second is
not served and the first at most as often as its capacity says. -/
theorem served_in_scan_order (f : SpawnedFlow) (before window : List Round) :
    (∀ u u', IsSource f.config.topology u → IsSource f.config.topology u' →
      f.config.topology.rank u < f.config.topology.rank u' →
      Guarded FlowDriver.step (BothOpen u u') (f.run before) window →
      countSteps FlowDriver.step (FlowDriver.serves u) (f.run before) window = 0) ∧
    ∀ v si sj, si ∈ (StreamIndex.build f.config.topology).inputs v →
      sj ∈ (StreamIndex.build f.config.topology).inputs v → si < sj →
      Guarded FlowDriver.step (BothWaiting si sj) (f.run before) window →
      countSteps FlowDriver.step (FlowDriver.servesStream sj) (f.run before) window = 0 ∧
        countSteps FlowDriver.step (FlowDriver.servesStream si) (f.run before) window ≤
          capacityAt f.streams si := by
  have ht := f.valid
  have hinv := f.inv_window before window
  constructor
  · intro u u' _ hsource hrank hopen
    refine (hopen.and hinv).countSteps_eq_zero fun d r ⟨⟨hrun, _, haccept⟩, hd⟩ => ?_
    exact not_serves_of_later ht (hd hrun).1 hsource hrank haccept
  · intro v si sj hsi hsj hlt hwaiting
    have hboth := hwaiting.and hinv
    constructor
    · refine hboth.countSteps_eq_zero fun d r ⟨⟨hrun, hpos, _⟩, hd⟩ => ?_
      exact not_servesStream_of_earlier ht (hd hrun).1 hsi hsj hlt hpos
    · have hstart :
          Remaining f.config.topology v si (capacityAt f.streams si) 0 (f.run before) := by
        refine ⟨Nat.zero_le _, fun _ => .inr ?_⟩
        rw [Nat.zero_add, ← f.capacityAt_run before si]
        exact lenAt_le_capacityAt _ si
      have hend := hboth.countSteps_invariant (p := FlowDriver.servesStream si)
        (fun n d r ⟨⟨hrun, hpos, _⟩, hd⟩ hremaining =>
          hremaining.step ht (hd hrun).1 hrun (hd hrun).2 hsi hpos) hstart
      rw [Nat.zero_add] at hend
      exact hend.1

/-- Two sources that feed a processor, which feeds a sink through two streams. -/
def parallelFlow : SpawnedFlow where
  flowId := ⟨0⟩
  config := smallConfig [.source, .source, .processor, .sink] [(0, 2), (1, 2), (2, 3), (2, 3)] 2
  streams := (spawnStreams ⟨0⟩ (smallConfig [.source, .source, .processor, .sink]
    [(0, 2), (1, 2), (2, 3), (2, 3)] 2)).get (by decide)
  startedAt := 0
  wallClock := 0
  built := (Option.some_get _).symm
  validated := by decide

/-- With one element on each of the two streams the sink is served from the first. -/
theorem served_in_scan_order_parallelFlow :
    let r := quietRound (forwarding 2)
    let d := parallelFlow.run [r, r]
    countSteps FlowDriver.step (FlowDriver.serves 0) d [r] = 0 ∧
      countSteps FlowDriver.step (FlowDriver.servesStream 3) d [r] = 0 ∧
        countSteps FlowDriver.step (FlowDriver.servesStream 2) d [r] ≤
          capacityAt parallelFlow.streams 2 := by
  intro r d
  have horder := served_in_scan_order parallelFlow [r, r] [r]
  exact ⟨horder.1 0 1 ⟨⟨⟨0⟩, .source⟩, by decide, rfl⟩ ⟨⟨⟨1⟩, .source⟩, by decide, rfl⟩ (by decide)
    (by decide), horder.2 3 2 3 (by decide) (by decide) (by decide) (by decide)⟩

/-! ## Two sources and a sink -/

/-- Two sources that feed one sink, with room for two elements on each stream. -/
def mergeFlow : SpawnedFlow where
  flowId := ⟨0⟩
  config := smallConfig [.source, .source, .sink] [(0, 2), (1, 2)] 2
  streams := (spawnStreams ⟨0⟩ (smallConfig [.source, .source, .sink] [(0, 2), (1, 2)] 2)).get
    (by decide)
  startedAt := 0
  wallClock := 0
  built := (Option.some_get _).symm
  validated := by decide

/-- A round in which sources produce and sinks are ready. -/
def busyRound : Round := quietRound (forwarding 1)

/-- The main loop goes on, nothing waits on the first stream, and so many elements wait on the
second one. -/
structure Sustained (len : ℕ) (d : FlowDriver) : Prop where
  inv : DriverInv mergeFlow.config.topology d
  running : d.state = .running
  fresh : d.cancellation = .new
  first : lenAt d.streams 0 = 0
  second : lenAt d.streams 1 = len
  room : ∀ si < 2, capacityAt d.streams si = 2 ∧ activeAt d.streams si = false ∧
    completeAt d.streams si = false

section Sustained

variable {d : FlowDriver} {len : ℕ}

theorem Sustained.lt_length (h : Sustained len d) {si : ℕ} (hsi : si < 2) :
    si < d.streams.length := by
  rw [h.inv.streams.wired.length_eq]
  exact hsi

theorem Sustained.canProduceAt_iff (h : Sustained len d) {si : ℕ} (hsi : si < 2) :
    canProduceAt d.streams si = true ↔ lenAt d.streams si < 2 := by
  obtain ⟨hcapacity, hactive, hcomplete⟩ := h.room si hsi
  rw [Torvyn.Reactor.canProduceAt_iff h.inv.streams.credit (h.lt_length hsi), hcapacity, hactive,
    hcomplete]
  simp

/-- Both sources can produce. -/
theorem Sustained.bothOpen (h : Sustained len d) (hlen : len < 2) (r : Round) :
    BothOpen 1 0 d r := by
  refine ⟨h.running, ⟨1, ?_, (h.canProduceAt_iff (by omega)).mpr (by rw [h.second]; exact hlen)⟩,
    ⟨0, ?_, (h.canProduceAt_iff (by omega)).mpr (by rw [h.first]; omega)⟩⟩
  · rw [h.inv.streamIndex]
    decide
  · rw [h.inv.streamIndex]
    decide

/-- The order of the scan. -/
theorem Sustained.chosen_eq (h : Sustained len d) : d.chosen busyRound =
    nextReadyStage mergeFlow.config.topology d.streams (.build mergeFlow.config.topology) := by
  have hnone : (d.cancelBy busyRound.cancelBefore).cancellation.isCancelled = false := by
    show d.cancellation.isCancelled = false
    rw [h.fresh]
    rfl
  simp only [chosen, h.running, hnone, Bool.false_eq_true, if_false, nextReady, h.inv.topology,
    h.inv.streamIndex]

theorem scanOrder : mergeFlow.config.topology.topologicalOrder.reverse = [2, 1, 0] := by decide

theorem Sustained.hasInputAt_zero (h : Sustained len d) : hasInputAt d.streams 0 = false := by
  rw [← Bool.not_eq_true, hasInputAt_eq_true_iff, h.first]
  exact Nat.lt_irrefl 0

/-- With an element waiting the sink is served. -/
theorem Sustained.chosen_one (h : Sustained 1 d) :
    d.chosen busyRound = some ⟨⟨2⟩, 2, .pushToSink ⟨1⟩⟩ := by
  have hs := List.getElem?_eq_getElem (h.lt_length (by omega : 1 < 2))
  have hfirst : firstInput d.streams ((StreamIndex.build mergeFlow.config.topology).inputs 2) =
      some ⟨1⟩ := by
    have hinputs : (StreamIndex.build mergeFlow.config.topology).inputs 2 = [0, 1] := by decide
    have hnone : hasInputAt d.streams 0 = false := h.hasInputAt_zero
    have hsome : hasInputAt d.streams 1 = true := by
      rw [hasInputAt_eq_true_iff, h.second]
      exact Nat.one_pos
    rw [hinputs, firstInput, List.find?_cons_of_neg (by simp [hnone]),
      List.find?_cons_of_pos hsome, Option.bind_some, hs, Option.map_some,
      h.inv.streams.wired.id_eq 1 _ hs]
  rw [h.chosen_eq, nextReadyStage, scanOrder, List.findSome?_cons]
  have hstage : mergeFlow.config.topology.stages[2]? = some ⟨⟨2⟩, .sink⟩ := by decide
  simp only [hstage, Option.bind_some, stageAction, hfirst, Option.map_some]

/-- With no element waiting the second source is served. -/
theorem Sustained.chosen_zero (h : Sustained 0 d) :
    d.chosen busyRound = some ⟨⟨1⟩, 1, .pullFromSource⟩ := by
  have hfirst : firstInput d.streams ((StreamIndex.build mergeFlow.config.topology).inputs 2) =
      none := by
    have hinputs : (StreamIndex.build mergeFlow.config.topology).inputs 2 = [0, 1] := by decide
    have hsecond : hasInputAt d.streams 1 = false := by
      rw [← Bool.not_eq_true, hasInputAt_eq_true_iff, h.second]
      exact Nat.lt_irrefl 0
    rw [hinputs, firstInput, List.find?_cons_of_neg (by simp [h.hasInputAt_zero]),
      List.find?_cons_of_neg (by simp [hsecond]), List.find?_nil, Option.bind_none]
  have houtputs : (StreamIndex.build mergeFlow.config.topology).outputs 1 = [1] := by decide
  have hcan : canProduceAt d.streams 1 = true :=
    (h.canProduceAt_iff (by omega)).mpr (by rw [h.second]; omega)
  have hsink : mergeFlow.config.topology.stages[2]? = some ⟨⟨2⟩, .sink⟩ := by decide
  have hsource : mergeFlow.config.topology.stages[1]? = some ⟨⟨1⟩, .source⟩ := by decide
  rw [h.chosen_eq, nextReadyStage, scanOrder, List.findSome?_cons, List.findSome?_cons]
  simp only [hsink, hsource, Option.bind_some, stageAction, hfirst, Option.map_none, houtputs,
    List.any_cons, hcan, Bool.true_or, if_true, Option.map_some]

/-- A stream with room is not put under backpressure. -/
theorem activeAt_checkAll {streams : List StreamState} {now si : ℕ}
    (hactive : activeAt streams si = false) (hlt : lenAt streams si < capacityAt streams si) :
    activeAt (checkAll streams now) si = false := by
  cases hs : streams[si]? with
  | none => simp [lenAt, capacityAt, hs] at hlt
  | some s =>
      have hget : (checkAll streams now)[si]? = some (s.checkBackpressure now).2 := by
        simp [checkAll, hs]
      rw [activeAt_eq hs] at hactive
      rw [lenAt_eq hs, capacityAt_eq hs] at hlt
      rw [activeAt_eq hget]
      have hchecked := s.checkBackpressure_checked now
      generalize (s.checkBackpressure now).1 = signal at hchecked
      generalize (s.checkBackpressure now).2 = s' at hchecked ⊢
      cases hchecked with
      | kept => exact hactive
      | paused s' _ _ hfull => omega
      | released s' hactive' =>
          rw [hactive] at hactive'
          cases hactive'

/-- A round in which a stage runs without an error. -/
theorem Sustained.step (h : Sustained len d) {e : StageExecution}
    (hchosen : d.chosen busyRound = some e)
    (hok : ((d.cancelBy busyRound.cancelBefore).executeStage busyRound e).2 = .ok ())
    (hcompleted : d.completedBy busyRound e = []) {len' : ℕ} (hlen' : len' < 2)
    (hread : ∀ si < 2, (if si ∈ d.addressed busyRound e then
        min ((lenAt d.streams si - if d.takenFrom e = some si then 1 else 0) + 1)
          (capacityAt d.streams si)
      else lenAt d.streams si - if d.takenFrom e = some si then 1 else 0) =
        if si = 1 then len' else 0) : Sustained len' (d.step busyRound) := by
  set executed := (d.cancelBy busyRound.cancelBefore).executeStage busyRound e
  have hstep : d.step busyRound =
      (executed.1.cancelBy busyRound.cancelDuring).afterStage busyRound :=
    step_of_ok h.running hchosen hok
  obtain ⟨hstreams, hcontext, -⟩ :=
    (executed.1.cancelBy busyRound.cancelDuring).afterStage_frame busyRound
  have hkept : (d.step busyRound).context = d.context :=
    (congrArg FlowDriver.context hstep).trans (hcontext.trans
      (context_executeStage (d.cancelBy busyRound.cancelBefore) busyRound e))
  have hrun : (d.step busyRound).state = .running :=
    (congrArg Context.state hkept).trans h.running
  have hlen : ∀ si < 2, lenAt (d.step busyRound).streams si = if si = 1 then len' else 0 := by
    intro si hsi
    rw [← hread si hsi]
    exact (step_read h.inv busyRound (.inl hrun) (h.lt_length hsi)).2.2 e hchosen
  refine ⟨h.inv.step mergeFlow.valid busyRound (.inl hrun), hrun,
    (congrArg Context.cancellation hkept).trans h.fresh, hlen 0 (by omega), hlen 1 (by omega), ?_⟩
  intro si hsi
  obtain ⟨hcapacity, hactive, hcomplete⟩ := h.room si hsi
  have hex := (d.cancelBy busyRound.cancelBefore).executeStage_executed busyRound e
    (h.inv.streamIndex ▸ StreamIndex.outputs_nodup)
  obtain ⟨hcapacity', hactive', hcomplete', hlen''⟩ := hex.applies.read (h.lt_length hsi)
  have hchecked : (d.step busyRound).streams = checkAll executed.1.streams busyRound.finish := by
    rw [hstep]
    exact hstreams
  have hcheck := read_checkAll executed.1.streams busyRound.finish si
  have hroom : lenAt executed.1.streams si < capacityAt executed.1.streams si := by
    rw [← hcheck.2.1, ← hchecked, hlen si hsi, hcapacity']
    refine lt_of_lt_of_eq ?_ hcapacity.symm
    split <;> omega
  rw [hchecked]
  refine ⟨hcheck.1.trans (hcapacity'.trans hcapacity), ?_, ?_⟩
  · exact activeAt_checkAll (hactive'.trans hactive) hroom
  · have hnot : decide (si ∈ ((d.cancelBy busyRound.cancelBefore).transfer busyRound e).completed) =
        false := by
      have hnil : ((d.cancelBy busyRound.cancelBefore).transfer busyRound e).completed = [] :=
        hcompleted
      rw [hnil]
      rfl
    rw [hcheck.2.2.1, hcomplete', hnot, Bool.or_false]
    exact hcomplete

/-- The second source is served. -/
theorem Sustained.pull (h : Sustained 0 d) : Sustained 1 (d.step busyRound) := by
  have houtputs : d.streamIndex.outputs 1 = [1] := by
    rw [h.inv.streamIndex]
    decide
  refine h.step h.chosen_zero ?_ rfl (by omega) fun si hsi => ?_
  · simp only [executeStage, executeAction, executePull, busyRound, quietRound, forwarding,
      Answer.toExcept, log, cancelBy, houtputs, List.head?_cons]
  · have haddressed : d.addressed busyRound ⟨⟨1⟩, 1, .pullFromSource⟩ = [1] := by
      simp only [addressed, busyRound, quietRound, forwarding, houtputs, List.head?_cons,
        Option.toList_some]
    have htaken : d.takenFrom ⟨⟨1⟩, 1, .pullFromSource⟩ = none := rfl
    rw [haddressed, htaken, (h.room si hsi).1]
    obtain rfl | rfl : si = 0 ∨ si = 1 := by omega
    · simp [h.first]
    · simp [h.second]

/-- The element it has produced is consumed. -/
theorem Sustained.push (h : Sustained 1 d) : Sustained 0 (d.step busyRound) := by
  have hin : hasInputAt d.streams 1 = true := by
    rw [hasInputAt_eq_true_iff, h.second]
    exact Nat.one_pos
  refine h.step h.chosen_one ?_ rfl (by omega) fun si hsi => ?_
  · simp only [executeStage, executeAction, executePush, busyRound, quietRound, forwarding,
      Answer.toExcept]
    split <;> rfl
  · have haddressed : d.addressed busyRound ⟨⟨2⟩, 2, .pushToSink ⟨1⟩⟩ = [] := rfl
    have htaken : d.takenFrom ⟨⟨2⟩, 2, .pushToSink ⟨1⟩⟩ = some 1 :=
      findIdx?_of_hasInputAt h.inv.streams.wired hin
    rw [haddressed, htaken]
    obtain rfl | rfl : si = 0 ∨ si = 1 := by omega
    · simp [h.first]
    · simp [h.second]

end Sustained

/-- The main loop begins with empty streams. -/
theorem sustained_start : Sustained 0 mergeFlow.start := by
  refine ⟨mergeFlow.inv_start, rfl, rfl, by decide, by decide, ?_⟩
  decide

/-- The more rounds, the more often the second source is served, and the first one never. -/
theorem served_along (n : ℕ) {d : FlowDriver} (h : Sustained 0 d) :
    let window := List.replicate (2 * n) busyRound
    Guarded FlowDriver.step (BothOpen 1 0) d window ∧
      countSteps FlowDriver.step (FlowDriver.serves 1) d window = n ∧
      countSteps FlowDriver.step (FlowDriver.serves 0) d window = 0 := by
  intro window
  induction n generalizing d with
  | zero => exact ⟨trivial, rfl, rfl⟩
  | succ n ih =>
      obtain ⟨hopen, hsecond, hfirst⟩ := ih h.pull.push
      have hwindow : window = busyRound :: busyRound :: List.replicate (2 * n) busyRound := rfl
      rw [hwindow]
      refine ⟨⟨h.bothOpen (by omega) _, h.pull.bothOpen (by omega) _, hopen⟩, ?_, ?_⟩
      · simp only [countSteps, hsecond, serves, h.chosen_zero, h.pull.chosen_one, Option.any_some]
        simp
        omega
      · simp only [countSteps, hfirst, serves, h.chosen_zero, h.pull.chosen_one, Option.any_some]
        simp

/-- No bound on the difference holds for all windows: the longer both sources can produce, the
further the first one falls behind. -/
theorem first_source_starves :
    ¬∃ bound : FlowTopology → List ℕ → ℕ, ∀ (f : SpawnedFlow) (before window : List Round),
      ∀ u u', IsSource f.config.topology u → IsSource f.config.topology u' →
      Guarded FlowDriver.step (BothOpen u u') (f.run before) window →
      countSteps FlowDriver.step (FlowDriver.serves u) (f.run before) window ≤
        countSteps FlowDriver.step (FlowDriver.serves u') (f.run before) window +
          bound f.config.topology (f.streams.map (·.queue.capacity)) := by
  rintro ⟨bound, hbound⟩
  set b := bound mergeFlow.config.topology (mergeFlow.streams.map (·.queue.capacity))
  obtain ⟨hopen, hsecond, hfirst⟩ := served_along (b + 1) sustained_start
  have hle := hbound mergeFlow [] (List.replicate (2 * (b + 1)) busyRound) 1 0
    ⟨⟨⟨1⟩, .source⟩, by decide, rfl⟩ ⟨⟨⟨0⟩, .source⟩, by decide, rfl⟩ hopen
  have hstart : mergeFlow.run [] = mergeFlow.start := rfl
  rw [hstart, hsecond, hfirst] at hle
  omega

end Torvyn.Reactor
