/-
# Buffering along a chain

The scheduler looks for work from the sink upstream, and a stage takes one element before it
queues another.  So a chain asks its source only when all queues are empty, and holds at most
one element at any time, whatever the components answer.  A queue with room for two elements is
never full then.
-/
import Torvyn.Reactor.Linear
import Torvyn.Reactor.Drain
import Torvyn.Reactor.Hysteresis

namespace Torvyn.Reactor

/-! ## The number of queued elements -/

/-- The number of elements queued on all streams. -/
def queued (streams : List StreamState) : ℕ := (streams.map (·.queue.len)).sum

section Queued

variable {streams streams' : List StreamState}

/-- Without an element queued all queues are empty. -/
theorem queued_eq_zero_iff : queued streams = 0 ↔ ∀ s ∈ streams, s.queue.len = 0 := by
  simp [queued, List.sum_eq_zero_iff]

theorem len_le_queued {s : StreamState} (hs : s ∈ streams) : s.queue.len ≤ queued streams :=
  List.single_le_sum (by simp) _ (List.mem_map_of_mem hs)

/-- The number depends on the queues alone. -/
theorem queued_congr (hlen : streams'.length = streams.length)
    (h : ∀ si, lenAt streams' si = lenAt streams si) : queued streams' = queued streams := by
  have hmap : streams'.map (·.queue.len) = streams.map (·.queue.len) := by
    refine List.ext_getElem (by simp [hlen]) fun si h₁ h₂ => ?_
    rw [List.length_map] at h₁ h₂
    have hsi := h si
    rw [lenAt_eq (List.getElem?_eq_getElem h₁), lenAt_eq (List.getElem?_eq_getElem h₂)] at hsi
    simpa using hsi
  rw [queued, hmap, queued]

/-- One stream is replaced by another. -/
theorem queued_set {si : ℕ} {s : StreamState} (s' : StreamState) (hs : streams[si]? = some s) :
    queued (streams.set si s') + s.queue.len = queued streams + s'.queue.len := by
  unfold queued
  induction streams generalizing si with
  | nil => cases hs
  | cons a streams ih =>
      cases si with
      | zero =>
          obtain rfl : a = s := Option.some.inj hs
          simp only [List.set_cons_zero, List.map_cons, List.sum_cons]
          omega
      | succ si =>
          have hs' : streams[si]? = some s := by simpa using hs
          have hrest := ih hs'
          simp only [List.set_cons_succ, List.map_cons, List.sum_cons]
          omega

end Queued

namespace FlowDriver

variable {d d' : FlowDriver}

/-- Quiet parts leave every queue as it is. -/
theorem Quiet.queued_eq (h : Quiet d d') : queued d'.streams = queued d.streams := by
  refine queued_congr h.length_eq fun si => ?_
  cases hs : d.streams[si]? with
  | none =>
      have hs' : d'.streams[si]? = none := by
        rw [List.getElem?_eq_none_iff] at hs ⊢
        rw [h.length_eq]
        exact hs
      simp [lenAt, hs, hs']
  | some s =>
      obtain ⟨s', hs', -, hqueue, -⟩ := h.stream si s hs
      rw [lenAt_eq hs, lenAt_eq hs', hqueue]

/-! ## One execution -/

/-- An emitted element fills at most one slot. -/
theorem queued_emit {si : ℕ} {s : StreamState} (s' : StreamState) (elem : StreamElementRef)
    (hs : d.streams[si]? = some s) (hqueue : s'.queue = (s.emit elem).2.queue) :
    queued (d.streams.set si s') ≤ queued d.streams + 1 := by
  have hset := queued_set s' hs
  have hlen := s.len_emit elem
  rw [hqueue] at hset
  omega

theorem queued_pushPulled (d : FlowDriver) (r : Round) (element : OutputElement) (si : ℕ) :
    queued (d.pushPulled r element si).streams ≤ queued d.streams + 1 := by
  cases hs : d.streams[si]? with
  | none =>
      have hsame : (d.pushPulled r element si).streams = d.streams := by
        simp only [pushPulled, hs]
      rw [hsame]
      omega
  | some s =>
      rw [pushPulled_eq r element hs]
      refine queued_emit _
        (stamp d.nextGlobalSequence d.nextGlobalSequence r.timestampNs element) hs ?_
      split <;> rfl

theorem queued_pushAll (input : StreamElementRef) (ts : List (OutputElement × ℕ)) (d : FlowDriver) :
    queued (d.pushAll input ts).streams ≤ queued d.streams + ts.length := by
  induction ts generalizing d with
  | nil => exact le_rfl
  | cons t ts ih =>
      have hone : queued (d.pushOutput input t.1 t.2).streams ≤ queued d.streams + 1 := by
        cases hs : d.streams[t.2]? with
        | none =>
            have hsame : (d.pushOutput input t.1 t.2).streams = d.streams := by
              simp only [pushOutput, hs]
            rw [hsame]
            omega
        | some s =>
            rw [pushOutput_eq input t.1 hs]
            exact queued_emit _ _ hs rfl
      have hrest := ih (d.pushOutput input t.1 t.2)
      show queued ((d.pushOutput input t.1 t.2).pushAll input ts).streams ≤ _
      rw [List.length_cons]
      omega

/-- Taking an input frees one slot. -/
theorem queued_taking {si : ℕ} {s : StreamState} (elem : StreamElementRef)
    (hs : d.streams[si]? = some s) (hpos : 0 < s.queue.len) :
    queued (d.taking si s elem).streams + 1 = queued d.streams := by
  have hset := queued_set s.take.2 hs
  have hlen := s.len_take
  show queued (d.streams.set si s.take.2) + 1 = _
  omega

/-- **The action of a stage** takes its input before it queues what it addresses. -/
theorem Acted.queued_le {r : Round} {e : StageExecution} (h : Acted d r e d') :
    queued d'.streams + (d.takenFrom e).toList.length ≤
      queued d.streams + (d.addressed r e).length := by
  cases h with
  | starved htaken haddressed => simp [htaken, haddressed]
  | asked answer htaken haddressed => simp [htaken, haddressed]
  | exhausted sis htaken haddressed =>
      have hquiet := (d.log (.invoked e.componentId (.pull (.ok none)))).quiet_markComplete sis
      rw [hquiet.queued_eq, htaken, haddressed]
      exact le_rfl
  | produced element si haction htaken haddressed =>
      have hpushed := queued_pushPulled
        (d.log (.invoked e.componentId (.pull (.ok (some element))))) r element si
      rw [htaken, haddressed]
      exact hpushed
  | processed si s elem answer ts id haction htaken haddressed hs hpos =>
      have htaking := queued_taking elem hs hpos
      have hpushed := queued_pushAll elem ts ((d.taking si s elem).log
        (.invoked e.componentId (.process elem.toStreamElement answer)))
      rw [streams_log] at hpushed
      rw [htaken, haddressed, List.length_map]
      show _ + 1 ≤ _
      omega
  | consumed si s elem answer latency htaken haddressed hs hpos =>
      have htaking := queued_taking elem hs hpos
      rw [htaken, haddressed]
      exact htaking.le

end FlowDriver

/-! ## Chains -/

namespace Chain

variable {t : FlowTopology} {m : ℕ} (c : Chain t m) {d : FlowDriver} {e : StageExecution}

include c

/-- A stage feeds at most one stream. -/
theorem length_outputs_le {v : ℕ} (hv : v < t.stages.length) :
    ((StreamIndex.build t).outputs v).length ≤ 1 := by
  obtain ⟨i, hi, rfl⟩ := c.stage_surj v hv
  by_cases him : i ≤ m
  · rw [c.outputs_eq him]
    exact le_rfl
  · have hnil : (StreamIndex.build t).outputs (c.stage i) = [] :=
      List.eq_nil_iff_forall_not_mem.mpr fun si hsi => him (c.eq_of_mem_outputs hi hsi).1
    rw [hnil]
    exact Nat.zero_le 1

/-- The stage with the role of a source is the first. -/
theorem eq_stage_zero {v : ℕ} {stage : StageDefinition} (hstage : t.stages[v]? = some stage)
    (hrole : stage.role = .source) : v = c.stage 0 := by
  obtain ⟨i, hi, rfl⟩ := c.stage_surj v (List.getElem?_eq_some_iff.mp hstage).1
  obtain ⟨stage', hstage', hrole'⟩ := c.exists_stage hi
  obtain rfl := Option.some.inj (hstage.symm.trans hstage')
  rw [hrole] at hrole'
  by_cases h₀ : i = 0
  · rw [h₀]
  · rw [if_neg h₀] at hrole'
    split at hrole' <;> cases hrole'

/-- There is no router in a chain. -/
theorem role_ne_router {v : ℕ} {stage : StageDefinition} (hstage : t.stages[v]? = some stage) :
    stage.role ≠ .router := by
  obtain ⟨i, hi, rfl⟩ := c.stage_surj v (List.getElem?_eq_some_iff.mp hstage).1
  obtain ⟨stage', hstage', hrole'⟩ := c.exists_stage hi
  obtain rfl := Option.some.inj (hstage.symm.trans hstage')
  rw [hrole']
  split
  · simp
  · split <;> simp

/-- **The source runs only when all queues are empty.** -/
theorem queued_eq_zero_of_source (ht : t.Valid) (h : DriverInv t d) (hrun : d.state = .running)
    (he : d.nextReady = some e) (r : Round) (hfirst : e.stageIndex = c.stage 0) :
    queued d.streams = 0 := by
  obtain ⟨stage, hstage, -, -, hlater⟩ :=
    FlowDriver.nextReady_spec ht h.topology h.streamIndex h.streams.wired he r
  rw [queued_eq_zero_iff]
  intro s hs
  obtain ⟨si, hsi⟩ := List.mem_iff_getElem?.mp hs
  have hlt := (List.getElem?_eq_some_iff.mp hsi).1
  rw [h.streams.wired.length_eq] at hlt
  obtain ⟨i, hi, rfl⟩ := c.stream_surj si hlt
  rw [← lenAt_eq hsi]
  -- every stream feeds a stage behind the source
  have hrank : t.rank (c.stage 0) < t.rank (c.stage (i + 1)) :=
    c.rank_lt ht (Nat.succ_pos i) (by omega)
  refine downstream_empty ht h.streams (fun w stage' hw hk => hlater w stage' hw (hfirst ▸ hk))
    ?_ (c.links hi) hrank
  intro w stage' hw _ hempty _
  exact not_stuck_of_active (h.active hrun) hempty fun hrole => absurd hrole (c.role_ne_router hw)

/-- **One round** of a chain that holds at most one element. -/
theorem queued_step (ht : t.Valid) (h : d.state = .running ∨ d.state = .draining → DriverInv t d)
    (r : Round) (hone : queued d.streams ≤ 1) : queued (d.step r).streams ≤ 1 := by
  have heffect := d.step_effect r
  generalize d.step r = d' at heffect ⊢
  cases heffect with
  | quiet d' _ _ hquiet => exact hquiet.queued_eq.trans_le hone
  | executed e cancellation acted result d' hchosen hacted hquiet =>
      obtain ⟨hlive, he⟩ := FlowDriver.ready_of_chosen hchosen
      have hinv := h hlive
      obtain ⟨stage, hstage, -, hx, -⟩ :=
        FlowDriver.nextReady_spec ht hinv.topology hinv.streamIndex hinv.streams.wired he r
      have hstages := (List.getElem?_eq_some_iff.mp hstage).1
      have haddressed : (d.addressed r e).length ≤ 1 :=
        hx.pushed.length_le.trans (c.length_outputs_le hstages)
      have hle : queued acted.streams + (d.takenFrom e).toList.length ≤
          queued d.streams + (d.addressed r e).length := hacted.queued_le
      rw [hquiet.queued_eq, (FlowDriver.recordExecution_frame acted r e result).1]
      have htaken : queued d.streams = 0 ∨ (d.takenFrom e).toList.length = 1 := by
        rcases hlive with hrun | hdrain
        · rcases hx.taken with ⟨hrole, -, -⟩ | ⟨-, -, i, -, -, htaken⟩
          · exact .inl (c.queued_eq_zero_of_source ht hinv hrun he r (c.eq_stage_zero hstage hrole))
          · exact .inr (congrArg (·.toList.length) htaken)
        · obtain ⟨-, i, -, -, -, -, htaken, -⟩ := draining_takes ht hinv hdrain he r
          exact .inr (congrArg (·.toList.length) htaken)
      omega
  | finished =>
      have hempty : queued (d.finish r).streams = 0 := by
        rw [queued_eq_zero_iff]
        intro s hs
        obtain ⟨s, -, rfl⟩ := List.mem_map.mp hs
        exact s.queue.drainAll_spec.2
      omega

end Chain

/-! ## Runs -/

/-- No round changes the capacity of a stream. -/
theorem FlowDriver.capacityAt_step (d : FlowDriver) (r : Round) (si : ℕ) :
    capacityAt (d.step r).streams si = capacityAt d.streams si := by
  have hsteady : ∀ d' : FlowDriver, Steady d d' →
      capacityAt d'.streams si = capacityAt d.streams si := by
    intro d' hsteady
    cases hs : d.streams[si]? with
    | none =>
        have hs' : d'.streams[si]? = none := by
          rw [List.getElem?_eq_none_iff] at hs ⊢
          rw [hsteady.length_eq]
          exact hs
        simp [capacityAt, hs, hs']
    | some s =>
        obtain ⟨s', hs', -, -, -, hcap⟩ := hsteady.stream si s hs
        rw [capacityAt_eq hs, capacityAt_eq hs', hcap]
  have hchecks := d.step_checks r
  generalize d.step r = d' at hchecks ⊢
  cases hchecks with
  | steady d' h => exact hsteady d' h
  | checked d₁ h =>
      rw [(d₁.afterStage_frame r).1, (read_checkAll d₁.streams r.finish si).1]
      exact hsteady d₁ h

/-- **A chain holds at most one element**, in every state of every run: however many elements an
answer has, a stage of a chain feeds one stream.  A chain of which every stream has room for two
is therefore never under backpressure. -/
theorem chain_queued_le_one (f : SpawnedFlow) {m : ℕ} (c : Chain f.config.topology m)
    (rounds : List Round) :
    queued (f.run rounds).streams ≤ 1 ∧
      ((∀ s ∈ f.streams, 2 ≤ s.queue.capacity) →
        ∀ s ∈ (f.run rounds).streams, s.backpressure.isActive = false) := by
  obtain ⟨-, hspec⟩ := spawnStreamsFrom_spec f.built
  have hone : ∀ rounds, queued (f.run rounds).streams ≤ 1 := by
    intro rounds
    induction rounds using List.reverseRecOn with
    | nil =>
        have hempty : queued f.streams = 0 := by
          rw [queued_eq_zero_iff]
          intro s hs
          obtain ⟨si, hsi⟩ := List.mem_iff_getElem?.mp hs
          exact (hspec si s hsi).2.2.1
        exact hempty.trans_le (Nat.zero_le 1)
    | append_singleton rounds r ih =>
        rw [f.run_snoc]
        exact c.queued_step f.valid (f.inv_run rounds) r ih
  refine ⟨hone rounds, fun hcap => ?_⟩
  have hcapacity : ∀ rounds si, capacityAt (f.run rounds).streams si = capacityAt f.streams si := by
    intro rounds si
    induction rounds using List.reverseRecOn with
    | nil => rfl
    | append_singleton rounds r ih => rw [f.run_snoc, FlowDriver.capacityAt_step, ih]
  induction rounds using List.reverseRecOn with
  | nil =>
      intro s hs
      obtain ⟨si, hsi⟩ := List.mem_iff_getElem?.mp hs
      rw [(hspec si s hsi).2.2.2.1]
      rfl
  | append_singleton rounds r ih =>
      intro s' hs'
      have hlen := (len_le_queued hs').trans (hone (rounds ++ [r]))
      obtain ⟨si, hsi'⟩ := List.mem_iff_getElem?.mp hs'
      have hroom : 2 ≤ s'.queue.capacity := by
        have hlt := (List.getElem?_eq_some_iff.mp hsi').1
        have hsame := hcapacity (rounds ++ [r]) si
        rw [BuiltFlow.run, FlowDriver.length_run] at hlt
        have hs₀ : f.streams[si]? = some f.streams[si] := List.getElem?_eq_getElem hlt
        rw [capacityAt_eq hsi', capacityAt_eq hs₀] at hsame
        rw [hsame]
        exact hcap _ (List.getElem_mem hlt)
      rw [f.run_snoc] at hsi'
      have hlt := (List.getElem?_eq_some_iff.mp hsi').1
      rw [FlowDriver.length_step] at hlt
      have hs : (f.run rounds).streams[si]? = some (f.run rounds).streams[si] :=
        List.getElem?_eq_getElem hlt
      have hinactive := ih _ (List.getElem_mem hlt)
      by_contra hactive
      have hfull := (FlowDriver.changed_step _ r hs hsi').1 hinactive (by simpa using hactive)
      omega

end Torvyn.Reactor
