/-
# The invariant of a run

What every reachable state of a driver satisfies, whatever the components answer and
whenever the flow is cancelled: each stream belongs to its connection and keeps its
credit, a stage completes its outputs only after its inputs are complete and empty,
and the outputs of a source complete together.  While the main loop runs, a stream
under backpressure holds an element.
-/
import Torvyn.Reactor.Execution

namespace Torvyn.Reactor

/-! ## Reading the streams -/

/-- The number of elements queued on the stream of index `si`. -/
def lenAt (streams : List StreamState) (si : ℕ) : ℕ := (streams[si]?.map (·.queue.len)).getD 0

/-- The capacity of the stream of index `si`. -/
def capacityAt (streams : List StreamState) (si : ℕ) : ℕ :=
  (streams[si]?.map (·.queue.capacity)).getD 0

/-- Whether the stream of index `si` is under backpressure. -/
def activeAt (streams : List StreamState) (si : ℕ) : Bool :=
  streams[si]?.any (·.backpressure.isActive)

/-- Whether the producer of the stream of index `si` is done. -/
def completeAt (streams : List StreamState) (si : ℕ) : Bool :=
  streams[si]?.any (·.producerComplete)

section Read

variable {streams : List StreamState} {si : ℕ} {s : StreamState} (hs : streams[si]? = some s)
include hs

theorem lenAt_eq : lenAt streams si = s.queue.len := by simp [lenAt, hs]

theorem capacityAt_eq : capacityAt streams si = s.queue.capacity := by simp [capacityAt, hs]

theorem activeAt_eq : activeAt streams si = s.backpressure.isActive := by simp [activeAt, hs]

theorem completeAt_eq : completeAt streams si = s.producerComplete := by simp [completeAt, hs]

end Read

theorem hasInputAt_eq_true_iff {streams : List StreamState} {si : ℕ} :
    hasInputAt streams si = true ↔ 0 < lenAt streams si := by
  cases hs : streams[si]? with
  | none => simp [hasInputAt, lenAt, hs]
  | some s => rw [hasInputAt_of_getElem? hs, lenAt_eq hs]

/-- With credit, a stream is producible when it is not complete, has room and is not
under backpressure. -/
theorem canProduceAt_iff {streams : List StreamState} {si : ℕ}
    (hcredit : ∀ s ∈ streams, s.Credit) (hlt : si < streams.length) :
    canProduceAt streams si = true ↔ completeAt streams si = false ∧
      lenAt streams si < capacityAt streams si ∧ activeAt streams si = false := by
  have hs : streams[si]? = some streams[si] := List.getElem?_eq_getElem hlt
  rw [canProduceAt_of_getElem? hs, completeAt_eq hs, lenAt_eq hs, capacityAt_eq hs, activeAt_eq hs,
    StreamState.producerCanProduce_iff (hcredit _ (List.getElem_mem hlt)), ← Bool.not_eq_true,
    ← Bool.not_eq_true, BoundedQueue.isFull_iff]
  have hle := streams[si].queue.len_le
  constructor
  · rintro ⟨hc, hf, hb⟩
    exact ⟨by simpa using hc, by omega, hb⟩
  · rintro ⟨hc, hf, hb⟩
    exact ⟨by simpa using hc, by omega, hb⟩

theorem capacityAt_pos {streams : List StreamState} {si : ℕ} (hlt : si < streams.length) :
    0 < capacityAt streams si := by
  rw [capacityAt_eq (List.getElem?_eq_getElem hlt)]
  exact BoundedQueue.capacity_pos _

theorem lenAt_le_capacityAt (streams : List StreamState) (si : ℕ) :
    lenAt streams si ≤ capacityAt streams si := by
  cases hs : streams[si]? with
  | none => simp [lenAt, capacityAt, hs]
  | some s =>
      rw [lenAt_eq hs, capacityAt_eq hs]
      exact s.queue.len_le

/-! ## How the steps of a round change the streams -/

section Applies

variable {x : Transfer} {streams streams' : List StreamState} (h : x.Applies streams streams')
  {si : ℕ} (hlt : si < streams.length)
include h hlt

/-- A transfer seen through the accessors. -/
theorem Transfer.Applies.read :
    capacityAt streams' si = capacityAt streams si ∧ activeAt streams' si = activeAt streams si ∧
      completeAt streams' si = (completeAt streams si || decide (si ∈ x.completed)) ∧
      lenAt streams' si = if si ∈ x.pushed then
        min (lenAt streams si - (if x.taken = some si then 1 else 0) + 1) (capacityAt streams si)
      else lenAt streams si - if x.taken = some si then 1 else 0 := by
  have hs : streams[si]? = some streams[si] := List.getElem?_eq_getElem hlt
  obtain ⟨s', hs', hmoves⟩ := h.stream si _ hs
  rw [capacityAt_eq hs, capacityAt_eq hs', activeAt_eq hs, activeAt_eq hs', completeAt_eq hs,
    completeAt_eq hs', lenAt_eq hs, lenAt_eq hs', hmoves.capacity_eq, hmoves.backpressure_eq,
    hmoves.complete_eq, hmoves.len_eq]
  exact ⟨rfl, rfl, rfl, rfl⟩

end Applies

/-- Streams of which some have been marked complete. -/
structure Marks (marked : ℕ → Prop) (streams streams' : List StreamState) : Prop where
  length_eq : streams'.length = streams.length
  stream : ∀ (si : ℕ) (s : StreamState), streams[si]? = some s →
    (marked si ∧ streams'[si]? = some s.markComplete) ∨ (¬marked si ∧ streams'[si]? = some s)

/-- Marking seen through the accessors. -/
theorem Marks.read {marked : ℕ → Prop} {streams streams' : List StreamState}
    (h : Marks marked streams streams') {si : ℕ} (hlt : si < streams.length) :
    capacityAt streams' si = capacityAt streams si ∧ activeAt streams' si = activeAt streams si ∧
      lenAt streams' si = lenAt streams si ∧
      (completeAt streams' si = true ↔ completeAt streams si = true ∨ marked si) := by
  have hs : streams[si]? = some streams[si] := List.getElem?_eq_getElem hlt
  rcases h.stream si _ hs with ⟨hm, hs'⟩ | ⟨hm, hs'⟩
  · rw [capacityAt_eq hs, capacityAt_eq hs', activeAt_eq hs, activeAt_eq hs', completeAt_eq hs,
      completeAt_eq hs', lenAt_eq hs, lenAt_eq hs']
    exact ⟨rfl, rfl, rfl, by simp [hm, StreamState.markComplete]⟩
  · rw [capacityAt_eq hs, capacityAt_eq hs', activeAt_eq hs, activeAt_eq hs', completeAt_eq hs,
      completeAt_eq hs', lenAt_eq hs, lenAt_eq hs']
    exact ⟨rfl, rfl, rfl, by simp [hm]⟩

theorem FlowDriver.marks_markComplete (d : FlowDriver) (sis : List ℕ) :
    Marks (· ∈ sis) d.streams (d.markComplete sis).streams where
  length_eq := length_markComplete sis d
  stream := by
    intro si s hs
    rw [getElem?_markComplete, hs, Option.map_some]
    by_cases h : si ∈ sis
    · exact Or.inl ⟨h, by rw [if_pos h]⟩
    · exact Or.inr ⟨h, by rw [if_neg h]⟩

/-- The streams after a backpressure check. -/
def checkAll (streams : List StreamState) (now : ℕ) : List StreamState :=
  streams.map fun s => (s.checkBackpressure now).2

/-- A backpressure check seen through the accessors. -/
theorem read_checkAll (streams : List StreamState) (now si : ℕ) :
    capacityAt (checkAll streams now) si = capacityAt streams si ∧
      lenAt (checkAll streams now) si = lenAt streams si ∧
      completeAt (checkAll streams now) si = completeAt streams si ∧
      (activeAt (checkAll streams now) si = true → 0 < lenAt streams si) := by
  have hget : (checkAll streams now)[si]? =
      streams[si]?.map fun s => (s.checkBackpressure now).2 := by
    simp [checkAll]
  cases hs : streams[si]? with
  | none =>
      rw [hs, Option.map_none] at hget
      simp [capacityAt, lenAt, completeAt, activeAt, hget, hs]
  | some s =>
      rw [hs, Option.map_some] at hget
      obtain ⟨-, hqueue, -, hcomplete, -⟩ := s.checkBackpressure_frame now
      rw [capacityAt_eq hs, capacityAt_eq hget, lenAt_eq hs, lenAt_eq hget, completeAt_eq hs,
        completeAt_eq hget, activeAt_eq hget, hqueue, hcomplete]
      exact ⟨rfl, rfl, rfl, s.pos_of_isActive_checkBackpressure now⟩

/-! ## The invariant of the streams -/

/-- A stage's index lists in terms of one stream: its producer is unique. -/
theorem StreamIndex.outputs_inj {t : FlowTopology} {u v si : ℕ}
    (hu : si ∈ (StreamIndex.build t).outputs u) (hv : si ∈ (StreamIndex.build t).outputs v) :
    u = v := by
  obtain ⟨c, hc, rfl⟩ := mem_outputs.mp hu
  obtain ⟨c', hc', rfl⟩ := mem_outputs.mp hv
  rw [Option.some.inj (hc.symm.trans hc')]

theorem StreamIndex.inputs_inj {t : FlowTopology} {u v si : ℕ}
    (hu : si ∈ (StreamIndex.build t).inputs u) (hv : si ∈ (StreamIndex.build t).inputs v) :
    u = v := by
  obtain ⟨c, hc, rfl⟩ := mem_inputs.mp hu
  obtain ⟨c', hc', rfl⟩ := mem_inputs.mp hv
  rw [Option.some.inj (hc.symm.trans hc')]

/-- What the streams of a topology satisfy throughout a run. -/
structure StreamsInv (t : FlowTopology) (streams : List StreamState) : Prop where
  wired : Wired t streams
  credit : ∀ s ∈ streams, s.Credit
  downstream : ∀ v, (StreamIndex.build t).inputs v ≠ [] →
    ∀ o ∈ (StreamIndex.build t).outputs v, completeAt streams o = true →
      ∀ i ∈ (StreamIndex.build t).inputs v, completeAt streams i = true ∧ lenAt streams i = 0
  source : ∀ v, (StreamIndex.build t).inputs v = [] →
    ∀ o ∈ (StreamIndex.build t).outputs v, completeAt streams o = true →
      ∀ o' ∈ (StreamIndex.build t).outputs v, completeAt streams o' = true

section StreamsInv

variable {t : FlowTopology} {streams : List StreamState}

/-- The streams of the index are connections, and so streams. -/
theorem StreamIndex.lt_of_mem_outputs {v si : ℕ} (hsi : si ∈ (StreamIndex.build t).outputs v) :
    si < t.connections.length := by
  obtain ⟨c, hc, -⟩ := StreamIndex.mem_outputs.mp hsi
  exact (List.getElem?_eq_some_iff.mp hc).1

theorem StreamIndex.lt_of_mem_inputs {v si : ℕ} (hsi : si ∈ (StreamIndex.build t).inputs v) :
    si < t.connections.length := by
  obtain ⟨c, hc, -⟩ := StreamIndex.mem_inputs.mp hsi
  exact (List.getElem?_eq_some_iff.mp hc).1

theorem Wired.lt_of_mem_outputs (h : Wired t streams) {v si : ℕ}
    (hsi : si ∈ (StreamIndex.build t).outputs v) : si < streams.length :=
  h.length_eq ▸ StreamIndex.lt_of_mem_outputs hsi

theorem Wired.lt_of_mem_inputs (h : Wired t streams) {v si : ℕ}
    (hsi : si ∈ (StreamIndex.build t).inputs v) : si < streams.length :=
  h.length_eq ▸ StreamIndex.lt_of_mem_inputs hsi

/-- Marking keeps the invariant when it marks the outputs of stages whose inputs are
complete and empty, and the outputs of a source all together. -/
theorem StreamsInv.marks {streams' : List StreamState} {marked : ℕ → Prop}
    (h : StreamsInv t streams) (hm : Marks marked streams streams')
    (hdown : ∀ v, (StreamIndex.build t).inputs v ≠ [] →
      ∀ o ∈ (StreamIndex.build t).outputs v, marked o →
        ∀ i ∈ (StreamIndex.build t).inputs v, completeAt streams i = true ∧ lenAt streams i = 0)
    (hsource : ∀ v, (StreamIndex.build t).inputs v = [] →
      ∀ o ∈ (StreamIndex.build t).outputs v, marked o →
        ∀ o' ∈ (StreamIndex.build t).outputs v, marked o') :
    StreamsInv t streams' := by
  have hsome : ∀ (si : ℕ) (s' : StreamState), streams'[si]? = some s' →
      ∃ s, streams[si]? = some s ∧ (s' = s.markComplete ∨ s' = s) := by
    intro si s' hs'
    have hlt := (List.getElem?_eq_some_iff.mp hs').1
    rw [hm.length_eq] at hlt
    have hs : streams[si]? = some streams[si] := List.getElem?_eq_getElem hlt
    refine ⟨_, hs, ?_⟩
    rcases hm.stream si _ hs with ⟨-, hs''⟩ | ⟨-, hs''⟩
    · exact Or.inl (Option.some.inj (hs'.symm.trans hs''))
    · exact Or.inr (Option.some.inj (hs'.symm.trans hs''))
  constructor
  · refine ⟨hm.length_eq.trans h.wired.length_eq, fun si s' hs' => ?_⟩
    obtain ⟨s, hs, rfl | rfl⟩ := hsome si s' hs'
    · exact h.wired.id_eq si s hs
    · exact h.wired.id_eq si _ hs
  · intro s' hs'
    obtain ⟨si, hsi⟩ := List.mem_iff_getElem?.mp hs'
    obtain ⟨s, hs, rfl | rfl⟩ := hsome si s' hsi
    · have := h.credit s (List.mem_of_getElem? hs)
      exact ⟨this.law, this.bound⟩
    · exact h.credit _ (List.mem_of_getElem? hs)
  · intro v hv o ho hcomplete i hi
    obtain ⟨-, -, -, hread⟩ := hm.read (h.wired.lt_of_mem_outputs ho)
    obtain ⟨-, -, hlen, hread'⟩ := hm.read (h.wired.lt_of_mem_inputs hi)
    have hin : completeAt streams i = true ∧ lenAt streams i = 0 := by
      rcases hread.mp hcomplete with hc | hmo
      · exact h.downstream v hv o ho hc i hi
      · exact hdown v hv o ho hmo i hi
    exact ⟨hread'.mpr (Or.inl hin.1), by rw [hlen, hin.2]⟩
  · intro v hv o ho hcomplete o' ho'
    obtain ⟨-, -, -, hread⟩ := hm.read (h.wired.lt_of_mem_outputs ho)
    obtain ⟨-, -, -, hread'⟩ := hm.read (h.wired.lt_of_mem_outputs ho')
    rw [hread']
    rcases hread.mp hcomplete with hc | hmo
    · exact Or.inl (h.source v hv o ho hc o' ho')
    · exact Or.inr (hsource v hv o ho hmo o' ho')

/-- A backpressure check keeps the invariant. -/
theorem StreamsInv.checkAll (h : StreamsInv t streams) (now : ℕ) :
    StreamsInv t (checkAll streams now) := by
  have hmem : ∀ s' ∈ Reactor.checkAll streams now, ∃ s ∈ streams, s' = (s.checkBackpressure now).2 := by
    intro s' hs'
    obtain ⟨s, hs, rfl⟩ := List.mem_map.mp hs'
    exact ⟨s, hs, rfl⟩
  constructor
  · refine ⟨by rw [Reactor.checkAll, List.length_map, h.wired.length_eq], fun si s' hs' => ?_⟩
    rw [Reactor.checkAll, List.getElem?_map] at hs'
    obtain ⟨s, hs, rfl⟩ := Option.map_eq_some_iff.mp hs'
    rw [(s.checkBackpressure_frame now).1]
    exact h.wired.id_eq si s hs
  · intro s' hs'
    obtain ⟨s, hs, rfl⟩ := hmem s' hs'
    obtain ⟨-, hqueue, hdemand, -, -⟩ := s.checkBackpressure_frame now
    have hc := h.credit s hs
    exact ⟨by rw [hqueue, hdemand, hc.law], by rw [hqueue]; exact hc.bound⟩
  · intro v hv o ho hcomplete i hi
    rw [(read_checkAll streams now o).2.2.1] at hcomplete
    rw [(read_checkAll streams now i).2.2.1, (read_checkAll streams now i).2.1]
    exact h.downstream v hv o ho hcomplete i hi
  · intro v hv o ho hcomplete o' ho'
    rw [(read_checkAll streams now o).2.2.1] at hcomplete
    rw [(read_checkAll streams now o').2.2.1]
    exact h.source v hv o ho hcomplete o' ho'

/-- What the transfer of a stage that can run has to do with the stage: a source takes
nothing, any other stage takes from an input that holds an element, and only an
unblocked source completes its outputs. -/
structure StageTransfer (t : FlowTopology) (streams : List StreamState) (v : ℕ)
    (stage : StageDefinition) (x : Transfer) : Prop where
  pushed : x.pushed.Sublist ((StreamIndex.build t).outputs v)
  unblocked : Unblocked streams ((StreamIndex.build t).outputs v) stage.role
  taken : (stage.role = .source ∧ x.taken = none ∧
      (x.completed = [] ∨ x.completed = (StreamIndex.build t).outputs v)) ∨
    (stage.role ≠ .source ∧ x.completed = [] ∧
      ∃ i ∈ (StreamIndex.build t).inputs v, 0 < lenAt streams i ∧ x.taken = some i)

/-- **The execution of a stage keeps the invariant.** -/
theorem StreamsInv.applies (h : StreamsInv t streams) (ht : t.Valid) {streams' : List StreamState}
    {v : ℕ} {stage : StageDefinition} (hstage : t.stages[v]? = some stage) {x : Transfer}
    (hx : StageTransfer t streams v stage x) (happ : x.Applies streams streams') :
    StreamsInv t streams' := by
  have hsome : ∀ (si : ℕ) (s' : StreamState), streams'[si]? = some s' →
      ∃ s, streams[si]? = some s ∧ x.Moves si s s' := by
    intro si s' hs'
    have hlt := (List.getElem?_eq_some_iff.mp hs').1
    rw [happ.length_eq] at hlt
    obtain ⟨s'', hs'', hmoves⟩ := happ.stream si _ (List.getElem?_eq_getElem hlt)
    obtain rfl := Option.some.inj (hs'.symm.trans hs'')
    exact ⟨_, List.getElem?_eq_getElem hlt, hmoves⟩
  have hinputs : stage.role = .source ↔ (StreamIndex.build t).inputs v = [] := by
    rw [StreamIndex.inputs_eq_nil_iff]
    exact ⟨ht.sourceIn v stage hstage, ht.role_of_inEdges_nil hstage⟩
  -- a stage that runs has an output that is not complete, or none at all
  have hopen : ∀ o ∈ (StreamIndex.build t).outputs v, completeAt streams o = false := by
    intro o ho
    by_contra hne
    have hcomplete : completeAt streams o = true := by simpa using hne
    rcases hx.taken with ⟨hrole, -, -⟩ | ⟨hrole, -, i, hi, hpos, -⟩
    · have hun := hx.unblocked
      rw [hrole] at hun
      obtain ⟨o', ho', hcan⟩ := hun
      have := h.source v (hinputs.mp hrole) o ho hcomplete o' ho'
      rw [canProduceAt_iff h.credit (h.wired.lt_of_mem_outputs ho'), this] at hcan
      exact absurd hcan.1 (by simp)
    · have := (h.downstream v (fun hnil => hrole (hinputs.mpr hnil)) o ho hcomplete i hi).2
      omega
  constructor
  · refine ⟨happ.length_eq.trans h.wired.length_eq, fun si s' hs' => ?_⟩
    obtain ⟨s, hs, hmoves⟩ := hsome si s' hs'
    rw [hmoves.id_eq]
    exact h.wired.id_eq si s hs
  · intro s' hs'
    obtain ⟨si, hsi⟩ := List.mem_iff_getElem?.mp hs'
    obtain ⟨s, hs, hmoves⟩ := hsome si s' hsi
    exact hmoves.credit (h.credit s (List.mem_of_getElem? hs))
  · intro u hu o ho hcomplete i hi
    obtain ⟨-, -, hread, -⟩ := happ.read (h.wired.lt_of_mem_outputs ho)
    obtain ⟨-, -, hread', hlen⟩ := happ.read (h.wired.lt_of_mem_inputs hi)
    have hc : completeAt streams o = true := by
      rw [hread, Bool.or_eq_true, decide_eq_true_eq] at hcomplete
      refine hcomplete.resolve_right fun hmem => ?_
      rcases hx.taken with ⟨hrole, -, hnil | houts⟩ | ⟨-, hnil, -⟩
      · simp [hnil] at hmem
      · rw [houts] at hmem
        exact hu (StreamIndex.outputs_inj ho hmem ▸ hinputs.mp hrole)
      · simp [hnil] at hmem
    obtain ⟨hci, hzero⟩ := h.downstream u hu o ho hc i hi
    refine ⟨by rw [hread', hci, Bool.true_or], ?_⟩
    have hnot : i ∉ x.pushed := by
      intro hmem
      have := hopen i (hx.pushed.subset hmem)
      rw [hci] at this
      cases this
    rw [hlen, if_neg hnot, hzero, Nat.zero_sub]
  · intro u hu o ho hcomplete o' ho'
    obtain ⟨-, -, hread, -⟩ := happ.read (h.wired.lt_of_mem_outputs ho)
    obtain ⟨-, -, hread', -⟩ := happ.read (h.wired.lt_of_mem_outputs ho')
    rw [hread, Bool.or_eq_true, decide_eq_true_eq] at hcomplete
    rw [hread', Bool.or_eq_true, decide_eq_true_eq]
    rcases hcomplete with hc | hmem
    · exact Or.inl (h.source u hu o ho hc o' ho')
    · right
      rcases hx.taken with ⟨-, -, hnil | houts⟩ | ⟨-, hnil, -⟩
      · simp [hnil] at hmem
      · rw [houts] at hmem ⊢
        rwa [← StreamIndex.outputs_inj ho hmem]
      · simp [hnil] at hmem

end StreamsInv

end Torvyn.Reactor
