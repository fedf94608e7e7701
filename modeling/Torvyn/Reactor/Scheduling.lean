/-
# Demand-driven scheduling

`StreamIndex` and `DemandDrivenPolicy::next_ready_stage` of
`torvyn-reactor/src/scheduling.rs`: the stages are walked in reverse topological
order and the first one that can run is chosen.  `stageAction_cases` says when a
stage can run, and `nextReadyStage_spec` that no stage after the chosen one can.
-/
import Torvyn.Reactor.Topology

namespace Torvyn.Reactor

open Torvyn.Graph

/-! ## The stream index -/

/-- The streams into and out of each stage, and the stage that feeds each stream. -/
structure StreamIndex where
  inputs : ℕ → List ℕ
  outputs : ℕ → List ℕ
  producers : List ℕ

namespace StreamIndex

/-- `StreamIndex::build`: stream `i` belongs to the connection of index `i`. -/
def build (t : FlowTopology) : StreamIndex where
  inputs := bucket (fun p : StreamConnection × ℕ => p.1.toStage) (·.2) t.connections.zipIdx
  outputs := bucket (fun p : StreamConnection × ℕ => p.1.fromStage) (·.2) t.connections.zipIdx
  producers := t.connections.map StreamConnection.fromStage

variable {t : FlowTopology} {v si : ℕ}

theorem mem_inputs :
    si ∈ (build t).inputs v ↔ ∃ c, t.connections[si]? = some c ∧ c.toStage = v := by
  simp [build, mem_bucket, List.mk_mem_zipIdx_iff_getElem?, eq_comm]

theorem mem_outputs :
    si ∈ (build t).outputs v ↔ ∃ c, t.connections[si]? = some c ∧ c.fromStage = v := by
  simp [build, mem_bucket, List.mk_mem_zipIdx_iff_getElem?, eq_comm]

/-- No stream is listed twice among the outputs of a stage. -/
theorem outputs_nodup : ((build t).outputs v).Nodup := by
  simp only [build, bucket_apply]
  have hsub : ((t.connections.zipIdx.filter fun p => p.1.fromStage = v).map (·.2)).Sublist
      (t.connections.zipIdx.map (·.2)) := List.filter_sublist.map _
  refine hsub.nodup ?_
  rw [List.zipIdx_map_snd]
  exact List.nodup_range'

/-- A stage has an input stream exactly when something flows into it. -/
theorem inputs_eq_nil_iff : (build t).inputs v = [] ↔ t.inEdges v = [] := by
  rw [List.eq_nil_iff_forall_not_mem, List.eq_nil_iff_forall_not_mem]
  constructor
  · intro h u hu
    obtain ⟨c, hc, hto, -⟩ := FlowTopology.mem_inEdges.mp hu
    obtain ⟨i, hi⟩ := List.mem_iff_getElem?.mp hc
    exact h i (mem_inputs.mpr ⟨c, hi, hto⟩)
  · intro h i hi
    obtain ⟨c, hc, hto⟩ := mem_inputs.mp hi
    exact h c.fromStage (FlowTopology.mem_inEdges.mpr ⟨c, List.mem_of_getElem? hc, hto, rfl⟩)

/-- A stage has an output stream exactly when something flows out of it. -/
theorem outputs_eq_nil_iff : (build t).outputs v = [] ↔ t.outEdges v = [] := by
  rw [List.eq_nil_iff_forall_not_mem, List.eq_nil_iff_forall_not_mem]
  constructor
  · intro h u hu
    obtain ⟨c, hc, hfrom, -⟩ := FlowTopology.mem_outEdges.mp hu
    obtain ⟨i, hi⟩ := List.mem_iff_getElem?.mp hc
    exact h i (mem_outputs.mpr ⟨c, hi, hfrom⟩)
  · intro h i hi
    obtain ⟨c, hc, hfrom⟩ := mem_outputs.mp hi
    exact h c.toStage (FlowTopology.mem_outEdges.mpr ⟨c, List.mem_of_getElem? hc, hfrom, rfl⟩)

end StreamIndex

/-! ## The policy -/

/-- What the driver does with a stage. -/
inductive StageAction where
  | pullFromSource
  | processElement (inputStream : StreamId)
  | pushToSink (inputStream : StreamId)
  deriving DecidableEq, Repr

/-- What the scheduler tells the driver to do. -/
structure StageExecution where
  componentId : ComponentId
  stageIndex : ℕ
  action : StageAction
  deriving DecidableEq, Repr

/-- Whether the consumer of the stream of index `si` has input. -/
def hasInputAt (streams : List StreamState) (si : ℕ) : Bool :=
  streams[si]?.any StreamState.consumerHasInput

/-- Whether the producer of the stream of index `si` may produce. -/
def canProduceAt (streams : List StreamState) (si : ℕ) : Bool :=
  streams[si]?.any StreamState.producerCanProduce

/-- The first stream among the inputs of a stage that holds an element. -/
def firstInput (streams : List StreamState) (inputs : List ℕ) : Option StreamId :=
  (inputs.find? (hasInputAt streams)).bind fun si => streams[si]?.map StreamState.id

/-- The body of the loop of `next_ready_stage`: whether a stage can run, by its role.
A filter may run without room behind it. -/
def stageAction (streams : List StreamState) (index : StreamIndex) (stageIdx : ℕ)
    (role : ComponentRole) : Option StageAction :=
  let inputs := index.inputs stageIdx
  let outputs := index.outputs stageIdx
  match role with
  | .sink => (firstInput streams inputs).map .pushToSink
  | .processor | .filter =>
      let hasInput := inputs.any (hasInputAt streams)
      let hasOutputCapacity := outputs.all (canProduceAt streams)
      if hasInput && (hasOutputCapacity || role == .filter) then
        (firstInput streams inputs).map .processElement
      else none
  | .source =>
      if outputs.any (canProduceAt streams) then some .pullFromSource else none
  | .router =>
      let hasInput := inputs.any (hasInputAt streams)
      let hasOutputCapacity := outputs.any (canProduceAt streams)
      if hasInput && hasOutputCapacity then (firstInput streams inputs).map .processElement
      else none

/-- `next_ready_stage`: walk the stages in reverse topological order. -/
def nextReadyStage (t : FlowTopology) (streams : List StreamState) (index : StreamIndex) :
    Option StageExecution :=
  t.topologicalOrder.reverse.findSome? fun stageIdx =>
    t.stages[stageIdx]?.bind fun stage =>
      (stageAction streams index stageIdx stage.role).map fun action =>
        ⟨stage.componentId, stageIdx, action⟩

/-! ## Streams that belong to a topology -/

/-- There is one stream for each connection, and its id is its index. -/
structure Wired (t : FlowTopology) (streams : List StreamState) : Prop where
  length_eq : streams.length = t.connections.length
  id_eq : ∀ (si : ℕ) (s : StreamState), streams[si]? = some s → s.id = ⟨si⟩

/-- A stream of the index is one of the streams. -/
theorem Wired.exists_stream {t : FlowTopology} {streams : List StreamState}
    (h : Wired t streams) {si : ℕ} {c : StreamConnection} (hc : t.connections[si]? = some c) :
    ∃ s, streams[si]? = some s := by
  have hlt := (List.getElem?_eq_some_iff.mp hc).1
  rw [← h.length_eq] at hlt
  exact ⟨streams[si], List.getElem?_eq_getElem hlt⟩

theorem hasInputAt_of_getElem? {streams : List StreamState} {si : ℕ} {s : StreamState}
    (h : streams[si]? = some s) : hasInputAt streams si = true ↔ 0 < s.queue.len := by
  rw [hasInputAt, h, Option.any_some, StreamState.consumerHasInput, Bool.not_eq_true',
    ← Bool.not_eq_true, BoundedQueue.isEmpty_iff]
  omega

/-- A stream with input is one of the streams and holds an element. -/
theorem hasInputAt_iff {streams : List StreamState} {si : ℕ} :
    hasInputAt streams si = true ↔ ∃ s, streams[si]? = some s ∧ 0 < s.queue.len := by
  constructor
  · intro h
    obtain ⟨s, hs⟩ : ∃ s, streams[si]? = some s := by
      cases hs : streams[si]? with
      | none => simp [hasInputAt, hs] at h
      | some s => exact ⟨s, rfl⟩
    exact ⟨s, hs, (hasInputAt_of_getElem? hs).mp h⟩
  · rintro ⟨s, hs, hlen⟩
    exact (hasInputAt_of_getElem? hs).mpr hlen

theorem canProduceAt_of_getElem? {streams : List StreamState} {si : ℕ} {s : StreamState}
    (h : streams[si]? = some s) : canProduceAt streams si = s.producerCanProduce := by
  rw [canProduceAt, h, Option.any_some]

/-- With an element queued on some input, the first such stream is found. -/
theorem firstInput_eq_some {streams : List StreamState} {inputs : List ℕ} {id : StreamId}
    (hid : ∀ (si : ℕ) (s : StreamState), streams[si]? = some s → s.id = ⟨si⟩) (h : firstInput streams inputs = some id) :
    ∃ si ∈ inputs, hasInputAt streams si = true ∧ id = ⟨si⟩ := by
  obtain ⟨si, hfind, hmap⟩ := Option.bind_eq_some_iff.mp h
  obtain ⟨s, hs, rfl⟩ := Option.map_eq_some_iff.mp hmap
  exact ⟨si, List.mem_of_find?_eq_some hfind, List.find?_some hfind, hid si s hs⟩

theorem firstInput_isSome {streams : List StreamState} {inputs : List ℕ} {si : ℕ}
    (hsi : si ∈ inputs) (h : hasInputAt streams si = true) :
    ∃ id, firstInput streams inputs = some id := by
  obtain ⟨sj, hfind⟩ := Option.isSome_iff_exists.mp (List.find?_isSome.mpr ⟨si, hsi, h⟩)
  obtain ⟨s, hs, -⟩ := hasInputAt_iff.mp (List.find?_some hfind)
  exact ⟨s.id, by simp [firstInput, hfind, hs]⟩

/-! ## What the policy chooses -/

section Spec

variable {t : FlowTopology} {streams : List StreamState} {index : StreamIndex} {v : ℕ}
  {role : ComponentRole}

/-- A stage that nothing blocks on its output side, given its role. -/
def Unblocked (streams : List StreamState) (outputs : List ℕ) : ComponentRole → Prop
  | .sink | .filter => True
  | .processor => ∀ o ∈ outputs, canProduceAt streams o = true
  | .source | .router => ∃ o ∈ outputs, canProduceAt streams o = true

/-- **When a stage can run**: a source when it is unblocked, any other stage when it
has input as well. -/
theorem stageAction_eq_none_iff :
    stageAction streams index v role = none ↔
      (Unblocked streams (index.outputs v) role →
        role ≠ .source ∧ ∀ si ∈ index.inputs v, hasInputAt streams si = false) := by
  have hfirst : firstInput streams (index.inputs v) = none ↔
      ∀ si ∈ index.inputs v, hasInputAt streams si = false := by
    constructor
    · intro h si hsi
      by_contra hne
      obtain ⟨id, hid⟩ := firstInput_isSome hsi (by simpa using hne)
      rw [h] at hid
      cases hid
    · intro h
      rw [firstInput, List.find?_eq_none.mpr fun si hsi => by simp [h si hsi]]
      rfl
  cases role with
  | sink => simp [stageAction, Unblocked, hfirst]
  | filter =>
      simp only [stageAction, Unblocked, forall_const, beq_self_eq_true, Bool.or_true,
        Bool.and_true, ite_eq_right_iff, Option.map_eq_none_iff, hfirst, ne_eq, reduceCtorEq,
        not_false_eq_true, true_and]
      constructor
      · intro h si hsi
        by_contra hne
        exact hne (h (List.any_eq_true.mpr ⟨si, hsi, by simpa using hne⟩) si hsi)
      · exact fun h _ => h
  | processor =>
      have hbeq : (ComponentRole.processor == ComponentRole.filter) = false := rfl
      simp only [stageAction, Unblocked, hbeq, Bool.or_false, ite_eq_right_iff,
        Bool.and_eq_true, List.all_eq_true, Option.map_eq_none_iff, hfirst, ne_eq, reduceCtorEq,
        not_false_eq_true, true_and]
      constructor
      · intro h hall si hsi
        by_contra hne
        exact hne (h ⟨List.any_eq_true.mpr ⟨si, hsi, by simpa using hne⟩, hall⟩ si hsi)
      · exact fun h ⟨_, hall⟩ => h hall
  | source => simp [stageAction, Unblocked]
  | router =>
      simp only [stageAction, Unblocked, ite_eq_right_iff, Bool.and_eq_true, List.any_eq_true,
        Option.map_eq_none_iff, hfirst, ne_eq, reduceCtorEq, not_false_eq_true, true_and]
      constructor
      · intro h hany si hsi
        by_contra hne
        exact hne (h ⟨⟨si, hsi, by simpa using hne⟩, hany⟩ si hsi)
      · exact fun h ⟨_, hany⟩ => h hany

/-- **What a stage that can run does.** -/
theorem stageAction_cases (hid : ∀ (si : ℕ) (s : StreamState), streams[si]? = some s → s.id = ⟨si⟩)
    {action : StageAction} (h : stageAction streams index v role = some action) :
    Unblocked streams (index.outputs v) role ∧
      ((role = .source ∧ action = .pullFromSource) ∨
        ∃ si ∈ index.inputs v, hasInputAt streams si = true ∧
          ((role = .sink ∧ action = .pushToSink ⟨si⟩) ∨
            (role ≠ .source ∧ role ≠ .sink ∧ action = .processElement ⟨si⟩))) := by
  cases role with
  | sink =>
      obtain ⟨id, hfirst, rfl⟩ := Option.map_eq_some_iff.mp h
      obtain ⟨si, hsi, hin, rfl⟩ := firstInput_eq_some hid hfirst
      exact ⟨trivial, Or.inr ⟨si, hsi, hin, Or.inl ⟨rfl, rfl⟩⟩⟩
  | filter =>
      simp only [stageAction] at h
      split at h
      · obtain ⟨id, hfirst, rfl⟩ := Option.map_eq_some_iff.mp h
        obtain ⟨si, hsi, hin, rfl⟩ := firstInput_eq_some hid hfirst
        exact ⟨trivial, Or.inr ⟨si, hsi, hin, Or.inr ⟨by simp, by simp, rfl⟩⟩⟩
      · cases h
  | processor =>
      simp only [stageAction] at h
      split at h
      case isTrue hready =>
        have hbeq : (ComponentRole.processor == ComponentRole.filter) = false := rfl
        simp only [hbeq, Bool.or_false, Bool.and_eq_true, List.all_eq_true] at hready
        obtain ⟨id, hfirst, rfl⟩ := Option.map_eq_some_iff.mp h
        obtain ⟨si, hsi, hin, rfl⟩ := firstInput_eq_some hid hfirst
        exact ⟨hready.2, Or.inr ⟨si, hsi, hin, Or.inr ⟨by simp, by simp, rfl⟩⟩⟩
      case isFalse => cases h
  | source =>
      simp only [stageAction] at h
      split at h
      case isTrue hready =>
        exact ⟨List.any_eq_true.mp hready, Or.inl ⟨rfl, (Option.some.inj h).symm⟩⟩
      case isFalse => cases h
  | router =>
      simp only [stageAction] at h
      split at h
      case isTrue hready =>
        simp only [Bool.and_eq_true, List.any_eq_true] at hready
        obtain ⟨id, hfirst, rfl⟩ := Option.map_eq_some_iff.mp h
        obtain ⟨si, hsi, hin, rfl⟩ := firstInput_eq_some hid hfirst
        exact ⟨hready.2, Or.inr ⟨si, hsi, hin, Or.inr ⟨by simp, by simp, rfl⟩⟩⟩
      case isFalse => cases h

/-- When no stage is chosen, no stage can run. -/
theorem nextReadyStage_eq_none (ht : t.Valid) (h : nextReadyStage t streams index = none)
    {stage : StageDefinition} (hstage : t.stages[v]? = some stage) :
    stageAction streams index v stage.role = none := by
  have hv : v ∈ t.topologicalOrder.reverse := by
    rw [List.mem_reverse, ht.mem_order]
    exact (List.getElem?_eq_some_iff.mp hstage).1
  have := List.findSome?_eq_none_iff.mp h v hv
  rw [hstage, Option.bind_some, Option.map_eq_none_iff] at this
  exact this

/-- **The chosen stage can run, and no later stage of the order can.** -/
theorem nextReadyStage_spec (ht : t.Valid) {e : StageExecution}
    (h : nextReadyStage t streams index = some e) :
    ∃ stage, t.stages[e.stageIndex]? = some stage ∧ e.componentId = stage.componentId ∧
      stageAction streams index e.stageIndex stage.role = some e.action ∧
      ∀ w stage', t.stages[w]? = some stage' → t.rank e.stageIndex < t.rank w →
        stageAction streams index w stage'.role = none := by
  obtain ⟨l₁, u, l₂, hsplit, hu, hl₁⟩ := List.findSome?_eq_some_iff.mp h
  obtain ⟨stage, hstage, hmap⟩ := Option.bind_eq_some_iff.mp hu
  obtain ⟨action, haction, rfl⟩ := Option.map_eq_some_iff.mp hmap
  refine ⟨stage, hstage, rfl, haction, ?_⟩
  intro w stage' hw hrank
  -- the stages after `u` in the order are those the walk has passed
  have horder : t.topologicalOrder = l₂.reverse ++ u :: l₁.reverse := by
    rw [← List.reverse_reverse t.topologicalOrder, hsplit]
    simp
  have hmem : w ∈ t.topologicalOrder := by
    rw [ht.mem_order]
    exact (List.getElem?_eq_some_iff.mp hw).1
  have hnodup := ht.order_nodup
  have hrank' : t.rank w ≤ t.rank u ∨ w ∈ l₁ := by
    rw [horder, List.mem_append, List.mem_cons, List.mem_reverse, List.mem_reverse] at hmem
    rcases hmem with hmem | rfl | hmem
    · left
      have hmem' := List.mem_reverse.mpr hmem
      have hu' : u ∉ l₂.reverse := by
        rw [horder, List.nodup_append] at hnodup
        exact fun hin => hnodup.2.2 _ hin _ List.mem_cons_self rfl
      unfold FlowTopology.rank
      rw [horder, List.idxOf_append_of_mem hmem', List.idxOf_append_of_notMem hu']
      have := List.idxOf_lt_length_of_mem hmem'
      omega
    · exact Or.inl le_rfl
    · exact Or.inr hmem
  rcases hrank' with hle | hin
  · exact absurd hrank (not_lt.mpr hle)
  · have := hl₁ w hin
    rw [hw, Option.bind_some, Option.map_eq_none_iff] at this
    exact this

end Spec

end Torvyn.Reactor
