/-
# From pipelines to flows

The translation in `torvyn-pipeline/src/instantiate.rs` of a built pipeline into the
topology of a flow.  The two crates check their topologies separately; what the
builder has accepted, the reactor accepts (`pipeline_build_exact`).
-/
import Torvyn.Pipeline.Builder
import Torvyn.Reactor.Topology

namespace Torvyn.Pipeline

open Torvyn.Graph Relation Reactor

/-! ## The translation -/

/-- The id under which the component of a node is instantiated. -/
def componentIdOf (nodeIdx : ℕ) : ComponentId := ⟨min (nodeIdx + 1) u64Max⟩

/-- `stream_config_from_edge`. -/
def streamConfigFromEdge (ec : EdgeConfig) : StreamConfig :=
  ⟨ec.queueDepth, ec.backpressurePolicy, none⟩

/-- The topology of the flow that `instantiate_pipeline` registers. -/
def flowTopology (t : PipelineTopology) : FlowTopology where
  stages := t.nodes.zipIdx.map fun p => ⟨componentIdOf p.2, p.1.role⟩
  connections := t.edges.map fun e => ⟨e.fromNode, e.toNode, streamConfigFromEdge e.edgeConfig⟩

section Translation

variable {t : PipelineTopology}

@[simp] theorem length_stages : (flowTopology t).stages.length = t.nodes.length := by
  simp [flowTopology]

theorem stages_getElem? (idx : ℕ) : (flowTopology t).stages[idx]? =
    t.nodes[idx]?.map fun n => ⟨componentIdOf idx, n.role⟩ := by
  unfold flowTopology
  rw [List.getElem?_map, List.getElem?_zipIdx, Nat.zero_add, Option.map_map]
  rfl

theorem outEdges_flowTopology : (flowTopology t).outEdges = adj t.edges := by
  funext u
  unfold FlowTopology.outEdges adj flowTopology
  rw [bucket_apply, bucket_apply, List.filter_map, List.map_map]
  rfl

theorem inDegree_flowTopology : (flowTopology t).inDegree = Pipeline.inDegree t.edges := by
  funext v
  unfold FlowTopology.inDegree Pipeline.inDegree flowTopology
  rw [tally_apply, tally_apply, List.countP_map]
  rfl

theorem sourceStages_flowTopology : (flowTopology t).sourceStages = sourceNodes t.nodes := by
  unfold FlowTopology.sourceStages sourceNodes
  rw [length_stages]
  refine List.filter_congr fun idx _ => ?_
  rw [stages_getElem?, Option.any_map]

/-- **The reactor accepts what the builder has accepted.** -/
theorem valid_flowTopology (hsound : Sound t.nodes t.edges)
    (hbounds : ∀ e ∈ t.edges, e.fromNode < t.nodes.length ∧ e.toNode < t.nodes.length)
    (hloop : ∀ e ∈ t.edges, e.fromNode ≠ e.toNode) : (flowTopology t).Valid := by
  have hrole : ∀ {role : ComponentRole}, (∃ n ∈ t.nodes, n.role = role) →
      ∃ s ∈ (flowTopology t).stages, s.role = role := by
    rintro role ⟨n, hn, hrole⟩
    obtain ⟨i, hi⟩ := List.mem_iff_getElem?.mp hn
    refine ⟨⟨componentIdOf i, n.role⟩, List.mem_of_getElem? (i := i) ?_, hrole⟩
    rw [stages_getElem?, hi]
    rfl
  have hconn : ∀ P : ℕ → ℕ → Prop, (∀ e ∈ t.edges, P e.fromNode e.toNode) →
      ∀ c ∈ (flowTopology t).connections, P c.fromStage c.toStage := by
    intro P h c hc
    obtain ⟨e, he, rfl⟩ := List.mem_map.mp hc
    exact h e he
  have hnode : ∀ {idx : ℕ} {stage : StageDefinition}, (flowTopology t).stages[idx]? = some stage →
      ∃ n, t.nodes[idx]? = some n ∧ n.role = stage.role := by
    intro idx stage hstage
    rw [stages_getElem?] at hstage
    obtain ⟨n, hn, rfl⟩ := Option.map_eq_some_iff.mp hstage
    exact ⟨n, hn, rfl⟩
  refine ⟨hrole hsound.hasSource, hrole hsound.hasSink, ?_, hconn (· ≠ ·) hloop, ?_, ?_, ?_, ?_⟩
  · rw [length_stages]
    exact hconn (fun u v => u < t.nodes.length ∧ v < t.nodes.length) hbounds
  · intro idx stage hstage hsource
    obtain ⟨n, hn, hsame⟩ := hnode hstage
    refine List.eq_nil_iff_forall_not_mem.mpr fun u hu => ?_
    obtain ⟨c, hc, hto, -⟩ := FlowTopology.mem_inEdges.mp hu
    exact hconn (fun _ v => v ≠ idx) (hsound.sourceIn idx n hn (hsame.trans hsource)) c hc hto
  · intro idx stage hstage hsink
    obtain ⟨n, hn, hsame⟩ := hnode hstage
    refine List.eq_nil_iff_forall_not_mem.mpr fun u hu => ?_
    obtain ⟨c, hc, hfrom, -⟩ := FlowTopology.mem_outEdges.mp hu
    exact hconn (fun u _ => u ≠ idx) (hsound.sinkOut idx n hn (hsame.trans hsink)) c hc hfrom
  · unfold FlowTopology.topologicalOrder
    rw [length_stages, outEdges_flowTopology, inDegree_flowTopology]
    exact (kahnOrder_length_iff hbounds).mpr hsound.acyclic
  · intro idx hidx
    rw [length_stages] at hidx
    unfold FlowTopology.reachable
    rw [length_stages, outEdges_flowTopology, sourceStages_flowTopology]
    exact (visited_iff hbounds idx).mpr (hsound.reached idx hidx)

end Translation

/-- The execution order of what has been built lists its nodes. -/
theorem executionOrder_perm {order : PortOrder} {name : String} {calls : List BuilderCall}
    {t : PipelineTopology}
    (hbuilt : (PipelineTopologyBuilder.ofCalls name calls).build order = .ok t) :
    t.executionOrder.Perm (List.range t.nodes.length) := by
  obtain ⟨hnodes, hresolves, -, horder, hlength⟩ := PipelineTopologyBuilder.build_spec
    (PipelineTopologyBuilder.indexed_ofCalls name calls) hbuilt
  rw [horder] at hlength ⊢
  refine (kahnOrder_spec ?_ hlength).1
  rw [hnodes]
  exact PipelineTopologyBuilder.bounds_of_resolves hresolves

/-- **Building is exact and agrees with the reactor**: `build` succeeds exactly on the buildable
pipelines, its execution order lists the nodes with every edge forward, and the flow made of
the pipeline passes the checks of the reactor. -/
theorem pipeline_build_exact (order : PortOrder) (name : String) (calls : List BuilderCall) :
    ((∃ t, (PipelineTopologyBuilder.ofCalls name calls).build order = .ok t) ↔
      (PipelineTopologyBuilder.ofCalls name calls).Buildable) ∧
    ∀ t, (PipelineTopologyBuilder.ofCalls name calls).build order = .ok t →
      t.executionOrder.Perm (List.range t.nodes.length) ∧
      (∀ e ∈ t.edges,
        t.executionOrder.idxOf e.fromNode < t.executionOrder.idxOf e.toNode) ∧
      (flowTopology t).validate = .ok () := by
  have hindexed := PipelineTopologyBuilder.indexed_ofCalls name calls
  refine ⟨PipelineTopologyBuilder.build_ok_iff hindexed order, fun t ht => ?_⟩
  obtain ⟨hnodes, hresolves, hsound, horder, hlength⟩ :=
    PipelineTopologyBuilder.build_spec hindexed ht
  have hbounds : ∀ e ∈ t.edges, e.fromNode < t.nodes.length ∧ e.toNode < t.nodes.length := by
    rw [hnodes]
    exact PipelineTopologyBuilder.bounds_of_resolves hresolves
  rw [horder] at hlength ⊢
  obtain ⟨hperm, hforward⟩ := kahnOrder_spec hbounds hlength
  refine ⟨hperm, hforward, (FlowTopology.validate_eq_ok_iff _).mpr
    (valid_flowTopology hsound hbounds fun e he heq => ?_)⟩
  have hlt := hforward e he
  rw [heq] at hlt
  exact absurd hlt (Nat.lt_irrefl _)

end Torvyn.Pipeline
