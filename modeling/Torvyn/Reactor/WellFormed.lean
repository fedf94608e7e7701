/-
# What topology validation decides

`FlowTopology::validate` of `torvyn-reactor/src/topology.rs` computes with tables: adjacency
lists, counted degrees, a worklist of stages without open connections and another one for
the search from the sources.  `WellFormed` says in terms of the graph alone what a flow
needs, and `validate` decides it exactly.  For a well-formed topology the order of the
stages is complete and every connection goes forward in it.

In-degrees are natural numbers here; the source counts them in 32 bits.
-/
import Torvyn.Reactor.Topology
import Torvyn.Graph.Acyclic

namespace Torvyn.Reactor

open Torvyn.Graph Relation

namespace FlowTopology

/-! ## Well-formed topologies -/

/-- Some connection goes from stage `u` to stage `v`. -/
def Flows (t : FlowTopology) (u v : ℕ) : Prop :=
  ∃ c ∈ t.connections, c.fromStage = u ∧ c.toStage = v

/-- The stage of index `i` has the role `r`. -/
def HasRole (t : FlowTopology) (r : ComponentRole) (i : ℕ) : Prop :=
  ∃ s, t.stages[i]? = some s ∧ s.role = r

/-- What a flow needs of its graph. -/
structure WellFormed (t : FlowTopology) : Prop where
  nonempty : t.stages ≠ []
  hasSource : ∃ i, t.HasRole .source i
  hasSink : ∃ i, t.HasRole .sink i
  bounds : ∀ c ∈ t.connections, c.fromStage < t.stages.length ∧ c.toStage < t.stages.length
  noLoop : ∀ c ∈ t.connections, c.fromStage ≠ c.toStage
  sourceIn : ∀ c ∈ t.connections, ¬ t.HasRole .source c.toStage
  sinkOut : ∀ c ∈ t.connections, ¬ t.HasRole .sink c.fromStage
  acyclic : Acyclic t.Flows
  reached : ∀ i < t.stages.length, ∃ s, t.HasRole .source s ∧ ReflTransGen t.Flows s i

variable {t : FlowTopology}

/-! ## The tables and the graph -/

/-- The adjacency lists hold the connections. -/
theorem edge_outEdges : Edge t.outEdges = t.Flows := by
  funext u v
  exact propext mem_outEdges

/-- Some stage has a role. -/
theorem exists_hasRole_iff {r : ComponentRole} :
    (∃ i, t.HasRole r i) ↔ ∃ s ∈ t.stages, s.role = r := by
  constructor
  · rintro ⟨i, s, hs, hr⟩
    exact ⟨s, List.mem_of_getElem? hs, hr⟩
  · rintro ⟨s, hs, hr⟩
    obtain ⟨i, hi⟩ := List.mem_iff_getElem?.mp hs
    exact ⟨i, s, hi, hr⟩

/-- The search starts at the sources. -/
theorem mem_sourceStages {i : ℕ} : i ∈ t.sourceStages ↔ t.HasRole .source i := by
  unfold sourceStages HasRole
  rw [List.mem_filter, List.mem_range]
  constructor
  · rintro ⟨-, hs⟩
    cases hstage : t.stages[i]? with
    | none => simp [hstage] at hs
    | some s => exact ⟨s, rfl, by simpa [hstage] using hs⟩
  · rintro ⟨s, hstage, hr⟩
    exact ⟨(List.getElem?_eq_some_iff.mp hstage).1, by simp [hstage, hr]⟩

/-- Sources have no incoming connections, read off the table or off the connections. -/
theorem inEdges_nil_iff : (∀ idx stage, t.stages[idx]? = some stage → stage.role = .source →
    t.inEdges idx = []) ↔ ∀ c ∈ t.connections, ¬ t.HasRole .source c.toStage := by
  constructor
  · rintro h c hc ⟨s, hs, hr⟩
    have hmem : c.fromStage ∈ t.inEdges c.toStage := mem_inEdges.mpr ⟨c, hc, rfl, rfl⟩
    rw [h _ s hs hr] at hmem
    exact List.not_mem_nil hmem
  · intro h idx stage hstage hr
    apply List.eq_nil_iff_forall_not_mem.mpr
    intro u hu
    obtain ⟨c, hc, rfl, -⟩ := mem_inEdges.mp hu
    exact h c hc ⟨stage, hstage, hr⟩

/-- Sinks have no outgoing connections. -/
theorem outEdges_nil_iff : (∀ idx stage, t.stages[idx]? = some stage → stage.role = .sink →
    t.outEdges idx = []) ↔ ∀ c ∈ t.connections, ¬ t.HasRole .sink c.fromStage := by
  constructor
  · rintro h c hc ⟨s, hs, hr⟩
    have hmem : c.toStage ∈ t.outEdges c.fromStage := mem_outEdges.mpr ⟨c, hc, rfl, rfl⟩
    rw [h _ s hs hr] at hmem
    exact List.not_mem_nil hmem
  · intro h idx stage hstage hr
    apply List.eq_nil_iff_forall_not_mem.mpr
    intro v hv
    obtain ⟨c, hc, rfl, -⟩ := mem_outEdges.mp hv
    exact h c hc ⟨stage, hstage, hr⟩

section Bounds

variable (hbounds : ∀ c ∈ t.connections, c.fromStage < t.stages.length ∧
  c.toStage < t.stages.length)
include hbounds

/-- Kahn's algorithm orders all stages exactly when the graph is acyclic. -/
theorem topologicalOrder_length_iff :
    t.topologicalOrder.length = t.stages.length ↔ Acyclic t.Flows := by
  have hedge : ∀ u w, w ∈ t.outEdges u →
      u ∈ List.range t.stages.length ∧ w ∈ List.range t.stages.length := by
    intro u w hw
    obtain ⟨c, hc, rfl, rfl⟩ := mem_outEdges.mp hw
    exact ⟨List.mem_range.mpr (hbounds c hc).1, List.mem_range.mpr (hbounds c hc).2⟩
  have hdeg : ∀ w, t.inDegree w = openDegree (List.range t.stages.length) t.outEdges [] w :=
    fun w => openDegree_bucket (fun c hc => List.mem_range.mpr (hbounds c hc).1) w
  have h := kahn_length_iff List.nodup_range hedge hdeg
  rw [List.length_range, edge_outEdges] at h
  exact h

/-- The search reaches the stages on a path from a source. -/
theorem reachable_iff (i : ℕ) :
    t.reachable i = true ↔ ∃ s, t.HasRole .source s ∧ ReflTransGen t.Flows s i := by
  have hsucc : ∀ u ∈ List.range t.stages.length, ∀ w ∈ t.outEdges u,
      w ∈ List.range t.stages.length := by
    intro u _ w hw
    obtain ⟨c, hc, -, rfl⟩ := mem_outEdges.mp hw
    exact List.mem_range.mpr (hbounds c hc).2
  have hroots : t.sourceStages.Nodup := List.nodup_range.filter _
  have h := search_iff hsucc hroots (fun r hr => (List.mem_filter.mp hr).1) i
  rw [edge_outEdges] at h
  simp only [mem_sourceStages] at h
  exact h

end Bounds

/-- The conditions that `validate` computes are those on the graph. -/
theorem valid_iff_wellFormed : t.Valid ↔ t.WellFormed := by
  constructor
  · intro h
    obtain ⟨s, hs, -⟩ := h.hasSource
    exact {
      nonempty := List.ne_nil_of_mem hs
      hasSource := exists_hasRole_iff.mpr h.hasSource
      hasSink := exists_hasRole_iff.mpr h.hasSink
      bounds := h.bounds
      noLoop := h.noLoop
      sourceIn := inEdges_nil_iff.mp h.sourceIn
      sinkOut := outEdges_nil_iff.mp h.sinkOut
      acyclic := (topologicalOrder_length_iff h.bounds).mp h.acyclic
      reached := fun i hi => (reachable_iff h.bounds i).mp (h.reached i hi) }
  · intro h
    exact {
      hasSource := exists_hasRole_iff.mp h.hasSource
      hasSink := exists_hasRole_iff.mp h.hasSink
      bounds := h.bounds
      noLoop := h.noLoop
      sourceIn := inEdges_nil_iff.mpr h.sourceIn
      sinkOut := outEdges_nil_iff.mpr h.sinkOut
      acyclic := (topologicalOrder_length_iff h.bounds).mpr h.acyclic
      reached := fun i hi => (reachable_iff h.bounds i).mpr (h.reached i hi) }

/-- **`validate` is exact.**  It accepts the well-formed topologies and no others, and for
these the topological order lists every stage once with all connections going forward. -/
theorem validate_exact (t : FlowTopology) :
    (t.validate = .ok () ↔ t.WellFormed) ∧
      (t.validate = .ok () → t.topologicalOrder.Perm (List.range t.stages.length) ∧
        ∀ c ∈ t.connections, t.topologicalOrder.idxOf c.fromStage <
          t.topologicalOrder.idxOf c.toStage) := by
  refine ⟨(validate_eq_ok_iff t).trans valid_iff_wellFormed, fun hok => ?_⟩
  have hvalid : t.Valid := (validate_eq_ok_iff t).mp hok
  exact ⟨hvalid.order_perm, fun c hc => hvalid.rank_lt hc⟩

end FlowTopology

end Torvyn.Reactor
