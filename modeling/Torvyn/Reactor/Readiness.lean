/-
# Why a stage cannot run

The scheduler walks the stages from the sinks upstream, so when it stops at a stage,
none of the later ones can run.  `downstream_empty` turns this into a statement about
the queues: unless some later stage is stuck, all queues behind the chosen stage are
empty.
-/
import Torvyn.Reactor.Run
import Torvyn.Graph.Dataflow

namespace Torvyn.Reactor

open Torvyn.Graph

/-- The connection of index `si` runs from the stage `u` to the stage `v`. -/
def Links (t : FlowTopology) (si u v : ℕ) : Prop :=
  ∃ c, t.connections[si]? = some c ∧ c.fromStage = u ∧ c.toStage = v

section Links

variable {t : FlowTopology} {si u v : ℕ}

theorem Links.mem_outputs (h : Links t si u v) : si ∈ (StreamIndex.build t).outputs u := by
  obtain ⟨c, hc, hfrom, -⟩ := h
  exact StreamIndex.mem_outputs.mpr ⟨c, hc, hfrom⟩

theorem Links.mem_inputs (h : Links t si u v) : si ∈ (StreamIndex.build t).inputs v := by
  obtain ⟨c, hc, -, hto⟩ := h
  exact StreamIndex.mem_inputs.mpr ⟨c, hc, hto⟩

theorem links_of_mem_outputs (h : si ∈ (StreamIndex.build t).outputs u) : ∃ v, Links t si u v := by
  obtain ⟨c, hc, hfrom⟩ := StreamIndex.mem_outputs.mp h
  exact ⟨c.toStage, c, hc, hfrom, rfl⟩

theorem links_of_mem_inputs (h : si ∈ (StreamIndex.build t).inputs v) : ∃ u, Links t si u v := by
  obtain ⟨c, hc, hto⟩ := StreamIndex.mem_inputs.mp h
  exact ⟨c.fromStage, c, hc, rfl, hto⟩

/-- A link goes up in the order. -/
theorem Links.rank_lt (ht : t.Valid) (h : Links t si u v) : t.rank u < t.rank v := by
  obtain ⟨c, hc, rfl, rfl⟩ := h
  exact ht.rank_lt (List.mem_of_getElem? hc)

/-- A link ends at a stage of the topology. -/
theorem Links.lt_length (ht : t.Valid) (h : Links t si u v) :
    u < t.stages.length ∧ v < t.stages.length := by
  obtain ⟨c, hc, rfl, rfl⟩ := h
  exact ht.bounds c (List.mem_of_getElem? hc)

/-- The rank of a stage is below the number of stages. -/
theorem FlowTopology.Valid.rank_lt_length (ht : t.Valid) (hv : v < t.stages.length) :
    t.rank v < t.stages.length := by
  have hmem := ht.mem_order.mpr hv
  have hlt := List.idxOf_lt_length_of_mem hmem
  rwa [ht.acyclic] at hlt

/-- Nothing flows into a source, and something into every other stage. -/
theorem FlowTopology.Valid.inputs_eq_nil_iff (ht : t.Valid) {stage : StageDefinition}
    (hstage : t.stages[v]? = some stage) :
    (StreamIndex.build t).inputs v = [] ↔ stage.role = .source := by
  rw [StreamIndex.inputs_eq_nil_iff]
  exact ⟨ht.role_of_inEdges_nil hstage, ht.sourceIn v stage hstage⟩

end Links

/-- A stage that backpressure keeps from running although nothing waits behind it: a
processor with an output under backpressure, or a router with all of them so.  A
router without outputs is always stuck. -/
def Stuck (t : FlowTopology) (streams : List StreamState) (v : ℕ) : ComponentRole → Prop
  | .processor => ∃ o ∈ (StreamIndex.build t).outputs v, activeAt streams o = true
  | .router => ∀ o ∈ (StreamIndex.build t).outputs v, activeAt streams o = true
  | _ => False

section Readiness

variable {t : FlowTopology} {streams : List StreamState}

/-- A stage with input whose outputs are all empty can run, unless it is stuck. -/
theorem unblocked_of_outputs_empty (ht : t.Valid) (h : StreamsInv t streams) {v : ℕ}
    {stage : StageDefinition} (hstage : t.stages[v]? = some stage)
    (hempty : ∀ o ∈ (StreamIndex.build t).outputs v, lenAt streams o = 0)
    (hinput : ∃ i ∈ (StreamIndex.build t).inputs v, 0 < lenAt streams i)
    (hstuck : ¬Stuck t streams v stage.role) :
    Unblocked streams ((StreamIndex.build t).outputs v) stage.role := by
  obtain ⟨i, hi, hpos⟩ := hinput
  have hne : (StreamIndex.build t).inputs v ≠ [] := List.ne_nil_of_mem hi
  have hcan : ∀ o ∈ (StreamIndex.build t).outputs v, activeAt streams o = false →
      canProduceAt streams o = true := by
    intro o ho hactive
    have hlt := h.wired.lt_of_mem_outputs ho
    rw [canProduceAt_iff h.credit hlt, hempty o ho]
    refine ⟨?_, capacityAt_pos hlt, hactive⟩
    -- a complete output would mean that no input is left
    by_contra hc
    have := (h.downstream v hne o ho (by simpa using hc) i hi).2
    omega
  cases hrole : stage.role with
  | sink | filter => trivial
  | source => exact absurd ((ht.inputs_eq_nil_iff hstage).mpr hrole) hne
  | processor =>
      intro o ho
      refine hcan o ho ?_
      by_contra hactive
      rw [hrole] at hstuck
      exact hstuck ⟨o, ho, by simpa using hactive⟩
  | router =>
      rw [hrole] at hstuck
      obtain ⟨o, ho, hactive⟩ : ∃ o ∈ (StreamIndex.build t).outputs v,
          ¬activeAt streams o = true := by
        by_contra hall
        exact hstuck fun o ho => by_contra fun hne => hall ⟨o, ho, hne⟩
      exact ⟨o, ho, hcan o ho (by simpa using hactive)⟩

/-- **Behind the point where the scheduler stops, all queues are empty**, unless a
stage with input and empty outputs is stuck there. -/
theorem downstream_empty (ht : t.Valid) (h : StreamsInv t streams) {k : ℕ}
    (hidle : ∀ w stage, t.stages[w]? = some stage → k ≤ t.rank w →
      stageAction streams (.build t) w stage.role = none)
    (hfree : ∀ w stage, t.stages[w]? = some stage → k ≤ t.rank w →
      (∀ o ∈ (StreamIndex.build t).outputs w, lenAt streams o = 0) →
      (∃ i ∈ (StreamIndex.build t).inputs w, 0 < lenAt streams i) → ¬Stuck t streams w stage.role)
    {si u v : ℕ} (hlink : Links t si u v) (hk : k ≤ t.rank v) : lenAt streams si = 0 := by
  refine empty_downstream (Links t) (fun v => t.rank v + 1) (t.stages.length + 1)
    (fun si => lenAt streams si = 0) ?_ ?_ hlink (Nat.lt_succ_of_le hk)
  · intro si u v hlink
    have hrank := hlink.rank_lt ht
    have hlt := ht.rank_lt_length (hlink.lt_length ht).2
    exact ⟨by omega, by omega⟩
  · intro v hv hout si u hlink
    obtain ⟨stage, hstage⟩ : ∃ stage, t.stages[v]? = some stage :=
      ⟨_, List.getElem?_eq_getElem (hlink.lt_length ht).2⟩
    by_contra hne
    have hinput : ∃ i ∈ (StreamIndex.build t).inputs v, 0 < lenAt streams i :=
      ⟨si, hlink.mem_inputs, Nat.pos_of_ne_zero hne⟩
    have hempty : ∀ o ∈ (StreamIndex.build t).outputs v, lenAt streams o = 0 := by
      intro o ho
      obtain ⟨w, hw⟩ := links_of_mem_outputs ho
      exact hout o w hw
    have hk' : k ≤ t.rank v := by omega
    have hun := unblocked_of_outputs_empty ht h hstage hempty hinput
      (hfree v stage hstage hk' hempty hinput)
    have hnone := (stageAction_eq_none_iff.mp (hidle v stage hstage hk') hun).2 si hlink.mem_inputs
    rw [← Bool.not_eq_true, hasInputAt_eq_true_iff] at hnone
    omega

/-- While the main loop runs no stage with outputs is stuck behind empty queues: a
stream under backpressure holds an element. -/
theorem not_stuck_of_active {v : ℕ} {role : ComponentRole}
    (hactive : ∀ si, activeAt streams si = true → 0 < lenAt streams si)
    (hempty : ∀ o ∈ (StreamIndex.build t).outputs v, lenAt streams o = 0)
    (hdead : role = .router → (StreamIndex.build t).outputs v ≠ []) :
    ¬Stuck t streams v role := by
  intro hstuck
  cases role with
  | processor =>
      obtain ⟨o, ho, hact⟩ := hstuck
      have := hactive o hact
      rw [hempty o ho] at this
      omega
  | router =>
      obtain ⟨o, ho⟩ := List.exists_mem_of_ne_nil _ (hdead rfl)
      have := hactive o (hstuck o ho)
      rw [hempty o ho] at this
      omega
  | source | sink | filter => exact hstuck

end Readiness

end Torvyn.Reactor
