/-
# Flow topologies

`FlowTopology` of `torvyn-reactor/src/topology.rs`: the stages of a flow and the
connections between them, the checks of `validate`, and the topological order the
scheduler walks.  `validate_eq_ok_iff` lists what an accepted topology satisfies.
The consequences the driver relies on follow: the order contains every stage once
(`order_perm`), a connection goes from an earlier stage to a later one
(`Valid.rank_lt`), and a stage without incoming connections is a source
(`Valid.role_of_inEdges_nil`).
-/
import Torvyn.Reactor.Stream
import Torvyn.Graph.Adjacency
import Torvyn.Graph.Search

namespace Torvyn.Reactor

open Torvyn.Graph

/-! ## Stages and connections -/

/-- A stage of a pipeline: its component and the component's role. -/
structure StageDefinition where
  componentId : ComponentId
  role : ComponentRole
  deriving DecidableEq, Repr

/-- Overrides for one stream; an absent field takes the flow's default. -/
structure StreamConfig where
  capacity : Option UInt64
  backpressurePolicy : Option BackpressurePolicy
  lowWatermarkRatio : Option LowWatermarkRatio

/-- `StreamConfig::default`: nothing is overridden. -/
def StreamConfig.default : StreamConfig := ⟨none, none, none⟩

/-- A directed connection between two stages, given by their indices. -/
structure StreamConnection where
  fromStage : ℕ
  toStage : ℕ
  config : StreamConfig

/-- The graph of a flow. -/
structure FlowTopology where
  stages : List StageDefinition
  connections : List StreamConnection

/-- Why a flow could not be created. -/
inductive FlowCreationError where
  | invalidTopology (reason : String)
  | componentNotFound (id : ComponentId)
  | contractMismatch (producer consumer : ComponentId) (detail : String)
  | capabilityDenied (component : ComponentId) (capability : String)
  | reactorShuttingDown
  | internal (message : String)
  deriving DecidableEq, Repr

namespace FlowTopology

/-! ## The checks -/

/-- The successors of each stage, in the order of the connections. -/
def outEdges (t : FlowTopology) : ℕ → List ℕ :=
  bucket StreamConnection.fromStage StreamConnection.toStage t.connections

/-- The predecessors of each stage. -/
def inEdges (t : FlowTopology) : ℕ → List ℕ :=
  bucket StreamConnection.toStage StreamConnection.fromStage t.connections

/-- The number of connections into each stage. -/
def inDegree (t : FlowTopology) : ℕ → ℕ := tally StreamConnection.toStage t.connections

/-- `topological_order`: Kahn's algorithm over the stage indices. -/
def topologicalOrder (t : FlowTopology) : List ℕ :=
  kahn (List.range t.stages.length) t.outEdges t.inDegree

/-- The indices of the source stages. -/
def sourceStages (t : FlowTopology) : List ℕ :=
  (List.range t.stages.length).filter fun idx => t.stages[idx]?.any fun s => s.role = .source

/-- The stages a breadth-first search from the sources reaches. -/
def reachable (t : FlowTopology) : ℕ → Bool :=
  search (List.range t.stages.length) t.outEdges t.sourceStages

/-- What is wrong with the connection of index `i`. -/
def connectionError (t : FlowTopology) (i : ℕ) (conn : StreamConnection) : Option String :=
  let n := t.stages.length
  if conn.fromStage ≥ n ∨ conn.toStage ≥ n then
    some (s!"connection {i} references out-of-bounds stage index " ++
      s!"(from={conn.fromStage}, to={conn.toStage}, stages={n})")
  else if conn.fromStage = conn.toStage then
    some s!"connection {i} is a self-loop on stage {conn.fromStage}"
  else none

/-- A source must not have incoming connections, a sink no outgoing ones. -/
def roleError (t : FlowTopology) (idx : ℕ) (stage : StageDefinition) : Option String :=
  if stage.role = .source ∧ t.inEdges idx ≠ [] then
    some s!"Source stage {idx} (component {stage.componentId}) has incoming connections"
  else if stage.role = .sink ∧ t.outEdges idx ≠ [] then
    some s!"Sink stage {idx} (component {stage.componentId}) has outgoing connections"
  else none

/-- Every stage must be reachable from a source. -/
def reachabilityError (t : FlowTopology) (idx : ℕ) (stage : StageDefinition) : Option String :=
  if t.reachable idx then none
  else some s!"stage {idx} (component {stage.componentId}) is not reachable from any source"

/-- Stop with an invalid topology when a check found something wrong. -/
def reject : Option String → Except FlowCreationError Unit
  | some reason => .error (.invalidTopology reason)
  | none => .ok ()

/-- `FlowTopology::validate`: the first check that fails decides the error. -/
def validate (t : FlowTopology) : Except FlowCreationError Unit := do
  reject (if t.stages.length = 0 then some "topology has no stages" else none)
  reject (if t.stages.any fun s => s.role = .source then none
    else some "topology has no Source stage")
  reject (if t.stages.any fun s => s.role = .sink then none
    else some "topology has no Sink stage")
  reject (t.connections.zipIdx.findSome? fun (conn, i) => t.connectionError i conn)
  reject (t.stages.zipIdx.findSome? fun (stage, idx) => t.roleError idx stage)
  reject (if t.topologicalOrder.length = t.stages.length then none
    else some "topology contains a cycle")
  reject (t.stages.zipIdx.findSome? fun (stage, idx) => t.reachabilityError idx stage)

/-! ## What validation accepts -/

/-- The conditions `validate` checks. -/
structure Valid (t : FlowTopology) : Prop where
  hasSource : ∃ s ∈ t.stages, s.role = .source
  hasSink : ∃ s ∈ t.stages, s.role = .sink
  bounds : ∀ c ∈ t.connections, c.fromStage < t.stages.length ∧ c.toStage < t.stages.length
  noLoop : ∀ c ∈ t.connections, c.fromStage ≠ c.toStage
  sourceIn : ∀ idx stage, t.stages[idx]? = some stage → stage.role = .source → t.inEdges idx = []
  sinkOut : ∀ idx stage, t.stages[idx]? = some stage → stage.role = .sink → t.outEdges idx = []
  acyclic : t.topologicalOrder.length = t.stages.length
  reached : ∀ idx < t.stages.length, t.reachable idx = true

/-- A check passes when it found nothing. -/
theorem reject_bind_eq_ok_iff {check : Option String} {k : Except FlowCreationError Unit} :
    (reject check >>= fun _ => k) = .ok () ↔ check = none ∧ k = .ok () := by
  cases check <;> simp [reject, bind, Except.bind]

theorem reject_eq_ok_iff {check : Option String} : reject check = .ok () ↔ check = none := by
  cases check <;> simp [reject]

/-- An indexed check of a whole list passes when it passes at each index. -/
theorem findSome?_zipIdx_eq_none_iff {β : Type*} {l : List β} {f : ℕ → β → Option String} :
    (l.zipIdx.findSome? fun p => f p.2 p.1) = none ↔ ∀ i x, l[i]? = some x → f i x = none := by
  rw [List.findSome?_eq_none_iff]
  constructor
  · intro h i x hx
    exact h (x, i) (List.mk_mem_zipIdx_iff_getElem?.mpr hx)
  · rintro h ⟨x, i⟩ hx
    exact h i x (List.mk_mem_zipIdx_iff_getElem?.mp hx)

/-- A connection without error has two different stages of the topology. -/
theorem connectionError_eq_none_iff {t : FlowTopology} {i : ℕ} {conn : StreamConnection} :
    t.connectionError i conn = none ↔
      (conn.fromStage < t.stages.length ∧ conn.toStage < t.stages.length) ∧
        conn.fromStage ≠ conn.toStage := by
  unfold connectionError
  by_cases hout : conn.fromStage ≥ t.stages.length ∨ conn.toStage ≥ t.stages.length
  · simp only [if_pos hout, reduceCtorEq, false_iff]
    omega
  · by_cases hloop : conn.fromStage = conn.toStage
    · simp only [if_neg hout, if_pos hloop, reduceCtorEq, false_iff]
      exact fun h => h.2 hloop
    · simp only [if_neg hout, if_neg hloop, true_iff]
      omega

/-- **`validate` accepts exactly the topologies that satisfy its conditions.** -/
theorem validate_eq_ok_iff (t : FlowTopology) : t.validate = .ok () ↔ t.Valid := by
  simp only [validate, reject_bind_eq_ok_iff, reject_eq_ok_iff, findSome?_zipIdx_eq_none_iff,
    connectionError_eq_none_iff]
  constructor
  · rintro ⟨-, hsource, hsink, hconn, hrole, hcycle, hreach⟩
    have hconn' : ∀ c ∈ t.connections, (c.fromStage < t.stages.length ∧
        c.toStage < t.stages.length) ∧ c.fromStage ≠ c.toStage := by
      intro c hc
      obtain ⟨i, hi⟩ := List.mem_iff_getElem?.mp hc
      exact hconn i c hi
    refine ⟨by simpa using hsource, by simpa using hsink, fun c hc => (hconn' c hc).1,
      fun c hc => (hconn' c hc).2, ?_, ?_, by simpa using hcycle, ?_⟩
    · intro idx stage hstage hs
      have := hrole idx stage hstage
      unfold roleError at this
      split_ifs at this with h₁ h₂
      by_contra hne
      exact h₁ ⟨hs, hne⟩
    · intro idx stage hstage hs
      have := hrole idx stage hstage
      unfold roleError at this
      split_ifs at this with h₁ h₂
      by_contra hne
      exact h₂ ⟨hs, hne⟩
    · intro idx hidx
      have := hreach idx t.stages[idx] (List.getElem?_eq_getElem hidx)
      unfold reachabilityError at this
      split_ifs at this with h
      exact h
  · intro h
    obtain ⟨s, hs, -⟩ := h.hasSource
    refine ⟨?_, ?_, ?_, ?_, ?_, ?_, ?_⟩
    · have := List.length_pos_of_mem hs
      simp only [ite_eq_right_iff]
      omega
    · simpa using h.hasSource
    · simpa using h.hasSink
    · intro i c hc
      have hc := List.mem_of_getElem? hc
      exact ⟨h.bounds c hc, h.noLoop c hc⟩
    · intro idx stage hstage
      unfold roleError
      rw [if_neg, if_neg]
      · exact fun ⟨hs, hne⟩ => hne (h.sinkOut idx stage hstage hs)
      · exact fun ⟨hs, hne⟩ => hne (h.sourceIn idx stage hstage hs)
    · simpa using h.acyclic
    · intro idx stage hstage
      have hidx := (List.getElem?_eq_some_iff.mp hstage).1
      simp [reachabilityError, h.reached idx hidx]

/-! ## The order -/

/-- A successor of a stage is the end of one of its connections. -/
theorem mem_outEdges {t : FlowTopology} {u v : ℕ} :
    v ∈ t.outEdges u ↔ ∃ c ∈ t.connections, c.fromStage = u ∧ c.toStage = v := mem_bucket

theorem mem_inEdges {t : FlowTopology} {u v : ℕ} :
    u ∈ t.inEdges v ↔ ∃ c ∈ t.connections, c.toStage = v ∧ c.fromStage = u := mem_bucket

/-- The position of a stage in the topological order. -/
def rank (t : FlowTopology) (v : ℕ) : ℕ := t.topologicalOrder.idxOf v

namespace Valid

variable {t : FlowTopology}

/-- Successors are stages. -/
theorem outEdges_lt (h : t.Valid) : ∀ u ∈ List.range t.stages.length, ∀ v ∈ t.outEdges u,
    v ∈ List.range t.stages.length := by
  intro u _ v hv
  obtain ⟨c, hc, -, rfl⟩ := mem_outEdges.mp hv
  exact List.mem_range.mpr (h.bounds c hc).2

/-- The counted in-degrees are the open degrees Kahn's algorithm starts from. -/
theorem inDegree_eq (h : t.Valid) (v : ℕ) :
    t.inDegree v = openDegree (List.range t.stages.length) t.outEdges [] v :=
  openDegree_bucket (fun c hc => List.mem_range.mpr (h.bounds c hc).1) v

/-- **The order contains every stage once.** -/
theorem order_perm (h : t.Valid) : t.topologicalOrder.Perm (List.range t.stages.length) :=
  kahn_perm List.nodup_range h.outEdges_lt h.inDegree_eq (by
    rw [List.length_range]
    exact h.acyclic)

theorem mem_order (h : t.Valid) {v : ℕ} : v ∈ t.topologicalOrder ↔ v < t.stages.length := by
  rw [h.order_perm.mem_iff, List.mem_range]

theorem order_nodup (h : t.Valid) : t.topologicalOrder.Nodup :=
  h.order_perm.nodup_iff.mpr List.nodup_range

/-- **A connection goes from an earlier stage of the order to a later one.** -/
theorem rank_lt (h : t.Valid) {c : StreamConnection} (hc : c ∈ t.connections) :
    t.rank c.fromStage < t.rank c.toStage := by
  apply kahn_idxOf_lt List.nodup_range h.outEdges_lt h.inDegree_eq
  · rw [List.length_range]
    exact h.acyclic
  · exact List.mem_range.mpr (h.bounds c hc).1
  · exact mem_outEdges.mpr ⟨c, hc, rfl, rfl⟩

/-- A stage that nothing flows into is a source. -/
theorem role_of_inEdges_nil (h : t.Valid) {idx : ℕ} {stage : StageDefinition}
    (hstage : t.stages[idx]? = some stage) (hin : t.inEdges idx = []) :
    stage.role = .source := by
  have hidx := (List.getElem?_eq_some_iff.mp hstage).1
  have hroots : t.sourceStages.Nodup := List.nodup_range.filter _
  obtain ⟨r, hr, hpath⟩ := (search_iff h.outEdges_lt hroots
    (fun r hr => (List.mem_filter.mp hr).1) idx).mp (h.reached idx hidx)
  rcases Relation.ReflTransGen.cases_tail hpath with rfl | ⟨u, -, hu⟩
  · have := (List.mem_filter.mp hr).2
    rw [hstage] at this
    simpa using this
  · obtain ⟨c, hc, hfrom, hto⟩ := mem_outEdges.mp hu
    have hmem : u ∈ t.inEdges idx := mem_inEdges.mpr ⟨c, hc, hto, hfrom⟩
    rw [hin] at hmem
    exact absurd hmem List.not_mem_nil

end Valid

end FlowTopology

end Torvyn.Reactor
