/-
# Pipeline topologies

`PipelineTopology` of `torvyn-linker/src/topology.rs`: named nodes, the edges between their
ports, the structural checks of `validate`, and the topological order in which a pipeline is
linked.  `validate_isOk_iff` says which topologies are accepted; an order that is found lists
every node, each after those it depends on (`topologicalOrder_spec`).

The checks iterate over hash maps.  The order of that only decides the order of the
diagnostics, and is here that of the entries; the map of the in-degrees, whose order decides
which topological order is found, gets its own.
-/
import Torvyn.Data.KeyMap
import Torvyn.Graph.Adjacency
import Torvyn.Graph.CycleSearch
import Torvyn.Types

namespace Torvyn.Linker

open Torvyn.Graph

/-! ## Reports -/

/-- What a diagnostic is about. -/
inductive LinkDiagnosticCategory where
  | unresolvedImport
  | interfaceMismatch
  | capabilityDenied
  | cyclicDependency
  | compilationFailed
  | topologyError
  | ambiguousProvider
  | roleViolation
  | versionIncompatible
  deriving DecidableEq, Repr

/-- A diagnostic of the linker. -/
structure LinkDiagnostic where
  category : LinkDiagnosticCategory
  message : String
  component : Option String
  relatedComponent : Option String
  interfaceName : Option String
  deriving DecidableEq, Repr

/-- The diagnostics of a linking operation. -/
structure LinkReport where
  errors : List LinkDiagnostic
  warnings : List LinkDiagnostic
  deriving DecidableEq, Repr

/-- Whether there are no errors. -/
def LinkReport.isOk (report : LinkReport) : Bool := report.errors.isEmpty

/-! ## Nodes and edges -/

/-- A capability that the configuration grants to a component. -/
structure CapabilityGrant where
  name : String
  detail : String
  deriving DecidableEq, Repr

/-- A component of a pipeline. -/
structure TopologyNode where
  name : String
  role : ComponentRole
  artifactPath : String
  config : Option String
  capabilityGrants : List CapabilityGrant

/-- A stream between two ports. -/
structure TopologyEdge where
  fromNode : String
  fromPort : String
  toNode : String
  toPort : String
  queueDepth : UInt32
  backpressurePolicy : BackpressurePolicy

/-- The graph of a pipeline. -/
structure PipelineTopology where
  name : String
  nodes : KeyMap String TopologyNode
  edges : List TopologyEdge
  maxFanOut : ℕ
  maxFanIn : ℕ

namespace PipelineTopology

/-- An empty topology, with the default limits. -/
def new (name : String) : PipelineTopology := ⟨name, ∅, [], 16, 16⟩

/-- `add_node`. -/
def addNode (t : PipelineTopology) (node : TopologyNode) : PipelineTopology :=
  { t with nodes := t.nodes.insert node.name node }

/-- `add_edge`. -/
def addEdge (t : PipelineTopology) (edge : TopologyEdge) : PipelineTopology :=
  { t with edges := t.edges ++ [edge] }

/-! ## The graph -/

/-- `adjacency_list`. -/
def adjacencyList (t : PipelineTopology) : String → List String :=
  bucket TopologyEdge.fromNode TopologyEdge.toNode t.edges

/-- `compute_incoming_counts`. -/
def incomingCounts (t : PipelineTopology) : String → ℕ := tally TopologyEdge.toNode t.edges

/-- `compute_outgoing_counts`. -/
def outgoingCounts (t : PipelineTopology) : String → ℕ := tally TopologyEdge.fromNode t.edges

/-- The known successors of a node, an entry for each edge. -/
def successors (t : PipelineTopology) (name : String) : List String :=
  ((t.edges.filter fun e => e.fromNode = name).map TopologyEdge.toNode).filter (· ∈ t.nodes)

/-- `topological_order`: Kahn's algorithm.  The in-degrees are kept in a map that is iterated in
the given order. -/
def topologicalOrder (t : PipelineTopology) (iteration : List String) : Option (List String) :=
  let order := kahn iteration t.successors t.incomingCounts
  if order.length = t.nodes.keys.length then some order else none

/-- `detect_cycle`. A search can meet the nodes and the ends of edges. -/
def detectCycle (t : PipelineTopology) : Option (List String) :=
  Graph.detectCycle (t.nodes.keys.length + t.edges.length) t.nodes.keys t.adjacencyList

/-- `detect_cycle`, on a map of the nodes that is iterated in the given order. -/
def detectCycleIn (t : PipelineTopology) (iteration : List String) : Option (List String) :=
  Graph.detectCycle (t.nodes.keys.length + t.edges.length) iteration t.adjacencyList

/-! ## The checks -/

/-- An error about a component, if there is one. -/
def componentError (category : LinkDiagnosticCategory) (component : Option String)
    (message : String) : LinkDiagnostic :=
  ⟨category, message, component, none, none⟩

/-- The endpoints of an edge that are no nodes. -/
def endpointErrors (t : PipelineTopology) (e : TopologyEdge) : List LinkDiagnostic :=
  (if e.fromNode ∈ t.nodes then []
    else [⟨.topologyError, s!"Edge references unknown source node '{e.fromNode}'. " ++
      "Check that all edge 'from' values match a defined component name.",
      some e.fromNode, some e.toNode, none⟩]) ++
  (if e.toNode ∈ t.nodes then []
    else [⟨.topologyError, s!"Edge references unknown destination node '{e.toNode}'. " ++
      "Check that all edge 'to' values match a defined component name.",
      some e.toNode, some e.fromNode, none⟩])

/-- A node without edges. -/
def connectivityErrors (t : PipelineTopology) (name : String) : List LinkDiagnostic :=
  if name ∈ t.edges.flatMap fun e => [e.fromNode, e.toNode] then []
  else [componentError .topologyError (some name)
    (s!"Component '{name}' is disconnected (no edges). " ++
      "Connect it to the pipeline or remove it.")]

/-- A source with incoming edges, or a sink with outgoing ones. -/
def roleErrors (t : PipelineTopology) (name : String) (node : TopologyNode) :
    List LinkDiagnostic :=
  let inCount := t.incomingCounts name
  let outCount := t.outgoingCounts name
  (if node.role = .source ∧ 0 < inCount then
    [componentError .roleViolation (some name)
      (s!"Source component '{name}' has {inCount} incoming edge(s). " ++
        "Sources produce data and must not have incoming connections.")]
    else []) ++
  (if node.role = .sink ∧ 0 < outCount then
    [componentError .roleViolation (some name)
      (s!"Sink component '{name}' has {outCount} outgoing edge(s). " ++
        "Sinks consume data and must not have outgoing connections.")]
    else [])

/-- A cycle. -/
def cycleErrors (t : PipelineTopology) : List LinkDiagnostic :=
  match t.detectCycle with
  | none => []
  | some cycle =>
      [componentError .cyclicDependency cycle.head?
        (s!"Pipeline topology contains a cycle: " ++ " → ".intercalate cycle ++ ". " ++
          "Torvyn pipelines must be directed acyclic graphs (DAGs). " ++
          "Remove the cycle by restructuring the pipeline.")]

/-- The ports with too many edges, given the end of an edge that is looked at. -/
def fanErrors (t : PipelineTopology) (port : TopologyEdge → String × String) (limit : ℕ)
    (message : String → String → ℕ → String) : List LinkDiagnostic :=
  (t.edges.map port).dedup.flatMap fun (node, name) =>
    let count := tally port t.edges (node, name)
    if count > limit then
      [⟨.topologyError, message node name count, some node, none, some name⟩]
    else []

/-- `check_fan_limits`. -/
def checkFanLimits (t : PipelineTopology) : List LinkDiagnostic :=
  t.fanErrors (fun e => (e.fromNode, e.fromPort)) t.maxFanOut (fun node port count =>
    s!"Output port '{port}' of component '{node}' has fan-out of {count}, " ++
      s!"which exceeds the limit of {t.maxFanOut}. " ++
      "Reduce the number of downstream connections or increase max_fan_out.") ++
  t.fanErrors (fun e => (e.toNode, e.toPort)) t.maxFanIn (fun node port count =>
    s!"Input port '{port}' of component '{node}' has fan-in of {count}, " ++
      s!"which exceeds the limit of {t.maxFanIn}. " ++
      "Reduce the number of upstream connections or increase max_fan_in.")

/-- `validate`: all errors, not only the first. -/
def validate (t : PipelineTopology) : LinkReport :=
  let nameErrors := if t.name = "" then
    [componentError .topologyError none "Pipeline name must be non-empty."] else []
  if t.nodes.keys = [] then
    ⟨nameErrors ++ [componentError .topologyError none
      "Pipeline must contain at least one component node."], []⟩
  else
    ⟨nameErrors ++ t.edges.flatMap t.endpointErrors ++ t.nodes.keys.flatMap t.connectivityErrors ++
      t.nodes.entries.flatMap (fun entry => t.roleErrors entry.1 entry.2) ++ t.cycleErrors ++
      t.checkFanLimits, []⟩

/-! ## Accepted topologies -/

/-- Some edge leads from one name to the other. -/
def Flows (t : PipelineTopology) (u v : String) : Prop :=
  ∃ e ∈ t.edges, e.fromNode = u ∧ e.toNode = v

/-- The conditions that `validate` checks. -/
structure Linkable (t : PipelineTopology) : Prop where
  named : t.name ≠ ""
  nonempty : t.nodes.keys ≠ []
  known : ∀ e ∈ t.edges, e.fromNode ∈ t.nodes ∧ e.toNode ∈ t.nodes
  joined : ∀ name ∈ t.nodes, ∃ e ∈ t.edges, e.fromNode = name ∨ e.toNode = name
  sourceIn : ∀ name node, t.nodes.lookup name = some node → node.role = .source →
    ∀ e ∈ t.edges, e.toNode ≠ name
  sinkOut : ∀ name node, t.nodes.lookup name = some node → node.role = .sink →
    ∀ e ∈ t.edges, e.fromNode ≠ name
  acyclic : Acyclic t.Flows
  fanOut : ∀ node port,
    (t.edges.countP fun e => e.fromNode = node ∧ e.fromPort = port) ≤ t.maxFanOut
  fanIn : ∀ node port,
    (t.edges.countP fun e => e.toNode = node ∧ e.toPort = port) ≤ t.maxFanIn

variable {t : PipelineTopology}

theorem endpointErrors_eq_nil_iff {e : TopologyEdge} :
    t.endpointErrors e = [] ↔ e.fromNode ∈ t.nodes ∧ e.toNode ∈ t.nodes := by
  unfold endpointErrors
  rw [List.append_eq_nil_iff]
  by_cases hfrom : e.fromNode ∈ t.nodes <;> by_cases hto : e.toNode ∈ t.nodes <;>
    simp [hfrom, hto]

theorem connectivityErrors_eq_nil_iff {name : String} :
    t.connectivityErrors name = [] ↔ ∃ e ∈ t.edges, e.fromNode = name ∨ e.toNode = name := by
  have hmem : (name ∈ t.edges.flatMap fun e => [e.fromNode, e.toNode]) ↔
      ∃ e ∈ t.edges, e.fromNode = name ∨ e.toNode = name := by
    simp [eq_comm]
  unfold connectivityErrors
  rw [← hmem]
  split
  · rename_i hin
    exact iff_of_true rfl hin
  · rename_i hnot
    exact iff_of_false (List.cons_ne_nil _ _) hnot

/-- A node has edges at one of its ends when their number there is positive. -/
theorem tally_pos_iff {key : TopologyEdge → String} {name : String} :
    0 < tally key t.edges name ↔ ∃ e ∈ t.edges, key e = name := by
  rw [tally_apply, List.countP_pos_iff]
  simp only [decide_eq_true_eq]

theorem roleErrors_eq_nil_iff {name : String} {node : TopologyNode} :
    t.roleErrors name node = [] ↔ (node.role = .source → ∀ e ∈ t.edges, e.toNode ≠ name) ∧
      (node.role = .sink → ∀ e ∈ t.edges, e.fromNode ≠ name) := by
  have hin : 0 < t.incomingCounts name ↔ ∃ e ∈ t.edges, e.toNode = name := tally_pos_iff
  have hout : 0 < t.outgoingCounts name ↔ ∃ e ∈ t.edges, e.fromNode = name := tally_pos_iff
  unfold roleErrors
  simp only [hin, hout, List.append_eq_nil_iff, ite_eq_right_iff, List.cons_ne_nil]
  simp

theorem edge_adjacencyList : Edge t.adjacencyList = t.Flows := by
  funext u v
  exact propext mem_bucket

/-- **The search finds a cycle exactly when there is one**, in whatever order the nodes are
iterated. -/
theorem detectCycleIn_eq_none_iff
    (hknown : ∀ e ∈ t.edges, e.fromNode ∈ t.nodes ∧ e.toNode ∈ t.nodes) {iteration : List String}
    (hiteration : iteration.Perm t.nodes.keys) :
    t.detectCycleIn iteration = none ↔ Acyclic t.Flows := by
  have hmem : ∀ {name}, name ∈ t.nodes → name ∈ iteration :=
    fun hname => hiteration.mem_iff.mpr (AList.mem_keys.mp hname)
  have hclosed : ∀ u ∈ iteration, ∀ w ∈ t.adjacencyList u, w ∈ iteration := by
    intro u _ w hw
    obtain ⟨e, he, -, rfl⟩ := mem_bucket.mp hw
    exact hmem (hknown e he).2
  have hfuel : iteration.length ≤ t.nodes.keys.length + t.edges.length := by
    rw [hiteration.length_eq]
    exact Nat.le_add_right _ _
  unfold detectCycleIn
  rw [detectCycle_eq_none_iff hfuel hclosed, edge_adjacencyList]
  constructor
  · intro h v hcycle
    -- a vertex on a cycle is the start of an edge
    obtain ⟨_, ⟨e, he, rfl, -⟩, -⟩ := Relation.TransGen.head'_iff.mp hcycle
    exact h e.fromNode (hmem (hknown e he).1) hcycle
  · exact fun h v _ => h v

theorem cycleErrors_eq_nil_iff (hknown : ∀ e ∈ t.edges, e.fromNode ∈ t.nodes ∧ e.toNode ∈ t.nodes) :
    t.cycleErrors = [] ↔ Acyclic t.Flows := by
  have hnone : t.detectCycle = none ↔ Acyclic t.Flows :=
    detectCycleIn_eq_none_iff hknown (List.Perm.refl _)
  rw [← hnone]
  unfold cycleErrors
  cases t.detectCycle with
  | none => simp
  | some cycle => simp

/-- A fan limit is kept exactly when no port has more edges. -/
theorem fanErrors_eq_nil_iff {node port : TopologyEdge → String} {limit : ℕ}
    {message : String → String → ℕ → String} :
    t.fanErrors (fun e => (node e, port e)) limit message = [] ↔
      ∀ name p, (t.edges.countP fun e => node e = name ∧ port e = p) ≤ limit := by
  have hkey : (∀ key ∈ t.edges.map fun e => (node e, port e),
      tally (fun e => (node e, port e)) t.edges key ≤ limit) ↔
        ∀ name p, (t.edges.countP fun e => node e = name ∧ port e = p) ≤ limit := by
    rw [forall_tally_le_iff, Prod.forall]
    simp only [Prod.mk.injEq]
  rw [← hkey]
  unfold fanErrors
  rw [List.flatMap_eq_nil_iff]
  refine forall_congr' fun key => ?_
  rw [List.mem_dedup]
  refine imp_congr_right fun _ => ?_
  by_cases hover : tally (fun e => (node e, port e)) t.edges key > limit
  · simp only [if_pos hover]
    exact iff_of_false (List.cons_ne_nil _ _) (Nat.not_le.mpr hover)
  · simp only [if_neg hover, true_iff]
    exact Nat.not_lt.mp hover

/-- **`validate` reports no error exactly for the linkable topologies.** -/
theorem validate_isOk_iff (t : PipelineTopology) : t.validate.isOk = true ↔ t.Linkable := by
  unfold LinkReport.isOk validate
  by_cases hnodes : t.nodes.keys = []
  · simp only [hnodes, if_true, List.isEmpty_iff, List.append_eq_nil_iff, List.cons_ne_nil,
      and_false, false_iff]
    exact fun h => h.nonempty hnodes
  have hname : ∀ e : LinkDiagnostic, (if t.name = "" then [e] else []) = [] ↔ t.name ≠ "" := by
    intro e
    split <;> simp [*]
  simp only [hnodes, if_false, List.isEmpty_iff, List.append_eq_nil_iff, hname,
    List.flatMap_eq_nil_iff, endpointErrors_eq_nil_iff, connectivityErrors_eq_nil_iff,
    roleErrors_eq_nil_iff, checkFanLimits, fanErrors_eq_nil_iff]
  constructor
  · rintro ⟨⟨⟨⟨⟨hnamed, hknown⟩, hjoined⟩, hrole⟩, hcycle⟩, hfanOut, hfanIn⟩
    exact {
      named := hnamed
      nonempty := hnodes
      known := hknown
      joined := fun name hin => hjoined name (AList.mem_keys.mp hin)
      sourceIn := fun name node h => (hrole ⟨name, node⟩ (KeyMap.mem_entries_iff.mpr h)).1
      sinkOut := fun name node h => (hrole ⟨name, node⟩ (KeyMap.mem_entries_iff.mpr h)).2
      acyclic := (cycleErrors_eq_nil_iff hknown).mp hcycle
      fanOut := hfanOut
      fanIn := hfanIn }
  · intro h
    refine ⟨⟨⟨⟨⟨h.named, h.known⟩, fun name hin => h.joined name (AList.mem_keys.mpr hin)⟩, ?_⟩,
      (cycleErrors_eq_nil_iff h.known).mpr h.acyclic⟩, h.fanOut, h.fanIn⟩
    rintro ⟨name, node⟩ hentry
    have hlookup := KeyMap.mem_entries_iff.mp hentry
    exact ⟨h.sourceIn name node hlookup, h.sinkOut name node hlookup⟩

/-- The edges of an accepted topology join its nodes. -/
theorem endpoints_of_validate {t : PipelineTopology} (h : t.validate.isOk = true)
    {e : TopologyEdge} (he : e ∈ t.edges) : e.fromNode ∈ t.nodes ∧ e.toNode ∈ t.nodes :=
  ((validate_isOk_iff t).mp h).known e he

/-! ## The order -/

/-- `u` comes before `v`. -/
def Precedes (order : List String) (u v : String) : Prop :=
  ∃ l m r, order = l ++ u :: (m ++ v :: r)

section Order

variable {t : PipelineTopology} {iteration order : List String}
  (hknown : ∀ e ∈ t.edges, e.fromNode ∈ t.nodes ∧ e.toNode ∈ t.nodes)
include hknown

/-- No successor is unknown. -/
theorem successors_eq_bucket :
    t.successors = bucket TopologyEdge.fromNode TopologyEdge.toNode t.edges := by
  funext u
  rw [bucket_apply]
  refine List.filter_eq_self.mpr fun w hw => decide_eq_true ?_
  obtain ⟨e, he, rfl⟩ := List.mem_map.mp hw
  exact (hknown e (List.mem_filter.mp he).1).2

theorem edge_successors : Edge t.successors = t.Flows := by
  rw [successors_eq_bucket hknown]
  exact edge_adjacencyList

variable (hiteration : iteration.Perm t.nodes.keys)
include hiteration

/-- An edge joins vertices of the iteration. -/
theorem mem_iteration_of_successor {u w : String} (hw : w ∈ t.successors u) :
    u ∈ iteration ∧ w ∈ iteration := by
  rw [successors_eq_bucket hknown] at hw
  obtain ⟨e, he, rfl, rfl⟩ := mem_bucket.mp hw
  obtain ⟨hfrom, hto⟩ := hknown e he
  exact ⟨hiteration.mem_iff.mpr (AList.mem_keys.mp hfrom),
    hiteration.mem_iff.mpr (AList.mem_keys.mp hto)⟩

/-- Kahn's algorithm starts from the in-degrees. -/
theorem incomingCounts_eq_openDegree (w : String) :
    t.incomingCounts w = openDegree iteration t.successors [] w := by
  rw [successors_eq_bucket hknown]
  apply openDegree_bucket
  intro e he
  exact hiteration.mem_iff.mpr (AList.mem_keys.mp (hknown e he).1)

/-- **An order is found exactly when there is no cycle.** -/
theorem exists_topologicalOrder_iff :
    (∃ order, t.topologicalOrder iteration = some order) ↔ Acyclic t.Flows := by
  have hvs : iteration.Nodup := hiteration.nodup_iff.mpr t.nodes.keys_nodup
  have hlength := kahn_length_iff hvs
    (fun u w hw => mem_iteration_of_successor hknown hiteration hw)
    (incomingCounts_eq_openDegree hknown hiteration)
  rw [edge_successors hknown, hiteration.length_eq] at hlength
  rw [← hlength]
  simp only [topologicalOrder]
  split
  · rename_i hall
    exact iff_of_true ⟨_, rfl⟩ hall
  · rename_i hleft
    refine iff_of_false (fun h => ?_) hleft
    obtain ⟨order, h⟩ := h
    cases h

/-- **A topological order that is found** lists the nodes, and every edge goes forward. -/
theorem topologicalOrder_spec (h : t.topologicalOrder iteration = some order) :
    order.Perm t.nodes.keys ∧ ∀ e ∈ t.edges, Precedes order e.fromNode e.toNode := by
  have hvs : iteration.Nodup := hiteration.nodup_iff.mpr t.nodes.keys_nodup
  have hedge : ∀ u w, w ∈ t.successors u → u ∈ iteration ∧ w ∈ iteration :=
    fun u w hw => mem_iteration_of_successor hknown hiteration hw
  have hsucc : ∀ u ∈ iteration, ∀ w ∈ t.successors u, w ∈ iteration :=
    fun u _ w hw => (hedge u w hw).2
  have hdeg := incomingCounts_eq_openDegree hknown hiteration
  simp only [topologicalOrder] at h
  split at h
  · rename_i hlength
    obtain rfl := Option.some.inj h
    have hperm := kahn_perm hvs hsucc hdeg (hlength.trans hiteration.length_eq.symm)
    refine ⟨hperm.trans hiteration, fun e he => ?_⟩
    have hsuccessor : e.toNode ∈ t.successors e.fromNode := by
      rw [successors_eq_bucket hknown]
      exact mem_bucket.mpr ⟨e, he, rfl, rfl⟩
    obtain ⟨hfrom, hto⟩ := hedge _ _ hsuccessor
    obtain ⟨before, after, hsplit⟩ := List.append_of_mem (hperm.mem_iff.mpr hto)
    obtain ⟨l, m, hbefore⟩ :=
      List.append_of_mem (kahn_before hvs hsucc hdeg hsplit hfrom hsuccessor)
    exact ⟨l, m, after, by rw [hsplit, hbefore, List.append_assoc, List.cons_append]⟩
  · cases h

end Order

/-- **The two graph algorithms agree**, whatever order either map is iterated in: no cycle is found
exactly when an order is, and exactly when there is no cycle. An order lists the nodes with every
edge forward, and a cycle is a closed walk along the edges. -/
theorem detectCycle_agrees_topologicalOrder (t : PipelineTopology) (search degrees : List String)
    (hknown : ∀ e ∈ t.edges, e.fromNode ∈ t.nodes ∧ e.toNode ∈ t.nodes)
    (hsearch : search.Perm t.nodes.keys) (hdegrees : degrees.Perm t.nodes.keys) :
    (t.detectCycleIn search = none ↔ ∃ order, t.topologicalOrder degrees = some order) ∧
      ((∃ order, t.topologicalOrder degrees = some order) ↔ Acyclic t.Flows) ∧
      (∀ order, t.topologicalOrder degrees = some order →
        order.Perm t.nodes.keys ∧ ∀ e ∈ t.edges, Precedes order e.fromNode e.toNode) ∧
      ∀ cycle, t.detectCycleIn search = some cycle → ClosedWalk t.Flows cycle := by
  have horder := exists_topologicalOrder_iff hknown hdegrees
  refine ⟨(detectCycleIn_eq_none_iff hknown hsearch).trans horder.symm, horder, ?_, ?_⟩
  · exact fun order h => topologicalOrder_spec hknown hdegrees h
  · intro cycle h
    rw [← edge_adjacencyList]
    exact closedWalk_of_detectCycle h

/-- Two components that feed each other. -/
def feedback : PipelineTopology :=
  (((((new "feedback").addNode ⟨"a", .processor, "", none, []⟩).addNode
    ⟨"b", .processor, "", none, []⟩).addEdge ⟨"a", "out", "b", "in", 64, .blockProducer⟩).addEdge
      ⟨"b", "out", "a", "in", 64, .blockProducer⟩)

theorem feedback_agrees :
    (feedback.detectCycleIn ["a", "b"] = none ↔
        ∃ order, feedback.topologicalOrder ["b", "a"] = some order) ∧
      ((∃ order, feedback.topologicalOrder ["b", "a"] = some order) ↔ Acyclic feedback.Flows) ∧
      (∀ order, feedback.topologicalOrder ["b", "a"] = some order →
        order.Perm feedback.nodes.keys ∧
          ∀ e ∈ feedback.edges, Precedes order e.fromNode e.toNode) ∧
      ∀ cycle, feedback.detectCycleIn ["a", "b"] = some cycle → ClosedWalk feedback.Flows cycle :=
  detectCycle_agrees_topologicalOrder feedback ["a", "b"] ["b", "a"] (by decide) (by decide)
    (by decide)

example : feedback.detectCycleIn ["a", "b"] = some ["a", "b", "a"] := by decide

end PipelineTopology

end Torvyn.Linker
