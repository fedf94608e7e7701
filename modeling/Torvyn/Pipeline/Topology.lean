/-
# Pipeline topologies

The nodes and edges of `torvyn-pipeline/src/topology.rs` and the checks of
`validate.rs`.  Edges refer to nodes by their indices.  The checks collect every
error; `validateTopology_spec` says when there is none, and that the order found
then lists the nodes with every edge forward.

Two hash maps count the edges of each port.  Their iteration order decides the order
of the errors about ports and nothing else; it is read from outside.
-/
import Torvyn.Data.KeyMap
import Torvyn.Graph.Acyclic
import Torvyn.Types

namespace Torvyn.Pipeline

open Torvyn.Graph Relation

/-! ## Nodes and edges -/

/-- How a role is displayed. -/
def roleText : ComponentRole → String
  | .source => "Source"
  | .processor => "Processor"
  | .sink => "Sink"
  | .filter => "Filter"
  | .router => "Router"

/-- The settings of one edge; an absent field is left to the runtime. -/
structure EdgeConfig where
  queueDepth : Option UInt64
  backpressurePolicy : Option BackpressurePolicy
  deriving DecidableEq, Repr

/-- `EdgeConfig::default`. -/
def EdgeConfig.default : EdgeConfig := ⟨none, none⟩

/-- A node: a component with its role. -/
structure TopologyNode where
  name : String
  componentRef : String
  interface : String
  role : ComponentRole
  deriving DecidableEq, Repr

/-- An edge between the ports of two nodes. -/
structure TopologyEdge where
  fromNode : ℕ
  fromPort : String
  toNode : ℕ
  toPort : String
  edgeConfig : EdgeConfig
  deriving DecidableEq, Repr

/-- What is wrong with a pipeline. -/
inductive PipelineError where
  | emptyTopology (flowName : String)
  | duplicateNode (flowName nodeName : String)
  | edgeReferencesUnknownNode (flowName : String) (edgeIndex : ℕ) (nodeName endpoint : String)
  | selfLoop (flowName nodeName : String)
  | cycleDetected (flowName : String) (cycle : List String)
  | disconnectedNode (flowName nodeName : String)
  | sourceHasIncoming (flowName nodeName : String)
  | sinkHasOutgoing (flowName nodeName : String)
  | processorMissingEdges (flowName nodeName role : String) (hasIncoming hasOutgoing : Bool)
  | fanLimitExceeded (flowName nodeName port : String) (count limit : ℕ) (direction : String)
  | noSourceNodes (flowName : String)
  | noSinkNodes (flowName : String)
  | compilationFailed (flowName nodeName reason : String)
  | instantiationFailed (flowName nodeName reason : String)
  | initializationFailed (flowName nodeName reason : String)
  | flowRegistrationFailed (flowName reason : String)
  | sandboxConfigFailed (flowName nodeName reason : String)
  | subsystem (subsystem reason : String)
  deriving DecidableEq, Repr

/-- A validated pipeline. -/
structure PipelineTopology where
  name : String
  description : String
  nodes : List TopologyNode
  nodeIndex : KeyMap String ℕ
  edges : List TopologyEdge
  executionOrder : List ℕ

/-- `DEFAULT_MAX_FAN_OUT`. -/
def defaultMaxFanOut : ℕ := 16

/-- `DEFAULT_MAX_FAN_IN`. -/
def defaultMaxFanIn : ℕ := 16

/-- An order in which the ports of a hash map are iterated. -/
structure PortOrder where
  order : List (ℕ × String) → List (ℕ × String)
  perm : ∀ ports, (order ports).Perm ports

/-- Ports in the order in which they come. -/
def givenOrder : PortOrder := ⟨id, List.Perm.refl⟩

section Checks

variable (flowName : String) (nodes : List TopologyNode) (edges : List TopologyEdge)

/-! ## The graph -/

/-- The successors of each node, an entry for each edge. -/
def adj : ℕ → List ℕ := bucket TopologyEdge.fromNode TopologyEdge.toNode edges

/-- The number of edges into each node. -/
def inDegree : ℕ → ℕ := tally TopologyEdge.toNode edges

/-- The name of a node. -/
def nodeName (idx : ℕ) : String := (nodes[idx]?.map TopologyNode.name).getD ""

/-- Whether a node has incoming edges. -/
def hasIncoming (idx : ℕ) : Bool := edges.any fun e => e.toNode == idx

/-- Whether a node has outgoing edges. -/
def hasOutgoing (idx : ℕ) : Bool := edges.any fun e => e.fromNode == idx

/-! ## The checks -/

/-- `check_source_and_sink`. -/
def checkSourceAndSink : List PipelineError :=
  (if nodes.any fun n => n.role = .source then [] else [.noSourceNodes flowName]) ++
  (if nodes.any fun n => n.role = .sink then [] else [.noSinkNodes flowName])

/-- What is wrong with the edges of the node of index `idx`, given its role. -/
def roleErrors (idx : ℕ) (node : TopologyNode) : List PipelineError :=
  match node.role with
  | .source => if hasIncoming edges idx then [.sourceHasIncoming flowName node.name] else []
  | .sink => if hasOutgoing edges idx then [.sinkHasOutgoing flowName node.name] else []
  | .processor | .filter | .router =>
      if !hasIncoming edges idx || !hasOutgoing edges idx then
        [.processorMissingEdges flowName node.name (roleText node.role) (hasIncoming edges idx)
          (hasOutgoing edges idx)]
      else []

/-- `check_role_consistency`. -/
def checkRoleConsistency : List PipelineError :=
  nodes.zipIdx.flatMap fun (node, idx) => roleErrors flowName edges idx node

/-- The errors about the ports at one end of the edges. -/
def fanErrors (order : PortOrder) (port : TopologyEdge → ℕ × String) (limit : ℕ)
    (direction : String) : List PipelineError :=
  (order.order (edges.map port).dedup).flatMap fun key =>
    let count := tally port edges key
    if count > limit then
      [.fanLimitExceeded flowName (nodeName nodes key.1) key.2 count limit direction]
    else []

/-- The port an edge starts from. -/
def outPort (e : TopologyEdge) : ℕ × String := (e.fromNode, e.fromPort)

/-- The port an edge ends at. -/
def inPort (e : TopologyEdge) : ℕ × String := (e.toNode, e.toPort)

/-- `check_fan_limits`. -/
def checkFanLimits (order : PortOrder) : List PipelineError :=
  fanErrors flowName nodes edges order outPort defaultMaxFanOut "fan-out" ++
    fanErrors flowName nodes edges order inPort defaultMaxFanIn "fan-in"

/-- The order in which Kahn's algorithm visits the nodes. -/
def kahnOrder : List ℕ := kahn (List.range nodes.length) (adj edges) (inDegree edges)

/-! ### The cycle that is reported -/

/-- The colours of the depth-first search. -/
inductive Color where
  | white
  | gray
  | black
  deriving DecidableEq, Repr

/-- The colours and the parents that the search has recorded. -/
structure DfsMarks where
  color : ℕ → Color
  parent : ℕ → Option ℕ

/-- Walk up the parents from `cur` to `next`. -/
def traceCycle (parent : ℕ → Option ℕ) (next : ℕ) : ℕ → ℕ → List ℕ
  | 0, _ => []
  | fuel + 1, cur =>
      if cur = next then []
      else
        cur ::
          match parent cur with
          | some up => traceCycle parent next fuel up
          | none => []

/-- The search from one node, with its stack of nodes and positions in their adjacency lists:
a cycle that it closes, or what it has marked. -/
def searchCycle (succ : ℕ → List ℕ) (n : ℕ) :
    ℕ → List (ℕ × ℕ) → DfsMarks → Except (List ℕ) DfsMarks
  | 0, _, marks => .ok marks
  | _ + 1, [], marks => .ok marks
  | fuel + 1, (node, i) :: stack, marks =>
      match (succ node)[i]? with
      | none => searchCycle succ n fuel stack
          { marks with color := Function.update marks.color node .black }
      | some next =>
          match marks.color next with
          | .gray => .error (next :: traceCycle marks.parent next n node ++ [next]).reverse
          | .white => searchCycle succ n fuel ((next, 0) :: (node, i + 1) :: stack)
              ⟨Function.update marks.color next .gray,
                Function.update marks.parent next (some node)⟩
          | .black => searchCycle succ n fuel ((node, i + 1) :: stack) marks

/-- `find_cycle`, from the nodes that Kahn's algorithm has left over.  A round of a search
finishes a node or moves on in an adjacency list. -/
def findCycle (left : List ℕ) : List ℕ :=
  let succ := fun u => (adj edges u).dedup.mergeSort
  let result := left.foldlM (fun marks start =>
    if marks.color start = .white then
      searchCycle succ nodes.length (nodes.length + edges.length + 1) [(start, 0)]
        { marks with color := Function.update marks.color start .gray }
    else .ok marks) (⟨fun _ => .white, fun _ => none⟩ : DfsMarks)
  match result with
  | .error cycle => cycle
  | .ok _ => []

/-- `topological_sort`: the order, or a cycle.  The nodes whose in-degree stays positive are
those that the algorithm does not visit. -/
def topologicalSort : List PipelineError × List ℕ :=
  let order := kahnOrder nodes edges
  if order.length ≠ nodes.length then
    let left := (List.range nodes.length).filter (· ∉ order)
    let cycle := findCycle nodes edges left
    ([.cycleDetected flowName ((if cycle = [] then left else cycle).map (nodeName nodes))], [])
  else ([], order)

/-! ### Reachability -/

/-- The indices of the sources. -/
def sourceNodes : List ℕ :=
  (List.range nodes.length).filter fun idx => nodes[idx]?.any fun n => n.role = .source

/-- The nodes that a breadth-first search from the sources visits. -/
def visited : ℕ → Bool := search (List.range nodes.length) (adj edges) (sourceNodes nodes)

/-- `check_connectedness`. -/
def checkConnectedness : List PipelineError :=
  nodes.zipIdx.flatMap fun (node, idx) =>
    if visited nodes edges idx then [] else [.disconnectedNode flowName node.name]

/-- `validate_topology`: the errors, and the execution order. -/
def validateTopology (order : PortOrder) : List PipelineError × List ℕ :=
  if nodes = [] then ([.emptyTopology flowName], [])
  else
    let (cycleErrors, topoOrder) := topologicalSort flowName nodes edges
    (checkSourceAndSink flowName nodes ++ checkRoleConsistency flowName nodes edges ++
        checkFanLimits flowName nodes edges order ++ cycleErrors ++
        (if topoOrder = [] then [] else checkConnectedness flowName nodes edges),
      topoOrder)

end Checks

/-! ## What the checks accept -/

/-- Some edge leads from one node to the other. -/
def Link (edges : List TopologyEdge) (u v : ℕ) : Prop :=
  ∃ e ∈ edges, e.fromNode = u ∧ e.toNode = v

/-- The conditions that the checks are about. -/
structure Sound (nodes : List TopologyNode) (edges : List TopologyEdge) : Prop where
  hasSource : ∃ n ∈ nodes, n.role = .source
  hasSink : ∃ n ∈ nodes, n.role = .sink
  sourceIn : ∀ idx node, nodes[idx]? = some node → node.role = .source →
    ∀ e ∈ edges, e.toNode ≠ idx
  sinkOut : ∀ idx node, nodes[idx]? = some node → node.role = .sink →
    ∀ e ∈ edges, e.fromNode ≠ idx
  inner : ∀ idx node, nodes[idx]? = some node → node.role ≠ .source → node.role ≠ .sink →
    (∃ e ∈ edges, e.toNode = idx) ∧ ∃ e ∈ edges, e.fromNode = idx
  fanOut : ∀ port, (edges.countP fun e => outPort e = port) ≤ defaultMaxFanOut
  fanIn : ∀ port, (edges.countP fun e => inPort e = port) ≤ defaultMaxFanIn
  acyclic : Acyclic (Link edges)
  reached : ∀ idx < nodes.length, ∃ source, (∃ n, nodes[source]? = some n ∧ n.role = .source) ∧
    ReflTransGen (Link edges) source idx

variable {flowName : String} {nodes : List TopologyNode} {edges : List TopologyEdge}

theorem edge_adj : Edge (adj edges) = Link edges := by
  funext u v
  exact propext mem_bucket

theorem checkSourceAndSink_eq_nil_iff : checkSourceAndSink flowName nodes = [] ↔
    (∃ n ∈ nodes, n.role = .source) ∧ ∃ n ∈ nodes, n.role = .sink := by
  unfold checkSourceAndSink
  rw [List.append_eq_nil_iff]
  simp

theorem hasIncoming_iff {idx : ℕ} : hasIncoming edges idx = true ↔ ∃ e ∈ edges, e.toNode = idx := by
  simp [hasIncoming]

theorem hasOutgoing_iff {idx : ℕ} :
    hasOutgoing edges idx = true ↔ ∃ e ∈ edges, e.fromNode = idx := by
  simp [hasOutgoing]

/-- A check that runs over the nodes with their indices finds nothing exactly when it finds
nothing at any node. -/
theorem flatMap_zipIdx_eq_nil_iff {f : ℕ → TopologyNode → List PipelineError} :
    (nodes.zipIdx.flatMap fun p => f p.2 p.1) = [] ↔
      ∀ idx node, nodes[idx]? = some node → f idx node = [] := by
  rw [List.flatMap_eq_nil_iff]
  constructor
  · intro h idx node hnode
    exact h (node, idx) (List.mk_mem_zipIdx_iff_getElem?.mpr hnode)
  · rintro h ⟨node, idx⟩ hnode
    exact h idx node (List.mk_mem_zipIdx_iff_getElem?.mp hnode)

theorem checkRoleConsistency_eq_nil_iff : checkRoleConsistency flowName nodes edges = [] ↔
    (∀ idx node, nodes[idx]? = some node → node.role = .source → ∀ e ∈ edges, e.toNode ≠ idx) ∧
    (∀ idx node, nodes[idx]? = some node → node.role = .sink → ∀ e ∈ edges, e.fromNode ≠ idx) ∧
    ∀ idx node, nodes[idx]? = some node → node.role ≠ .source → node.role ≠ .sink →
      (∃ e ∈ edges, e.toNode = idx) ∧ ∃ e ∈ edges, e.fromNode = idx := by
  have hnode : ∀ idx node, roleErrors flowName edges idx node = [] ↔
      (node.role = .source → ∀ e ∈ edges, e.toNode ≠ idx) ∧
      (node.role = .sink → ∀ e ∈ edges, e.fromNode ≠ idx) ∧
      (node.role ≠ .source → node.role ≠ .sink →
        (∃ e ∈ edges, e.toNode = idx) ∧ ∃ e ∈ edges, e.fromNode = idx) := by
    intro idx node
    unfold roleErrors
    rw [← hasIncoming_iff, ← hasOutgoing_iff]
    have hin : (∀ e ∈ edges, e.toNode ≠ idx) ↔ hasIncoming edges idx = false := by
      rw [← Bool.not_eq_true, hasIncoming_iff]
      push Not
      rfl
    have hout : (∀ e ∈ edges, e.fromNode ≠ idx) ↔ hasOutgoing edges idx = false := by
      rw [← Bool.not_eq_true, hasOutgoing_iff]
      push Not
      rfl
    rw [hin, hout]
    cases node.role <;> simp
  unfold checkRoleConsistency
  rw [flatMap_zipIdx_eq_nil_iff]
  simp only [hnode]
  constructor
  · intro h
    exact ⟨fun idx node hn => (h idx node hn).1, fun idx node hn => (h idx node hn).2.1,
      fun idx node hn => (h idx node hn).2.2⟩
  · rintro ⟨hsource, hsink, hinner⟩ idx node hn
    exact ⟨hsource idx node hn, hsink idx node hn, hinner idx node hn⟩

/-- A fan limit is kept exactly when no port has more edges. -/
theorem fanErrors_eq_nil_iff {order : PortOrder} {port : TopologyEdge → ℕ × String} {limit : ℕ}
    {direction : String} : fanErrors flowName nodes edges order port limit direction = [] ↔
      ∀ key, (edges.countP fun e => port e = key) ≤ limit := by
  unfold fanErrors
  rw [List.flatMap_eq_nil_iff, ← forall_tally_le_iff]
  refine forall_congr' fun key => ?_
  rw [(order.perm _).mem_iff, List.mem_dedup]
  refine imp_congr_right fun _ => ?_
  by_cases hover : tally port edges key > limit
  · simp only [if_pos hover]
    exact iff_of_false (List.cons_ne_nil _ _) (Nat.not_le.mpr hover)
  · simp only [if_neg hover, true_iff]
    exact Nat.not_lt.mp hover

section Bounds

variable (hbounds : ∀ e ∈ edges, e.fromNode < nodes.length ∧ e.toNode < nodes.length)
include hbounds

theorem adj_lt {u v : ℕ} (hv : v ∈ adj edges u) :
    u ∈ List.range nodes.length ∧ v ∈ List.range nodes.length := by
  obtain ⟨e, he, rfl, rfl⟩ := mem_bucket.mp hv
  exact ⟨List.mem_range.mpr (hbounds e he).1, List.mem_range.mpr (hbounds e he).2⟩

theorem inDegree_eq (v : ℕ) :
    inDegree edges v = openDegree (List.range nodes.length) (adj edges) [] v :=
  openDegree_bucket (fun e he => List.mem_range.mpr (hbounds e he).1) v

theorem kahnOrder_length_iff :
    (kahnOrder nodes edges).length = nodes.length ↔ Acyclic (Link edges) := by
  have h := kahn_length_iff List.nodup_range (fun u w => adj_lt hbounds) (inDegree_eq hbounds)
  rw [List.length_range, edge_adj] at h
  exact h

/-- An order of all nodes lists each of them once, and every edge goes forward. -/
theorem kahnOrder_spec (hlength : (kahnOrder nodes edges).length = nodes.length) :
    (kahnOrder nodes edges).Perm (List.range nodes.length) ∧
      ∀ e ∈ edges, (kahnOrder nodes edges).idxOf e.fromNode <
        (kahnOrder nodes edges).idxOf e.toNode := by
  have hsucc : ∀ u ∈ List.range nodes.length, ∀ w ∈ adj edges u, w ∈ List.range nodes.length :=
    fun u _ w hw => (adj_lt hbounds hw).2
  have hall : (kahn (List.range nodes.length) (adj edges) (inDegree edges)).length =
      (List.range nodes.length).length := hlength.trans List.length_range.symm
  refine ⟨kahn_perm List.nodup_range hsucc (inDegree_eq hbounds) hall, fun e he => ?_⟩
  apply kahn_idxOf_lt List.nodup_range hsucc (inDegree_eq hbounds) hall
  · exact List.mem_range.mpr (hbounds e he).1
  · exact mem_bucket.mpr ⟨e, he, rfl, rfl⟩

theorem visited_iff (idx : ℕ) : visited nodes edges idx = true ↔
    ∃ source, (∃ n, nodes[source]? = some n ∧ n.role = .source) ∧
      ReflTransGen (Link edges) source idx := by
  have hsource : ∀ source, source ∈ sourceNodes nodes ↔
      ∃ n, nodes[source]? = some n ∧ n.role = .source := by
    intro source
    unfold sourceNodes
    rw [List.mem_filter, List.mem_range, Option.any_eq_true]
    constructor
    · rintro ⟨-, n, hn, hrole⟩
      exact ⟨n, hn, of_decide_eq_true hrole⟩
    · rintro ⟨n, hn, hrole⟩
      exact ⟨(List.getElem?_eq_some_iff.mp hn).1, n, hn, decide_eq_true hrole⟩
  have hsucc : ∀ u ∈ List.range nodes.length, ∀ w ∈ adj edges u, w ∈ List.range nodes.length :=
    fun u _ w hw => (adj_lt hbounds hw).2
  have hroots : (sourceNodes nodes).Nodup := List.nodup_range.filter _
  unfold visited
  rw [search_iff hsucc hroots (fun r hr => (List.mem_filter.mp hr).1), edge_adj]
  simp only [hsource]

theorem checkConnectedness_eq_nil_iff : checkConnectedness flowName nodes edges = [] ↔
    ∀ idx < nodes.length, ∃ source, (∃ n, nodes[source]? = some n ∧ n.role = .source) ∧
      ReflTransGen (Link edges) source idx := by
  have hnode : ∀ (idx : ℕ) (node : TopologyNode),
      (if visited nodes edges idx then [] else [PipelineError.disconnectedNode flowName node.name])
        = [] ↔ visited nodes edges idx = true := by
    intro idx node
    split
    · rename_i hseen
      exact iff_of_true rfl hseen
    · rename_i hseen
      exact iff_of_false (List.cons_ne_nil _ _) hseen
  unfold checkConnectedness
  rw [flatMap_zipIdx_eq_nil_iff (f := fun idx node =>
    if visited nodes edges idx then [] else [PipelineError.disconnectedNode flowName node.name])]
  simp only [hnode, visited_iff hbounds]
  constructor
  · intro h idx hidx
    exact h idx nodes[idx] (List.getElem?_eq_getElem hidx)
  · intro h idx node hnode
    exact h idx (List.getElem?_eq_some_iff.mp hnode).1

/-- **The checks find nothing exactly in the sound topologies**, and the order then lists the
nodes with every edge forward. -/
theorem validateTopology_spec (order : PortOrder) :
    ((validateTopology flowName nodes edges order).1 = [] ↔ Sound nodes edges) ∧
    ((validateTopology flowName nodes edges order).1 = [] →
      (validateTopology flowName nodes edges order).2 = kahnOrder nodes edges ∧
        (kahnOrder nodes edges).length = nodes.length) := by
  by_cases hnodes : nodes = []
  · unfold validateTopology
    rw [if_pos hnodes]
    refine ⟨iff_of_false (List.cons_ne_nil _ _) fun h => ?_, fun h => by cases h⟩
    obtain ⟨n, hn, -⟩ := h.hasSource
    rw [hnodes] at hn
    cases hn
  by_cases hlength : (kahnOrder nodes edges).length = nodes.length
  · have hsort : topologicalSort flowName nodes edges = ([], kahnOrder nodes edges) :=
      if_neg (not_not.mpr hlength)
    have horder : kahnOrder nodes edges ≠ [] := fun hnil => by
      rw [hnil] at hlength
      exact hnodes (List.eq_nil_of_length_eq_zero hlength.symm)
    unfold validateTopology
    rw [if_neg hnodes, hsort]
    refine ⟨?_, fun _ => ⟨rfl, hlength⟩⟩
    simp only [if_neg horder, List.append_eq_nil_iff, and_true, checkFanLimits,
      checkSourceAndSink_eq_nil_iff, checkRoleConsistency_eq_nil_iff, fanErrors_eq_nil_iff,
      checkConnectedness_eq_nil_iff hbounds]
    constructor
    · rintro ⟨⟨⟨⟨hsource, hsink⟩, hin, hout, hinner⟩, hfanOut, hfanIn⟩, hreached⟩
      exact ⟨hsource, hsink, hin, hout, hinner, hfanOut, hfanIn,
        (kahnOrder_length_iff hbounds).mp hlength, hreached⟩
    · intro h
      exact ⟨⟨⟨⟨h.hasSource, h.hasSink⟩, h.sourceIn, h.sinkOut, h.inner⟩, h.fanOut, h.fanIn⟩,
        h.reached⟩
  · have herror : (validateTopology flowName nodes edges order).1 ≠ [] := by
      unfold validateTopology topologicalSort
      rw [if_neg hnodes, if_pos hlength]
      simp
    exact ⟨iff_of_false herror fun h => hlength ((kahnOrder_length_iff hbounds).mpr h.acyclic),
      fun h => absurd h herror⟩

end Bounds

end Torvyn.Pipeline
