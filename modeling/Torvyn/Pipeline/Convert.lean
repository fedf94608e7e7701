/-
# From flow definitions to pipelines

The flow definitions of `torvyn-config/src/pipeline.rs` with their validation, and
their translation by `torvyn-pipeline/src/convert.rs`.  The settings of a queue then
pass through the pipeline and the flow to the stream.

An edge may leave its settings to its flow, and the flow to the runtime.  The
translation takes an edge's own settings only: what a flow says about its queues is
never read, and a policy that has no meaning is taken for `block-producer`.
`queue_settings_iff` says for which edges the stream runs as asked all the same.
-/
import Torvyn.Pipeline.Instantiate
import Torvyn.Reactor.Run
import Torvyn.Text

namespace Torvyn.Pipeline

open Reactor

/-! ## Flow definitions -/

/-- The settings of a queue. -/
structure BackpressureConfig where
  defaultQueueDepth : UInt64
  backpressurePolicy : String
  deriving DecidableEq, Repr

/-- One end of an edge. -/
structure EdgeEndpoint where
  node : String
  port : String
  deriving DecidableEq, Repr

/-- An edge of a flow, with the settings that it overrides. -/
structure EdgeDef where
  source : EdgeEndpoint
  target : EdgeEndpoint
  queueDepth : Option UInt64
  backpressure : Option BackpressureConfig
  deriving DecidableEq, Repr

/-- A node of a flow. -/
structure NodeDef where
  component : String
  interface : String
  config : Option String
  fuelBudget : Option UInt64
  maxMemory : Option String
  priority : Option UInt32
  deriving DecidableEq, Repr

/-- A flow.  The nodes are in the order of their names. -/
structure FlowDef where
  description : String
  nodes : KeyMap String NodeDef
  edges : List EdgeDef
  schedulingPolicy : Option String
  defaultQueueDepth : Option UInt64
  backpressure : Option BackpressureConfig

/-! ## Validation -/

/-- What is wrong with a configuration, and where. -/
structure ConfigParseError where
  code : String
  file : String
  keyPath : String
  message : String
  expected : String
  found : String
  suggestion : String
  deriving DecidableEq, Repr

namespace ConfigParseError

/-- `missing_field`. -/
def missingField (file keyPath context : String) : ConfigParseError :=
  ⟨"E0702", file, keyPath, s!"Missing required field '{keyPath}'",
    s!"field '{keyPath}' to be present in {context}", "field is absent",
    s!"Add `{keyPath} = <value>` to the [{context}] section."⟩

/-- `invalid_value`. -/
def invalidValue (file keyPath found expected suggestion : String) : ConfigParseError :=
  ⟨"E0703", file, keyPath, s!"Invalid value for '{keyPath}'", expected, found, suggestion⟩

/-- `semantic`. -/
def semantic (file keyPath message suggestion : String) : ConfigParseError :=
  ⟨"E0704", file, keyPath, message, "", "", suggestion⟩

end ConfigParseError

section Validation

variable (file name : String) (flow : FlowDef)

/-- What is wrong with the size of a flow. -/
def sizeErrors : List ConfigParseError :=
  let nodeCount := flow.nodes.keys.length
  (if nodeCount < 2 then
    [.semantic file s!"flow.{name}"
      (s!"Flow '{name}' has {nodeCount} node(s), but at least 2 are required " ++
        "(a source and a sink)")
      "Add at least a source and a sink node."]
    else []) ++
  (if flow.edges = [] then
    [.semantic file s!"flow.{name}.edges" s!"Flow '{name}' has no edges"
      "Add at least one edge connecting a source to a sink."]
    else [])

/-- What is wrong with a node. -/
def nodeErrors (nodeName : String) (nodeDef : NodeDef) : List ConfigParseError :=
  let path := s!"flow.{name}.nodes.{nodeName}"
  (if nodeDef.component = "" then [.missingField file s!"{path}.component" path] else []) ++
  (if nodeDef.interface = "" then [.missingField file s!"{path}.interface" path] else []) ++
  match nodeDef.priority with
  | some priority =>
      if 1 ≤ priority ∧ priority ≤ 10 then []
      else
        [.invalidValue file s!"{path}.priority" (toString priority) "an integer between 1 and 10"
          "Set priority to a value from 1 (lowest) to 10 (highest)."]
  | none => []

/-- An end of an edge that is no node. -/
def endpointErrors (i : ℕ) (side : String) (node : String) : List ConfigParseError :=
  if node ∈ flow.nodes then []
  else
    [.semantic file s!"flow.{name}.edges[{i}].{side}.node"
      s!"Edge references non-existent node '{node}'"
      s!"Ensure '{node}' is defined in [flow.{name}.nodes]."]

/-- What is wrong with an edge. -/
def edgeErrors (i : ℕ) (edge : EdgeDef) : List ConfigParseError :=
  endpointErrors file name flow i "from" edge.source.node ++
  endpointErrors file name flow i "to" edge.target.node ++
  (if edge.source.node = edge.target.node then
    [.semantic file s!"flow.{name}.edges[{i}]"
      s!"Self-loop: edge from '{edge.source.node}' to itself"
      "Remove the self-loop or use different nodes."]
    else []) ++
  (if edge.queueDepth = some 0 then
    [.invalidValue file s!"flow.{name}.edges[{i}].queue_depth" "0" "a positive integer"
      "Queue depth must be at least 1."]
    else [])

/-- `validate_flow`. -/
def validateFlow : List ConfigParseError :=
  sizeErrors file name flow ++
  flow.nodes.entries.flatMap (fun e => nodeErrors file name e.1 e.2) ++
  flow.edges.zipIdx.flatMap (fun p => edgeErrors file name flow p.2 p.1)

end Validation

/-! ## Translation -/

/-- `infer_role_from_interface`. -/
def inferRoleFromInterface (interface : String) : Option ComponentRole :=
  if contains interface "/source" then some .source
  else if contains interface "/processor" then some .processor
  else if contains interface "/sink" then some .sink
  else if contains interface "/filter" then some .filter
  else if contains interface "/router" then some .router
  else none

/-- The policy that a name stands for.  Any name without a meaning is taken for
`block-producer`. -/
def policyOf (name : String) : BackpressurePolicy :=
  if name = "drop-oldest" then .dropOldest
  else if name = "drop-newest" then .dropNewest
  else if name = "error" then .error
  else .blockProducer

/-- `edge_def_to_config`. -/
def edgeDefToConfig (edgeDef : EdgeDef) : EdgeConfig :=
  ⟨edgeDef.queueDepth, edgeDef.backpressure.map fun bp => policyOf bp.backpressurePolicy⟩

/-- The loop over the nodes.  What becomes of a node's limits, its grants and its component
reference is read from outside: the resolved reference, or why there is none. -/
def addNodes (configure : String → NodeDef → Except (List PipelineError) String) :
    PipelineTopologyBuilder → List (String × NodeDef) →
      Except (List PipelineError) PipelineTopologyBuilder
  | b, [] => .ok b
  | b, (nodeName, nodeDef) :: nodes =>
      match configure nodeName nodeDef with
      | .error errors => .error errors
      | .ok componentRef =>
          addNodes configure
            (b.addNodeWithInterface nodeName
              ((inferRoleFromInterface nodeDef.interface).getD .processor) componentRef
              nodeDef.interface) nodes

/-- Add one edge. -/
def addEdgeDef (b : PipelineTopologyBuilder) (edgeDef : EdgeDef) : PipelineTopologyBuilder :=
  b.addEdgeWithConfig edgeDef.source.node edgeDef.source.port edgeDef.target.node
    edgeDef.target.port (edgeDefToConfig edgeDef)

/-- `flow_def_to_topology`. -/
def flowDefToTopology (configure : String → NodeDef → Except (List PipelineError) String)
    (order : PortOrder) (flowName : String) (flow : FlowDef) :
    Except (List PipelineError) PipelineTopology :=
  let b := (PipelineTopologyBuilder.new flowName).call (.description flow.description)
  match addNodes configure b (flow.nodes.entries.map fun e => (e.1, e.2)) with
  | .error errors => .error errors
  | .ok b => (flow.edges.foldl addEdgeDef b).build order

/-! ## What a definition asks for -/

/-- The policies by their names. -/
def supportedPolicy (name : String) : Option BackpressurePolicy :=
  if name = "block-producer" then some .blockProducer
  else if name = "drop-oldest" then some .dropOldest
  else if name = "drop-newest" then some .dropNewest
  else if name = "error" then some .error
  else none

/-- The depth that is asked for: of the edge, else of the flow, else of the runtime. -/
def effectiveDepth (runtime : FlowConfig) (flow : FlowDef) (edge : EdgeDef) : UInt64 :=
  (edge.queueDepth.or flow.defaultQueueDepth).getD runtime.defaultQueueCapacity

/-- The policy that is asked for.  There is none if the name has no meaning. -/
def effectivePolicy (runtime : FlowConfig) (flow : FlowDef) (edge : EdgeDef) :
    Option BackpressurePolicy :=
  match edge.backpressure.or flow.backpressure with
  | some bp => supportedPolicy bp.backpressurePolicy
  | none => some runtime.defaultBackpressurePolicy

/-- The stream of the edge of index `i` has the depth and the policy that are asked for, and
joins the stages of the two nodes. -/
def RunsAsAsked (flow : FlowDef) (t : PipelineTopology) (config : FlowConfig)
    (streams : List StreamState) (i : ℕ) (edge : EdgeDef) : Prop :=
  ∃ stream, streams[i]? = some stream ∧
    stream.queue.capacity = (effectiveDepth config flow edge).toNat ∧
    effectivePolicy config flow edge = some stream.backpressurePolicy ∧
    ∃ (u v : ℕ) (source target : TopologyNode), t.nodes[u]? = some source ∧ source.name = edge.source.node ∧
      t.nodes[v]? = some target ∧ target.name = edge.target.node ∧
      stream.producer = componentIdOf u ∧ stream.consumer = componentIdOf v

/-- The settings reach the stream although those of the flow are not read: the depth is the
edge's own, or the flow's is the default; the policy is the edge's own and supported, or the
flow's is the default. -/
structure SettingsReach (flow : FlowDef) (edge : EdgeDef) : Prop where
  depth : edge.queueDepth = none → flow.defaultQueueDepth = none ∨ flow.defaultQueueDepth = some 64
  own : ∀ bp, edge.backpressure = some bp → (supportedPolicy bp.backpressurePolicy).isSome = true
  inherited : edge.backpressure = none → ∀ bp, flow.backpressure = some bp →
    bp.backpressurePolicy = "block-producer"

/-! ## The translation, step by step -/

theorem addNodes_spec {configure : String → NodeDef → Except (List PipelineError) String}
    {nodes : List (String × NodeDef)} {b b' : PipelineTopologyBuilder} (hindexed : b.Indexed)
    (h : addNodes configure b nodes = .ok b') : b'.Indexed ∧ b'.edges = b.edges := by
  induction nodes generalizing b with
  | nil =>
      obtain rfl := Except.ok.inj h
      exact ⟨hindexed, rfl⟩
  | cons node nodes ih =>
      obtain ⟨nodeName, nodeDef⟩ := node
      unfold addNodes at h
      split at h
      · cases h
      · obtain ⟨hindexed', hedges⟩ := ih (hindexed.addNodeWithInterface _ _ _ _) h
        exact ⟨hindexed', hedges⟩

/-- The edge of the builder that an edge of a flow becomes. -/
def pendingOf (edgeDef : EdgeDef) : PendingEdge :=
  ⟨edgeDef.source.node, edgeDef.source.port, edgeDef.target.node, edgeDef.target.port,
    edgeDefToConfig edgeDef⟩

theorem foldl_addEdgeDef (edges : List EdgeDef) (b : PipelineTopologyBuilder) :
    edges.foldl addEdgeDef b = { b with edges := b.edges ++ edges.map pendingOf } := by
  induction edges generalizing b with
  | nil => rw [List.map_nil, List.append_nil, List.foldl_nil]
  | cons edge edges ih =>
      rw [List.foldl_cons, ih, List.map_cons]
      show _ = { b with edges := b.edges ++ ([pendingOf edge] ++ edges.map pendingOf) }
      rw [← List.append_assoc]
      rfl

/-- What a flow definition is translated to: the edge of index `i` joins the nodes that the
definition names, under the settings that it was given. -/
theorem flowDefToTopology_spec
    {configure : String → NodeDef → Except (List PipelineError) String} {order : PortOrder}
    {flowName : String} {flow : FlowDef} {t : PipelineTopology}
    (h : flowDefToTopology configure order flowName flow = .ok t) :
    t.edges.length = flow.edges.length ∧ ∀ (i : ℕ) (edge : EdgeDef), flow.edges[i]? = some edge →
      ∃ (r : TopologyEdge) (source target : TopologyNode), t.edges[i]? = some r ∧ r.edgeConfig = edgeDefToConfig edge ∧
        t.nodes[r.fromNode]? = some source ∧ source.name = edge.source.node ∧
        t.nodes[r.toNode]? = some target ∧ target.name = edge.target.node := by
  unfold flowDefToTopology at h
  simp only at h
  split at h
  · cases h
  · rename_i b hnodes
    have hnew := PipelineTopologyBuilder.indexed_ofCalls flowName
      [.description flow.description]
    obtain ⟨hindexed, hempty⟩ := addNodes_spec hnew hnodes
    have hedges : b.edges = [] := hempty
    rw [foldl_addEdgeDef, hedges, List.nil_append] at h
    obtain ⟨hsame, hresolves, -⟩ := PipelineTopologyBuilder.build_spec
      (b := { b with edges := flow.edges.map pendingOf }) ⟨hindexed.named, hindexed.total⟩ h
    have hresolves : List.Forall₂ (PipelineTopologyBuilder.Resolves _)
      (flow.edges.map pendingOf) t.edges := hresolves
    have hlength : t.edges.length = flow.edges.length := by
      rw [← hresolves.length_eq, List.length_map]
    refine ⟨hlength, fun i edge hedge => ?_⟩
    obtain ⟨hlt, rfl⟩ := List.getElem?_eq_some_iff.mp hedge
    have hlt' : i < t.edges.length := hlength ▸ hlt
    have hres := (List.forall₂_iff_get.mp hresolves).2 i (by rwa [List.length_map]) hlt'
    rw [List.get_eq_getElem, List.get_eq_getElem, List.getElem_map] at hres
    obtain ⟨source, hsource, hsourceName⟩ := hres.fromNode
    obtain ⟨target, htarget, htargetName⟩ := hres.toNode
    exact ⟨t.edges[i], source, target, List.getElem?_eq_getElem hlt', hres.config,
      hsame ▸ hsource, hsourceName, hsame ▸ htarget, htargetName⟩

/-- The streams of connections that all have a stream. -/
theorem exists_spawnStreamsFrom {flowId : FlowId} {config : FlowConfig}
    {conns : List StreamConnection} (idx : ℕ) (h : ∀ i conn, conns[i]? = some conn →
      ∃ s, spawnStream flowId config (idx + i) conn = some s) :
    ∃ streams, spawnStreamsFrom flowId config idx conns = some streams ∧
      ∀ i conn, conns[i]? = some conn →
        ∃ s, streams[i]? = some s ∧ spawnStream flowId config (idx + i) conn = some s := by
  induction conns generalizing idx with
  | nil => exact ⟨[], rfl, fun i conn hconn => by cases hconn⟩
  | cons conn conns ih =>
      obtain ⟨first, hfirst⟩ := h 0 conn rfl
      obtain ⟨rest, hrest, hall⟩ := ih (idx + 1) fun i conn' hconn => by
        rw [Nat.add_assoc, Nat.add_comm 1 i]
        exact h (i + 1) conn' hconn
      refine ⟨first :: rest, ?_, fun i conn' hconn => ?_⟩
      · have hspawn : spawnStream flowId config idx conn = some first := hfirst
        unfold spawnStreamsFrom
        rw [hspawn, hrest]
        rfl
      · cases i with
        | zero =>
            obtain rfl := Option.some.inj hconn
            exact ⟨first, rfl, hfirst⟩
        | succ i =>
            obtain ⟨s, hs, hspawn⟩ := hall i conn' hconn
            rw [Nat.add_assoc, Nat.add_comm 1 i] at hspawn
            exact ⟨s, hs, hspawn⟩

/-- A stream with a positive capacity. -/
theorem exists_spawnStream {flowId : FlowId} {config : FlowConfig} {idx : ℕ}
    {conn : StreamConnection} {producer consumer : StageDefinition}
    (hproducer : config.topology.stages[conn.fromStage]? = some producer)
    (hconsumer : config.topology.stages[conn.toStage]? = some consumer)
    (hpos : conn.config.capacity.getD config.defaultQueueCapacity ≠ 0) :
    ∃ s, spawnStream flowId config idx conn = some s ∧
      s.queue.capacity = (conn.config.capacity.getD config.defaultQueueCapacity).toNat ∧
      s.backpressurePolicy =
        conn.config.backpressurePolicy.getD config.defaultBackpressurePolicy ∧
      s.producer = producer.componentId ∧ s.consumer = consumer.componentId := by
  have hcapacity : 0 < (conn.config.capacity.getD config.defaultQueueCapacity).toNat :=
    Nat.pos_of_ne_zero fun hzero => hpos (UInt64.toNat_inj.mp hzero)
  unfold spawnStream StreamState.new BoundedQueue.new
  rw [hproducer, hconsumer, Option.bind_some, Option.bind_some, dif_pos hcapacity]
  exact ⟨_, rfl, rfl, rfl, rfl, rfl⟩

theorem queueDepth_ne_zero {file name : String} {flow : FlowDef}
    (h : validateFlow file name flow = []) {i : ℕ} {edge : EdgeDef}
    (hedge : flow.edges[i]? = some edge) : edge.queueDepth ≠ some 0 := by
  unfold validateFlow at h
  have hedges := List.flatMap_eq_nil_iff.mp (List.append_eq_nil_iff.mp h).2 (edge, i)
    (List.mk_mem_zipIdx_iff_getElem?.mpr hedge)
  intro hzero
  have hlast := (List.append_eq_nil_iff.mp hedges).2
  rw [if_pos hzero] at hlast
  cases hlast

/-- A name with a meaning is read by it. -/
theorem supportedPolicy_eq_some_iff {name : String} {policy : BackpressurePolicy} :
    supportedPolicy name = some policy ↔
      (supportedPolicy name).isSome = true ∧ policyOf name = policy := by
  unfold supportedPolicy policyOf
  by_cases hblock : name = "block-producer"
  · subst hblock
    simp
  · split_ifs <;> simp_all

theorem supportedPolicy_eq_block_iff {name : String} :
    supportedPolicy name = some .blockProducer ↔ name = "block-producer" := by
  unfold supportedPolicy
  split_ifs with hblock <;> simp [hblock]

/-! ## Effective settings -/

section Settings

variable {t : FlowTopology} {flow : FlowDef} {edge : EdgeDef}

/-- The edge's own depth, or 64, is the depth that is asked for. -/
theorem depth_iff : (edge.queueDepth.getD 64).toNat =
      (effectiveDepth (.defaultWithTopology t) flow edge).toNat ↔
    (edge.queueDepth = none → flow.defaultQueueDepth = none ∨ flow.defaultQueueDepth = some 64) := by
  rw [UInt64.toNat_inj]
  unfold effectiveDepth
  cases edge.queueDepth with
  | some depth => simp
  | none =>
      cases flow.defaultQueueDepth with
      | none => exact iff_of_true rfl fun _ => .inl rfl
      | some depth =>
          constructor
          · intro h _
            exact .inr (congrArg some (Eq.symm h))
          · intro h
            rcases h rfl with h | h
            · cases h
            · exact (Option.some.inj h).symm

/-- The edge's own policy as it is read, or `block-producer`, is the policy that is asked for. -/
theorem policy_iff : effectivePolicy (.defaultWithTopology t) flow edge =
      some ((edge.backpressure.map fun bp => policyOf bp.backpressurePolicy).getD .blockProducer) ↔
    (∀ bp, edge.backpressure = some bp → (supportedPolicy bp.backpressurePolicy).isSome = true) ∧
    (edge.backpressure = none → ∀ bp, flow.backpressure = some bp →
      bp.backpressurePolicy = "block-producer") := by
  unfold effectivePolicy
  cases edge.backpressure with
  | some own =>
      show supportedPolicy own.backpressurePolicy = some (policyOf own.backpressurePolicy) ↔ _
      rw [supportedPolicy_eq_some_iff, and_iff_left rfl]
      constructor
      · intro h
        refine ⟨fun bp hbp => ?_, fun hnone => by cases hnone⟩
        obtain rfl := Option.some.inj hbp
        exact h
      · intro h
        exact h.1 own rfl
  | none =>
      cases flow.backpressure with
      | none =>
          refine iff_of_true rfl ⟨fun bp hbp => ?_, fun _ bp hbp => ?_⟩
          · cases hbp
          · cases hbp
      | some inherited =>
          show supportedPolicy inherited.backpressurePolicy = some .blockProducer ↔ _
          rw [supportedPolicy_eq_block_iff]
          constructor
          · intro h
            refine ⟨fun bp hbp => (nomatch hbp), fun _ bp hbp => ?_⟩
            obtain rfl := Option.some.inj hbp
            exact h
          · intro h
            exact h.2 rfl inherited rfl

end Settings

/-- **Effective queue settings.**  In a flow that passes validation and is translated, every edge
gets a stream, and the stream of an edge runs as asked exactly when its settings reach it. -/
theorem queue_settings_iff {file name : String} {flow : FlowDef} {order : PortOrder}
    {configure : String → NodeDef → Except (List PipelineError) String} {t : PipelineTopology}
    (flowId : FlowId) (hvalid : validateFlow file name flow = [])
    (ht : flowDefToTopology configure order name flow = .ok t) :
    ∃ streams, spawnStreams flowId (.defaultWithTopology (flowTopology t)) = some streams ∧
      ∀ (i : ℕ) (edge : EdgeDef), flow.edges[i]? = some edge →
        (RunsAsAsked flow t (.defaultWithTopology (flowTopology t)) streams i edge ↔
          SettingsReach flow edge) := by
  obtain ⟨hlength, hedges⟩ := flowDefToTopology_spec ht
  have hstream : ∀ i edge, flow.edges[i]? = some edge → ∀ conn,
      (flowTopology t).connections[i]? = some conn →
      ∃ s, spawnStream flowId (.defaultWithTopology (flowTopology t)) (0 + i) conn = some s ∧
        s.queue.capacity = (edge.queueDepth.getD 64).toNat ∧
        s.backpressurePolicy = ((edge.backpressure.map fun bp =>
          policyOf bp.backpressurePolicy).getD .blockProducer) ∧
        ∃ (u v : ℕ) (source target : TopologyNode), t.nodes[u]? = some source ∧ source.name = edge.source.node ∧
          t.nodes[v]? = some target ∧ target.name = edge.target.node ∧
          s.producer = componentIdOf u ∧ s.consumer = componentIdOf v := by
    intro i edge hedge conn hconn
    obtain ⟨r, source, target, hr, hconfig, hsource, hsourceName, htarget, htargetName⟩ :=
      hedges i edge hedge
    have hconn' : conn = ⟨r.fromNode, r.toNode, streamConfigFromEdge r.edgeConfig⟩ := by
      unfold flowTopology at hconn
      rw [List.getElem?_map, hr] at hconn
      exact (Option.some.inj hconn).symm
    have hcapacity : conn.config.capacity = edge.queueDepth := by
      rw [hconn', hconfig]
      rfl
    have hpolicy : conn.config.backpressurePolicy =
        edge.backpressure.map fun bp => policyOf bp.backpressurePolicy := by
      rw [hconn', hconfig]
      rfl
    have hproducer : (flowTopology t).stages[conn.fromStage]? =
        some ⟨componentIdOf r.fromNode, source.role⟩ := by
      rw [stages_getElem?, hconn', hsource]
      rfl
    have hconsumer : (flowTopology t).stages[conn.toStage]? =
        some ⟨componentIdOf r.toNode, target.role⟩ := by
      rw [stages_getElem?, hconn', htarget]
      rfl
    obtain ⟨s, hs, hdepth, hbackpressure, hfrom, hto⟩ := @exists_spawnStream flowId
      (.defaultWithTopology (flowTopology t)) (0 + i) conn _ _ hproducer hconsumer (by
        rw [hcapacity]
        cases hdepth : edge.queueDepth with
        | none =>
            show (64 : UInt64) ≠ 0
            decide
        | some depth => exact fun hzero => queueDepth_ne_zero hvalid hedge (hzero ▸ hdepth))
    rw [hcapacity] at hdepth
    rw [hpolicy] at hbackpressure
    exact ⟨s, hs, hdepth, hbackpressure, r.fromNode, r.toNode, source, target, hsource,
      hsourceName, htarget, htargetName, hfrom, hto⟩
  have hlength' : (flowTopology t).connections.length = flow.edges.length := by
    rw [← hlength]
    exact List.length_map _
  obtain ⟨streams, hstreams, hall⟩ := @exists_spawnStreamsFrom flowId
    (.defaultWithTopology (flowTopology t)) (flowTopology t).connections 0
    fun i conn hconn => by
      have hlt := (List.getElem?_eq_some_iff.mp hconn).1
      rw [hlength'] at hlt
      obtain ⟨s, hs, -⟩ := hstream i _ (List.getElem?_eq_getElem hlt) conn hconn
      exact ⟨s, hs⟩
  refine ⟨streams, hstreams, fun i edge hedge => ?_⟩
  have hlt := (List.getElem?_eq_some_iff.mp hedge).1
  rw [← hlength'] at hlt
  obtain ⟨s, hs, hspawn⟩ := hall i _ (List.getElem?_eq_getElem hlt)
  obtain ⟨s', hs', hdepth, hpolicy, hjoins⟩ := hstream i edge hedge _ (List.getElem?_eq_getElem hlt)
  obtain rfl := Option.some.inj (hspawn.symm.trans hs')
  constructor
  · rintro ⟨s', hsome, hasked, haskedPolicy, -⟩
    obtain rfl := Option.some.inj (hs.symm.trans hsome)
    rw [hdepth] at hasked
    rw [hpolicy] at haskedPolicy
    obtain ⟨hown, hinherited⟩ := policy_iff.mp haskedPolicy
    exact ⟨depth_iff.mp hasked, hown, hinherited⟩
  · intro h
    refine ⟨s, hs, ?_, ?_, hjoins⟩
    · rw [hdepth]
      exact depth_iff.mpr h.depth
    · rw [hpolicy]
      exact policy_iff.mpr ⟨h.own, h.inherited⟩

/-! ## Two small flows -/

/-- A source and a sink, joined by one edge. -/
def pairFlow (queueDepth : Option UInt64) (backpressure : Option BackpressureConfig)
    (defaultQueueDepth : Option UInt64) : FlowDef where
  description := ""
  nodes := KeyMap.collect [("a", ⟨"mock://a", "torvyn:streaming/source", none, none, none, none⟩),
    ("b", ⟨"mock://b", "torvyn:streaming/sink", none, none, none, none⟩)]
  edges := [⟨⟨"a", "output"⟩, ⟨"b", "input"⟩, queueDepth, backpressure⟩]
  schedulingPolicy := none
  defaultQueueDepth := defaultQueueDepth
  backpressure := none

/-- The streams of a flow definition: their capacities and policies. -/
def settingsOf (flow : FlowDef) : Option (List (ℕ × BackpressurePolicy)) :=
  match flowDefToTopology (fun _ node => .ok node.component) givenOrder "main" flow with
  | .ok t =>
      (spawnStreams ⟨1⟩ (.defaultWithTopology (flowTopology t))).map fun streams =>
        streams.map fun s => (s.queue.capacity, s.backpressurePolicy)
  | .error _ => none

/-- An edge with its own settings runs under them. -/
theorem own_settings_reach :
    ∃ t streams, flowDefToTopology (fun _ node => .ok node.component) givenOrder "main"
        (pairFlow (some 16) (some ⟨64, "drop-oldest"⟩) (some 8)) = .ok t ∧
      spawnStreams ⟨1⟩ (.defaultWithTopology (flowTopology t)) = some streams ∧
      RunsAsAsked (pairFlow (some 16) (some ⟨64, "drop-oldest"⟩) (some 8)) t
        (.defaultWithTopology (flowTopology t)) streams 0
        ⟨⟨"a", "output"⟩, ⟨"b", "input"⟩, some 16, some ⟨64, "drop-oldest"⟩⟩ := by
  have hok : (flowDefToTopology (fun _ node => .ok node.component) givenOrder "main"
      (pairFlow (some 16) (some ⟨64, "drop-oldest"⟩) (some 8))).isOk = true := by decide
  cases ht : flowDefToTopology (fun _ node => .ok node.component) givenOrder "main"
      (pairFlow (some 16) (some ⟨64, "drop-oldest"⟩) (some 8)) with
  | error errors =>
      rw [ht] at hok
      cases hok
  | ok t =>
      obtain ⟨streams, hstreams, hedges⟩ := @queue_settings_iff "pipeline.toml" "main"
        (pairFlow (some 16) (some ⟨64, "drop-oldest"⟩) (some 8)) givenOrder
        (fun _ node => .ok node.component) t ⟨1⟩ (by decide) ht
      refine ⟨t, streams, rfl, hstreams, (hedges 0 _ rfl).mpr ⟨?_, ?_, ?_⟩⟩
      · intro hnone
        cases hnone
      · intro bp hbp
        obtain rfl := Option.some.inj hbp
        decide
      · intro hnone
        cases hnone

/-- The flow's depth is dropped, and a policy without a meaning runs as `block-producer`. -/
theorem settings_dropped :
    validateFlow "pipeline.toml" "main" (pairFlow none none (some 8)) = [] ∧
    settingsOf (pairFlow none none (some 8)) = some [(64, .blockProducer)] ∧
    (∀ config edge, edge ∈ (pairFlow none none (some 8)).edges →
      effectiveDepth config (pairFlow none none (some 8)) edge = 8) ∧
    validateFlow "pipeline.toml" "main" (pairFlow none (some ⟨64, "drop-everything"⟩) none) = [] ∧
    settingsOf (pairFlow none (some ⟨64, "drop-everything"⟩) none) =
      some [(64, .blockProducer)] ∧
    supportedPolicy "drop-everything" = none := by
  refine ⟨by decide, by decide, ?_, by decide, by decide,
    by decide⟩
  intro config edge hedge
  rw [List.mem_singleton.mp hedge]
  rfl

end Torvyn.Pipeline
