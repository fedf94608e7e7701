/-
# What the check command promises

`torvyn check` runs the two validations of a manifest's flows "so that the two agree": what it
passes should not be refused when the pipeline is run.  The validations look at fields, and at
the ends of edges one by one.  They never look at the grants, nor at the flow as a graph:
`check_agrees_iff` says which manifests are refused all the same.
-/
import Torvyn.Pipeline.Manifest

namespace Torvyn.Pipeline

open Torvyn.Graph Relation Security

/-! ## What a flow must satisfy to run -/

/-- The role that a node is given. -/
def NodeDef.role (node : NodeDef) : ComponentRole :=
  (inferRoleFromInterface node.interface).getD .processor

namespace FlowDef

/-- The flow has a node of the name, of the role. -/
def HasRole (flow : FlowDef) (name : String) (role : ComponentRole) : Prop :=
  ∃ node, flow.nodes.lookup name = some node ∧ node.role = role

/-- Some edge leads from one name to the other. -/
def Flows (flow : FlowDef) (u v : String) : Prop :=
  ∃ e ∈ flow.edges, e.source.node = u ∧ e.target.node = v

/-- The conditions on a flow as a graph that the validations do not look at. -/
structure Runnable (flow : FlowDef) : Prop where
  hasSource : ∃ x, flow.HasRole x .source
  hasSink : ∃ x, flow.HasRole x .sink
  sourceIn : ∀ x, flow.HasRole x .source → ∀ e ∈ flow.edges, e.target.node ≠ x
  sinkOut : ∀ x, flow.HasRole x .sink → ∀ e ∈ flow.edges, e.source.node ≠ x
  inner : ∀ x role, flow.HasRole x role → role ≠ .source → role ≠ .sink →
    (∃ e ∈ flow.edges, e.target.node = x) ∧ ∃ e ∈ flow.edges, e.source.node = x
  fanOut : ∀ node port,
    (flow.edges.countP fun e => e.source.node = node ∧ e.source.port = port) ≤ defaultMaxFanOut
  fanIn : ∀ node port,
    (flow.edges.countP fun e => e.target.node = node ∧ e.target.port = port) ≤ defaultMaxFanIn
  acyclic : Acyclic flow.Flows
  reached : ∀ x role, flow.HasRole x role →
    ∃ s, flow.HasRole s .source ∧ ReflTransGen flow.Flows s x

end FlowDef

/-- Every grant of a node of the flow is a capability. -/
def GrantsReadable (lc : Lowercase) (security : SecurityConfig) (flow : FlowDef) : Prop :=
  ∀ x ∈ flow.nodes, ∀ grant, security.grants.lookup x = some grant →
    ∃ caps, grant.capabilities.mapM (Capability.fromStr lc) = .ok caps

/-- Every node of every flow names a component that is there to be loaded. -/
def NodesBuilt (isFile : String → Bool) (root : String) (pipeline : PipelineDefinition) : Prop :=
  ∀ name flow, pipeline.flows.lookup name = some flow → ∀ x node,
    flow.nodes.lookup x = some node →
      ∃ ref, (ComponentIndex.new root pipeline.components).resolve isFile node.component = .ok ref

/-! ## What the validations establish -/

section Validated

variable {file name : String} {flow : FlowDef}

theorem endpointErrors_eq_nil_iff {i : ℕ} {side node : String} :
    endpointErrors file name flow i side node = [] ↔ node ∈ flow.nodes := by
  unfold endpointErrors
  split
  · rename_i hmem
    exact iff_of_true rfl hmem
  · rename_i hmem
    exact iff_of_false (List.cons_ne_nil _ _) hmem

/-- Edges of a validated flow join two different nodes of it. -/
theorem edge_of_validated (h : validateFlow file name flow = []) {e : EdgeDef}
    (he : e ∈ flow.edges) :
    e.source.node ∈ flow.nodes ∧ e.target.node ∈ flow.nodes ∧ e.source.node ≠ e.target.node := by
  obtain ⟨i, hi⟩ := List.mem_iff_getElem?.mp he
  unfold validateFlow at h
  have hedge := List.flatMap_eq_nil_iff.mp (List.append_eq_nil_iff.mp h).2 (e, i)
    (List.mk_mem_zipIdx_iff_getElem?.mpr hi)
  unfold edgeErrors at hedge
  obtain ⟨hends, -⟩ := List.append_eq_nil_iff.mp hedge
  obtain ⟨hends, hloop⟩ := List.append_eq_nil_iff.mp hends
  obtain ⟨hfrom, hto⟩ := List.append_eq_nil_iff.mp hends
  refine ⟨endpointErrors_eq_nil_iff.mp hfrom, endpointErrors_eq_nil_iff.mp hto, fun heq => ?_⟩
  rw [if_pos heq] at hloop
  cases hloop

end Validated

/-- What the check command has read when it finds nothing. -/
theorem checkFlowSection_eq_nil {read : TomlReader} {toml file : String}
    (h : checkFlowSection read toml file = []) {pipeline : PipelineDefinition}
    (hread : PipelineDefinition.fromTomlStr read toml file = .ok pipeline) :
    ∀ name flow, pipeline.flows.lookup name = some flow → validateFlow file name flow = [] ∧
      ∀ x node, flow.nodes.lookup x = some node → ∀ raw, node.maxMemory = some raw →
        ∃ bytes, parseMemorySize raw = .ok bytes := by
  unfold checkFlowSection at h
  rw [hread] at h
  have hvalid := List.map_eq_nil_iff.mp h
  unfold validatePipeline at hvalid
  obtain ⟨hmemory, -⟩ := List.append_eq_nil_iff.mp hvalid
  have hmemory := List.flatMap_eq_nil_iff.mp (List.append_eq_nil_iff.mp hmemory).2
  intro name flow hflow
  have hmem : (⟨name, flow⟩ : Sigma fun _ => FlowDef) ∈ pipeline.flows.entries :=
    KeyMap.mem_entries_iff.mpr hflow
  refine ⟨?_, fun x node hnode raw hraw => ?_⟩
  · unfold PipelineDefinition.fromTomlStr at hread
    split at hread
    · cases hread
    · dsimp only at hread
      split at hread
      · rename_i herrors
        obtain rfl := Except.ok.inj hread
        unfold PipelineDefinition.validate at herrors
        rw [if_neg (List.ne_nil_of_mem hmem)] at herrors
        exact List.flatMap_eq_nil_iff.mp herrors _ hmem
      · cases hread
  · have hnone := List.flatMap_eq_nil_iff.mp (hmemory _ hmem) _ (KeyMap.mem_entries_iff.mpr hnode)
    dsimp only at hnone
    unfold nodeMemoryErrors memoryErrors at hnone
    rw [hraw] at hnone
    dsimp only at hnone
    split at hnone
    · rename_i bytes hbytes
      exact ⟨bytes, hbytes⟩
    · cases hnone

/-! ## Configuring the nodes -/

theorem nodeDefToConfig_ok {node : NodeDef} (h : ∀ raw, node.maxMemory = some raw →
    ∃ bytes, parseMemorySize raw = .ok bytes) :
    ∃ config, nodeDefToConfig node = .ok config ∧ config.wasi = .denyAll := by
  unfold nodeDefToConfig
  cases hmax : node.maxMemory with
  | none => exact ⟨_, rfl, rfl⟩
  | some raw =>
      obtain ⟨bytes, hbytes⟩ := h raw hmax
      simp only [hbytes]
      exact ⟨_, rfl, rfl⟩

theorem grantedWasi_ok_iff {lc : Lowercase} {security : SecurityConfig} {x : String}
    {config : NodeConfig} : (∃ wasi, grantedWasi lc security x config = .ok wasi) ↔
      ∀ grant, security.grants.lookup x = some grant →
        ∃ caps, grant.capabilities.mapM (Capability.fromStr lc) = .ok caps := by
  unfold grantedWasi
  cases security.grants.lookup x with
  | none => exact iff_of_true ⟨_, rfl⟩ fun grant hgrant => by cases hgrant
  | some grant =>
      simp only [Option.some.injEq, forall_eq']
      unfold WasiConfiguration.fromGrantStrings
      cases grant.capabilities.mapM (Capability.fromStr lc) with
      | error e => exact iff_of_false (by rintro ⟨_, h⟩; cases h) (by rintro ⟨_, h⟩; cases h)
      | ok caps => exact iff_of_true ⟨_, rfl⟩ ⟨caps, rfl⟩

/-- A node with a readable limit and a component is configured exactly when its grants are
readable. -/
theorem configureNode_ok_iff {lc : Lowercase} {isFile : String → Bool} {security : SecurityConfig}
    {components : ComponentIndex} {flowName x : String} {node : NodeDef}
    (hmemory : ∀ raw, node.maxMemory = some raw → ∃ bytes, parseMemorySize raw = .ok bytes)
    (hbuilt : ∃ ref, components.resolve isFile node.component = .ok ref) :
    (∃ ref, (configureNode lc isFile security components flowName x node).map Prod.snd = .ok ref) ↔
      ∀ grant, security.grants.lookup x = some grant →
        ∃ caps, grant.capabilities.mapM (Capability.fromStr lc) = .ok caps := by
  obtain ⟨config, hconfig, -⟩ := nodeDefToConfig_ok hmemory
  obtain ⟨ref, href⟩ := hbuilt
  rw [← @grantedWasi_ok_iff lc security x config]
  unfold configureNode
  rw [hconfig]
  dsimp only
  cases grantedWasi lc security x config with
  | error e => exact iff_of_false (by rintro ⟨_, h⟩; cases h) (by rintro ⟨_, h⟩; cases h)
  | ok wasi =>
      rw [href]
      exact iff_of_true ⟨ref, rfl⟩ ⟨wasi, rfl⟩

section Nodes

variable {configure : String → NodeDef → Except (List PipelineError) String}

/-- The loop over the nodes goes through exactly when each of them is configured. -/
theorem addNodes_ok_iff (nodes : List (String × NodeDef)) (b : PipelineTopologyBuilder) :
    (∃ b', addNodes configure b nodes = .ok b') ↔
      ∀ p ∈ nodes, ∃ ref, configure p.1 p.2 = .ok ref := by
  induction nodes generalizing b with
  | nil => exact iff_of_true ⟨b, rfl⟩ fun p hp => absurd hp List.not_mem_nil
  | cons node nodes ih =>
      obtain ⟨x, node⟩ := node
      unfold addNodes
      rw [List.forall_mem_cons]
      cases configure x node with
      | error errors =>
          refine iff_of_false (by rintro ⟨_, h⟩; cases h) ?_
          rintro ⟨⟨_, h⟩, -⟩
          cases h
      | ok ref =>
          dsimp only
          rw [ih]
          exact (and_iff_right ⟨ref, rfl⟩).symm

/-- Names and roles of the nodes that have been added. -/
theorem addNodes_nodes {nodes : List (String × NodeDef)} {b b' : PipelineTopologyBuilder}
    (h : addNodes configure b nodes = .ok b') :
    b'.nodes.map (fun n => (n.name, n.role)) =
      b.nodes.map (fun n => (n.name, n.role)) ++ nodes.map fun p => (p.1, p.2.role) := by
  induction nodes generalizing b with
  | nil =>
      obtain rfl := Except.ok.inj h
      exact (List.append_nil _).symm
  | cons node nodes ih =>
      obtain ⟨x, node⟩ := node
      unfold addNodes at h
      split at h
      · cases h
      · rw [ih h]
        unfold PipelineTopologyBuilder.addNodeWithInterface
        rw [List.map_append, List.append_assoc]
        rfl

end Nodes

/-! ## From the flow to the builder -/

/-- A builder that holds a validated flow accepts it exactly when it is runnable. -/
theorem buildable_iff {flow : FlowDef} {b : PipelineTopologyBuilder}
    (hnodes : b.nodes.map (fun n => (n.name, n.role)) =
      flow.nodes.entries.map fun e => (e.1, e.2.role))
    (hedges : b.edges = flow.edges.map pendingOf)
    (hvalid : ∀ e ∈ flow.edges,
      e.source.node ∈ flow.nodes ∧ e.target.node ∈ flow.nodes ∧ e.source.node ≠ e.target.node) :
    b.Buildable ↔ flow.Runnable := by
  have hrole : ∀ x role, (∃ n ∈ b.nodes, n.name = x ∧ n.role = role) ↔ flow.HasRole x role := by
    intro x role
    have hmem : (x, role) ∈ b.nodes.map (fun n => (n.name, n.role)) ↔
        (x, role) ∈ flow.nodes.entries.map fun e => (e.1, e.2.role) := by rw [hnodes]
    rw [List.mem_map, List.mem_map] at hmem
    constructor
    · rintro ⟨n, hn, rfl, rfl⟩
      obtain ⟨e, he, heq⟩ := hmem.mp ⟨n, hn, rfl⟩
      obtain ⟨hx, hr⟩ := Prod.mk.inj heq
      exact ⟨e.2, hx ▸ KeyMap.mem_entries_iff.mp he, hr⟩
    · rintro ⟨node, hnode, rfl⟩
      obtain ⟨n, hn, heq⟩ := hmem.mpr ⟨⟨x, node⟩, KeyMap.mem_entries_iff.mpr hnode, rfl⟩
      obtain ⟨hx, hr⟩ := Prod.mk.inj heq
      exact ⟨n, hn, hx, hr⟩
  have hname : ∀ n ∈ b.nodes, flow.HasRole n.name n.role := fun n hn =>
    (hrole _ _).mp ⟨n, hn, rfl, rfl⟩
  have hnode : ∀ x ∈ flow.nodes, ∃ n ∈ b.nodes, n.name = x := by
    intro x hx
    obtain ⟨node, hnode⟩ := KeyMap.mem_iff_exists.mp hx
    obtain ⟨n, hn, hnx, -⟩ := (hrole x node.role).mpr ⟨node, hnode, rfl⟩
    exact ⟨n, hn, hnx⟩
  have hunique : (b.nodes.map TopologyNode.name).Nodup := by
    have hkeys : b.nodes.map TopologyNode.name = flow.nodes.keys := by
      have hfst := congrArg (List.map Prod.fst) hnodes
      rw [List.map_map, List.map_map] at hfst
      exact hfst
    rw [hkeys]
    exact flow.nodes.keys_nodup
  have hflows : b.Flows = flow.Flows := by
    funext u v
    unfold PipelineTopologyBuilder.Flows FlowDef.Flows
    rw [hedges]
    simp [pendingOf]
  have hall : ∀ P : PendingEdge → Prop, (∀ e ∈ b.edges, P e) ↔ ∀ e ∈ flow.edges, P (pendingOf e) := by
    intro P
    rw [hedges, List.forall_mem_map]
  have hexists : ∀ P : PendingEdge → Prop,
      (∃ e ∈ b.edges, P e) ↔ ∃ e ∈ flow.edges, P (pendingOf e) := by
    intro P
    rw [hedges]
    simp
  have hcount : ∀ P : PendingEdge → Bool,
      b.edges.countP P = flow.edges.countP fun e => P (pendingOf e) := by
    intro P
    rw [hedges, List.countP_map]
    rfl
  constructor
  · intro h
    constructor
    · obtain ⟨n, hn, hsource⟩ := h.hasSource
      exact ⟨n.name, hsource ▸ hname n hn⟩
    · obtain ⟨n, hn, hsink⟩ := h.hasSink
      exact ⟨n.name, hsink ▸ hname n hn⟩
    · intro x hx
      obtain ⟨n, hn, rfl, hsource⟩ := (hrole _ _).mpr hx
      exact (hall _).mp (h.sourceIn n hn hsource)
    · intro x hx
      obtain ⟨n, hn, rfl, hsink⟩ := (hrole _ _).mpr hx
      exact (hall _).mp (h.sinkOut n hn hsink)
    · intro x role hx hsource hsink
      obtain ⟨n, hn, rfl, rfl⟩ := (hrole _ _).mpr hx
      obtain ⟨hin, hout⟩ := h.inner n hn hsource hsink
      exact ⟨(hexists _).mp hin, (hexists _).mp hout⟩
    · intro node port
      exact (hcount _).symm.trans_le (h.fanOut node port)
    · intro node port
      exact (hcount _).symm.trans_le (h.fanIn node port)
    · exact hflows ▸ h.acyclic
    · intro x role hx
      obtain ⟨n, hn, rfl, -⟩ := (hrole _ _).mpr hx
      obtain ⟨s, hs, hsource, hpath⟩ := h.reached n hn
      exact ⟨s.name, hsource ▸ hname s hs, hflows ▸ hpath⟩
  · intro h
    constructor
    · exact hunique
    · exact (hall _).mpr fun e he => ⟨hnode _ (hvalid e he).1, hnode _ (hvalid e he).2.1⟩
    · exact (hall _).mpr fun e he => (hvalid e he).2.2
    · obtain ⟨x, hx⟩ := h.hasSource
      obtain ⟨n, hn, -, hsource⟩ := (hrole _ _).mpr hx
      exact ⟨n, hn, hsource⟩
    · obtain ⟨x, hx⟩ := h.hasSink
      obtain ⟨n, hn, -, hsink⟩ := (hrole _ _).mpr hx
      exact ⟨n, hn, hsink⟩
    · intro n hn hsource
      exact (hall _).mpr (h.sourceIn n.name (hsource ▸ hname n hn))
    · intro n hn hsink
      exact (hall _).mpr (h.sinkOut n.name (hsink ▸ hname n hn))
    · intro n hn hsource hsink
      obtain ⟨hin, hout⟩ := h.inner n.name n.role (hname n hn) hsource hsink
      exact ⟨(hexists _).mpr hin, (hexists _).mpr hout⟩
    · intro node port
      exact (hcount _).trans_le (h.fanOut node port)
    · intro node port
      exact (hcount _).trans_le (h.fanIn node port)
    · exact hflows ▸ h.acyclic
    · intro n hn
      obtain ⟨s, hs, hpath⟩ := h.reached n.name n.role (hname n hn)
      obtain ⟨m, hm, rfl, hsource⟩ := (hrole _ _).mpr hs
      exact ⟨m, hm, hsource, hflows ▸ hpath⟩

/-- A validated flow is translated exactly when its nodes are configured and it is runnable. -/
theorem flowDefToTopology_ok_iff
    {configure : String → NodeDef → Except (List PipelineError) String} {order : PortOrder}
    {file name : String} {flow : FlowDef} (hvalid : validateFlow file name flow = []) :
    (∃ t, flowDefToTopology configure order name flow = .ok t) ↔
      (∀ x node, flow.nodes.lookup x = some node → ∃ ref, configure x node = .ok ref) ∧
        flow.Runnable := by
  have hconfigured : (∃ b', addNodes configure
      ((PipelineTopologyBuilder.new name).call (.description flow.description))
      (flow.nodes.entries.map fun e => (e.1, e.2)) = .ok b') ↔
        ∀ x node, flow.nodes.lookup x = some node → ∃ ref, configure x node = .ok ref := by
    rw [addNodes_ok_iff, List.forall_mem_map]
    constructor
    · intro h x node hnode
      exact h ⟨x, node⟩ (KeyMap.mem_entries_iff.mpr hnode)
    · intro h e he
      exact h e.1 e.2 (KeyMap.mem_entries_iff.mp he)
  rw [← hconfigured]
  unfold flowDefToTopology
  dsimp only
  split
  · rename_i errors hnodes
    refine iff_of_false (by rintro ⟨_, h⟩; cases h) ?_
    rintro ⟨⟨b', hb'⟩, -⟩
    cases hnodes.symm.trans hb'
  · rename_i b hnodes
    have hnew := PipelineTopologyBuilder.indexed_ofCalls name [.description flow.description]
    obtain ⟨hindexed, hempty⟩ := addNodes_spec hnew hnodes
    have hnone : b.edges = [] := hempty
    rw [foldl_addEdgeDef, hnone, List.nil_append]
    have hbuild := @PipelineTopologyBuilder.build_ok_iff
      { b with edges := flow.edges.map pendingOf } ⟨hindexed.named, hindexed.total⟩ order
    rw [hbuild, and_iff_right ⟨b, hnodes⟩]
    apply buildable_iff
    · have hadded := addNodes_nodes hnodes
      rw [List.map_map] at hadded
      exact hadded
    · rfl
    · exact fun e he => edge_of_validated hvalid he

/-! ## Agreement -/

/-- **What the check command passes is not always run.**  Of the manifests that it passes, and
whose nodes are built, it is exactly those whose grants are all readable and whose flows are
runnable that are translated without an error. -/
theorem check_agrees_iff {read : TomlReader} {lc : Lowercase} {isFile : String → Bool}
    {root toml file : String} {order : PortOrder} {pipeline : PipelineDefinition}
    (hcheck : checkFlowSection read toml file = [])
    (hread : PipelineDefinition.fromTomlStr read toml file = .ok pipeline)
    (hbuilt : NodesBuilt isFile root pipeline) :
    (∀ name flow, pipeline.flows.lookup name = some flow →
        ∃ t, pipeline.topologyOf lc isFile root order name flow = .ok t) ↔
      ∀ name flow, pipeline.flows.lookup name = some flow →
        GrantsReadable lc pipeline.grants flow ∧ flow.Runnable := by
  refine forall_congr' fun name => forall_congr' fun flow => imp_congr_right fun hflow => ?_
  obtain ⟨hvalid, hmemory⟩ := checkFlowSection_eq_nil hcheck hread name flow hflow
  unfold PipelineDefinition.topologyOf
  rw [flowDefToTopology_ok_iff hvalid]
  refine and_congr_left fun _ => ?_
  constructor
  · intro h x hx grant hgrant
    obtain ⟨node, hnode⟩ := KeyMap.mem_iff_exists.mp hx
    exact (configureNode_ok_iff (hmemory x node hnode) (hbuilt name flow hflow x node hnode)).mp
      (h x node hnode) grant hgrant
  · intro h x node hnode
    exact (configureNode_ok_iff (hmemory x node hnode) (hbuilt name flow hflow x node hnode)).mpr
      (h x (KeyMap.mem_iff_exists.mpr ⟨node, hnode⟩))

/-! ## Two manifests -/

theorem exists_of_isOk {ε α : Type*} {r : Except ε α} (h : r.isOk = true) : ∃ t, r = .ok t := by
  cases r with
  | error e => cases h
  | ok t => exact ⟨t, rfl⟩

theorem ne_ok_of_isOk {ε α : Type*} {r : Except ε α} (h : r.isOk = false) : ∀ t, r ≠ .ok t := by
  rintro t rfl
  cases h

/-- The text of a flow of two nodes and one edge, with the interfaces of the nodes. -/
def pairText (first second rest : String) : String :=
  "[flow.main.nodes.a]\ncomponent = \"mock://a\"\ninterface = \"torvyn:streaming/" ++ first ++
  "\"\n[flow.main.nodes.b]\ncomponent = \"mock://b\"\ninterface = \"torvyn:streaming/" ++ second ++
  "\"\n[[flow.main.edges]]\nfrom.node = \"a\"\nfrom.port = \"output\"\n" ++
  "to.node = \"b\"\nto.port = \"input\"\n" ++ rest

/-- The manifest of that text. -/
def pairManifest (first second : String) (security : Option SecurityConfig) :
    PipelineDefinition where
  flows := AList.singleton "main"
    { pairFlow none none none with
      nodes := KeyMap.collect
        [("a", ⟨"mock://a", "torvyn:streaming/" ++ first, none, none, none, none⟩),
          ("b", ⟨"mock://b", "torvyn:streaming/" ++ second, none, none, none, none⟩)] }
  components := []
  runtime := none
  observability := none
  security := security

/-- A grant in a form that older releases had. -/
def strayGrant : SecurityConfig := ⟨"deny-all", AList.singleton "a" ⟨["network:egress:*"]⟩⟩

/-- The text with that grant. -/
def strayText : String :=
  pairText "source" "sink" "[security.grants.a]\ncapabilities = [\"network:egress:*\"]\n"

/-- A reader that knows one text. -/
def readAs (text : String) (pipeline : PipelineDefinition) : TomlReader := fun toml file =>
  if toml = text then .ok pipeline else .error (.semantic file "" "TOML syntax error" "")

/-- What is read of a text that is known, and what is found in it. -/
theorem readAs_spec {text file : String} {pipeline : PipelineDefinition}
    (hvalid : pipeline.validate file = []) (hpipeline : validatePipeline file pipeline = []) :
    PipelineDefinition.fromTomlStr (readAs text pipeline) text file = .ok pipeline ∧
      checkFlowSection (readAs text pipeline) text file = [] := by
  have hread : PipelineDefinition.fromTomlStr (readAs text pipeline) text file = .ok pipeline := by
    unfold PipelineDefinition.fromTomlStr readAs
    rw [if_pos rfl]
    exact if_pos hvalid
  refine ⟨hread, ?_⟩
  unfold checkFlowSection
  rw [hread]
  exact List.map_eq_nil_iff.mpr hpipeline

theorem nodesBuilt_pairManifest (isFile : String → Bool) (root first second : String)
    (security : Option SecurityConfig) :
    NodesBuilt isFile root (pairManifest first second security) := by
  intro name flow hflow x node hnode
  have hmem := KeyMap.mem_entries_iff.mpr hflow
  obtain ⟨-, hflow⟩ := Sigma.mk.inj (List.mem_singleton.mp hmem)
  obtain rfl := eq_of_heq hflow
  rcases List.mem_cons.mp (KeyMap.mem_of_lookup_collect hnode) with heq | hrest
  · obtain ⟨-, rfl⟩ := Prod.mk.inj heq
    exact ⟨"mock://a", if_pos (.inr (show startsWith "mock://a" "mock://" = true by decide))⟩
  · obtain ⟨-, rfl⟩ := Prod.mk.inj (List.mem_singleton.mp hrest)
    exact ⟨"mock://b", if_pos (.inr (show startsWith "mock://b" "mock://" = true by decide))⟩

/-- A source and a sink that passed the check are translated, and so are runnable. -/
theorem check_agrees_iff_pairManifest :
    ∃ flow, (pairManifest "source" "sink" none).flows.lookup "main" = some flow ∧
      GrantsReadable asciiLowercase (pairManifest "source" "sink" none).grants flow ∧
        flow.Runnable := by
  obtain ⟨hread, hcheck⟩ := @readAs_spec (pairText "source" "sink" "") "Torvyn.toml"
    (pairManifest "source" "sink" none) (by decide) (by decide)
  have hrunnable := (@check_agrees_iff _ asciiLowercase (fun _ => false) "." _ _ givenOrder _ hcheck
    hread (nodesBuilt_pairManifest _ _ _ _ _)).mp ?_
  · exact ⟨_, List.dlookup_cons_eq _ _ _, hrunnable "main" _ (List.dlookup_cons_eq _ _ _)⟩
  · intro name flow hflow
    obtain ⟨hname, hflow⟩ :=
      Sigma.mk.inj (List.mem_singleton.mp (KeyMap.mem_entries_iff.mpr hflow))
    obtain rfl := eq_of_heq hflow
    subst hname
    apply exists_of_isOk
    decide

/-- What the check passes and the translation refuses: a flow without a source, and a grant
that is no capability. -/
theorem check_passes_refused :
    (checkFlowSection (readAs (pairText "processor" "processor" "")
        (pairManifest "processor" "processor" none)) (pairText "processor" "processor" "")
        "Torvyn.toml" = [] ∧
      NodesBuilt (fun _ => false) "." (pairManifest "processor" "processor" none) ∧
      ∃ flow, (pairManifest "processor" "processor" none).flows.lookup "main" = some flow ∧
        ∀ t, (pairManifest "processor" "processor" none).topologyOf asciiLowercase
          (fun _ => false) "." givenOrder "main" flow ≠ .ok t) ∧
    (checkFlowSection (readAs strayText (pairManifest "source" "sink" (some strayGrant)))
        strayText "Torvyn.toml" = [] ∧
      NodesBuilt (fun _ => false) "." (pairManifest "source" "sink" (some strayGrant)) ∧
      ∃ flow, (pairManifest "source" "sink" (some strayGrant)).flows.lookup "main" = some flow ∧
        ∀ t, (pairManifest "source" "sink" (some strayGrant)).topologyOf asciiLowercase
          (fun _ => false) "." givenOrder "main" flow ≠ .ok t) := by
  refine ⟨⟨(readAs_spec (by decide) (by decide)).2,
      nodesBuilt_pairManifest _ _ _ _ _, _, List.dlookup_cons_eq _ _ _, ne_ok_of_isOk ?_⟩,
    (readAs_spec (by decide) (by decide)).2,
      nodesBuilt_pairManifest _ _ _ _ _, _, List.dlookup_cons_eq _ _ _, ne_ok_of_isOk ?_⟩
  · decide
  · decide

end Torvyn.Pipeline
