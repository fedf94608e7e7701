/-
# Linking and building

The linker and the pipeline builder both validate the graph of a pipeline.  They share most
conditions (`Regular`) and differ in what they ask of the edges of a node: the linker wants
one edge at every node, the builder both an incoming and an outgoing edge at every
processor, filter and router, an incoming one at every sink, and a sink.  That every node is
then reached from a source follows: the graph is acyclic, so going back along the edges ends
in a node without incoming edges.
-/
import Torvyn.Linker.Topology
import Torvyn.Pipeline.Builder

namespace Torvyn.Linker

open Torvyn.Graph Relation

/-! ## One pipeline for both validators -/

/-- A pipeline with a name, uniquely named nodes, and edges between their ports. -/
structure PipelineDescription where
  name : String
  nodes : List TopologyNode
  edges : List TopologyEdge
  named : name ≠ ""
  unique : (nodes.map TopologyNode.name).Nodup

namespace PipelineDescription

/-- The topology that is linked. -/
def linked (d : PipelineDescription) : PipelineTopology :=
  d.edges.foldl PipelineTopology.addEdge (d.nodes.foldl PipelineTopology.addNode (.new d.name))

/-- The call that adds a node to a builder. -/
def nodeCall (n : TopologyNode) : Pipeline.BuilderCall :=
  .addNode n.name n.role n.artifactPath

/-- The call that adds an edge to a builder. -/
def edgeCall (e : TopologyEdge) : Pipeline.BuilderCall :=
  .addEdgeWithConfig e.fromNode e.fromPort e.toNode e.toPort
    ⟨some e.queueDepth.toUInt64, some e.backpressurePolicy⟩

/-- The builder that is given the same nodes and edges. -/
def builder (d : PipelineDescription) : Pipeline.PipelineTopologyBuilder :=
  .ofCalls d.name (d.nodes.map nodeCall ++ d.edges.map edgeCall)

/-! ## What both look at -/

/-- Some edge leads from one name to the other. -/
def Flows (d : PipelineDescription) (u v : String) : Prop :=
  ∃ e ∈ d.edges, e.fromNode = u ∧ e.toNode = v

/-- Some edge ends at the node. -/
def Fed (d : PipelineDescription) (n : TopologyNode) : Prop := ∃ e ∈ d.edges, e.toNode = n.name

/-- Some edge starts at the node. -/
def Feeds (d : PipelineDescription) (n : TopologyNode) : Prop := ∃ e ∈ d.edges, e.fromNode = n.name

/-- The conditions of both validators. -/
structure Regular (d : PipelineDescription) : Prop where
  nonempty : d.nodes ≠ []
  known : ∀ e ∈ d.edges, (∃ n ∈ d.nodes, n.name = e.fromNode) ∧ ∃ n ∈ d.nodes, n.name = e.toNode
  sourceIn : ∀ n ∈ d.nodes, n.role = .source → ¬ d.Fed n
  sinkOut : ∀ n ∈ d.nodes, n.role = .sink → ¬ d.Feeds n
  acyclic : Acyclic d.Flows
  fanOut : ∀ node port, (d.edges.countP fun e => e.fromNode = node ∧ e.fromPort = port) ≤ 16
  fanIn : ∀ node port, (d.edges.countP fun e => e.toNode = node ∧ e.toPort = port) ≤ 16

/-- Every node has an edge. -/
def Joined (d : PipelineDescription) : Prop := ∀ n ∈ d.nodes, d.Fed n ∨ d.Feeds n

/-- Every processor, filter and router has an incoming and an outgoing edge. -/
def Through (d : PipelineDescription) : Prop :=
  ∀ n ∈ d.nodes, n.role ≠ .source → n.role ≠ .sink → d.Fed n ∧ d.Feeds n

/-- There is a sink, and every sink has an incoming edge. -/
def Drained (d : PipelineDescription) : Prop :=
  (∃ n ∈ d.nodes, n.role = .sink) ∧ ∀ n ∈ d.nodes, n.role = .sink → d.Fed n

/-- Every source has an outgoing edge. -/
def Supplied (d : PipelineDescription) : Prop := ∀ n ∈ d.nodes, n.role = .source → d.Feeds n

variable {d : PipelineDescription}

/-! ## The linker's topology -/

theorem foldl_addEdge (t : PipelineTopology) (edges : List TopologyEdge) :
    edges.foldl PipelineTopology.addEdge t = { t with edges := t.edges ++ edges } := by
  induction edges generalizing t with
  | nil => simp
  | cons e edges ih =>
      rw [List.foldl_cons, ih]
      simp [PipelineTopology.addEdge]

/-- Nodes of new names are all kept under their names. -/
theorem lookup_foldl_addNode (t : PipelineTopology) (nodes : List TopologyNode)
    (hunique : (nodes.map TopologyNode.name).Nodup) {name : String} {node : TopologyNode} :
    (nodes.foldl PipelineTopology.addNode t).nodes.lookup name = some node ↔
      (node ∈ nodes ∧ node.name = name) ∨
        (name ∉ nodes.map TopologyNode.name ∧ t.nodes.lookup name = some node) := by
  induction nodes generalizing t with
  | nil => simp
  | cons n nodes ih =>
      rw [List.map_cons, List.nodup_cons] at hunique
      rw [List.foldl_cons, ih (t.addNode n) hunique.2, List.map_cons]
      have hlookup : (t.addNode n).nodes.lookup name =
          if name = n.name then some n else t.nodes.lookup name := by
        show (t.nodes.insert n.name n).lookup name = _
        split
        · rename_i heq
          rw [heq, AList.lookup_insert]
        · rename_i hne
          rw [AList.lookup_insert_ne hne]
      rw [hlookup]
      by_cases heq : name = n.name
      · subst heq
        have hnot : ∀ m ∈ nodes, m.name ≠ n.name :=
          fun m hm hname => hunique.1 (List.mem_map.mpr ⟨m, hm, hname⟩)
        constructor
        · rintro (⟨hmem, hname⟩ | ⟨-, hsome⟩)
          · exact absurd hname (hnot node hmem)
          · simp only [if_true, Option.some.injEq] at hsome
            exact .inl ⟨hsome ▸ List.mem_cons_self, hsome ▸ rfl⟩
        · rintro (⟨hmem, hname⟩ | ⟨hout, -⟩)
          · obtain rfl | hmem := List.mem_cons.mp hmem
            · exact .inr ⟨hunique.1, if_pos rfl⟩
            · exact absurd hname (hnot node hmem)
          · exact absurd List.mem_cons_self hout
      · rw [if_neg heq]
        constructor
        · rintro (⟨hmem, hname⟩ | ⟨hout, hsome⟩)
          · exact .inl ⟨List.mem_cons_of_mem _ hmem, hname⟩
          · refine .inr ⟨?_, hsome⟩
            rw [List.mem_cons, not_or]
            exact ⟨heq, hout⟩
        · rintro (⟨hmem, hname⟩ | ⟨hout, hsome⟩)
          · obtain rfl | hmem := List.mem_cons.mp hmem
            · exact absurd hname.symm heq
            · exact .inl ⟨hmem, hname⟩
          · exact .inr ⟨fun hin => hout (List.mem_cons_of_mem _ hin), hsome⟩

theorem foldl_addNode_frame (t : PipelineTopology) (nodes : List TopologyNode) :
    (nodes.foldl PipelineTopology.addNode t).name = t.name ∧
      (nodes.foldl PipelineTopology.addNode t).edges = t.edges ∧
      (nodes.foldl PipelineTopology.addNode t).maxFanOut = t.maxFanOut ∧
      (nodes.foldl PipelineTopology.addNode t).maxFanIn = t.maxFanIn := by
  induction nodes generalizing t with
  | nil => exact ⟨rfl, rfl, rfl, rfl⟩
  | cons n nodes ih => exact ih (t.addNode n)

theorem linked_name : d.linked.name = d.name := by
  unfold linked
  rw [foldl_addEdge]
  exact (foldl_addNode_frame _ _).1

theorem linked_edges : d.linked.edges = d.edges := by
  unfold linked
  rw [foldl_addEdge]
  show (d.nodes.foldl PipelineTopology.addNode (.new d.name)).edges ++ d.edges = d.edges
  rw [(foldl_addNode_frame _ _).2.1]
  rfl

theorem linked_maxFanOut : d.linked.maxFanOut = 16 := by
  unfold linked
  rw [foldl_addEdge]
  exact (foldl_addNode_frame _ _).2.2.1

theorem linked_maxFanIn : d.linked.maxFanIn = 16 := by
  unfold linked
  rw [foldl_addEdge]
  exact (foldl_addNode_frame _ _).2.2.2

/-- The nodes of the topology are those described, under their names. -/
theorem linked_lookup {name : String} {node : TopologyNode} :
    d.linked.nodes.lookup name = some node ↔ node ∈ d.nodes ∧ node.name = name := by
  unfold linked
  rw [foldl_addEdge]
  show (d.nodes.foldl PipelineTopology.addNode (.new d.name)).nodes.lookup name = some node ↔ _
  rw [lookup_foldl_addNode _ _ d.unique]
  simp [PipelineTopology.new]

theorem mem_linked {name : String} : name ∈ d.linked.nodes ↔ ∃ n ∈ d.nodes, n.name = name := by
  rw [KeyMap.mem_iff_exists]
  simp only [linked_lookup]

/-- **What the linker accepts**: the regular pipelines in which every node has an edge. -/
theorem linked_isOk_iff : d.linked.validate.isOk = true ↔ d.Regular ∧ d.Joined := by
  have hflows : d.linked.Flows = d.Flows := by
    funext u v
    unfold PipelineTopology.Flows Flows
    rw [linked_edges]
  rw [PipelineTopology.validate_isOk_iff]
  constructor
  · intro h
    constructor
    · constructor
      · intro hnil
        obtain ⟨name, hname⟩ := List.exists_mem_of_ne_nil _ h.nonempty
        obtain ⟨n, hn, -⟩ := mem_linked.mp (AList.mem_keys.mpr hname)
        rw [hnil] at hn
        cases hn
      · intro e he
        obtain ⟨hfrom, hto⟩ := h.known e (linked_edges ▸ he)
        exact ⟨mem_linked.mp hfrom, mem_linked.mp hto⟩
      · rintro n hn hrole ⟨e, he, hto⟩
        exact h.sourceIn n.name n (linked_lookup.mpr ⟨hn, rfl⟩) hrole e (linked_edges ▸ he) hto
      · rintro n hn hrole ⟨e, he, hfrom⟩
        exact h.sinkOut n.name n (linked_lookup.mpr ⟨hn, rfl⟩) hrole e (linked_edges ▸ he) hfrom
      · exact hflows ▸ h.acyclic
      · have hfan := h.fanOut
        rwa [linked_edges, linked_maxFanOut] at hfan
      · have hfan := h.fanIn
        rwa [linked_edges, linked_maxFanIn] at hfan
    · intro n hn
      obtain ⟨e, he, hend⟩ := h.joined n.name (mem_linked.mpr ⟨n, hn, rfl⟩)
      rw [linked_edges] at he
      exact hend.symm.imp (fun hto => ⟨e, he, hto⟩) fun hfrom => ⟨e, he, hfrom⟩
  · rintro ⟨h, hjoined⟩
    constructor
    · rw [linked_name]
      exact d.named
    · obtain ⟨n, hn⟩ := List.exists_mem_of_ne_nil _ h.nonempty
      exact List.ne_nil_of_mem (AList.mem_keys.mp (mem_linked.mpr ⟨n, hn, rfl⟩))
    · intro e he
      obtain ⟨hfrom, hto⟩ := h.known e (linked_edges ▸ he)
      exact ⟨mem_linked.mpr hfrom, mem_linked.mpr hto⟩
    · intro name hname
      obtain ⟨n, hn, rfl⟩ := mem_linked.mp hname
      rw [linked_edges]
      rcases hjoined n hn with ⟨e, he, hto⟩ | ⟨e, he, hfrom⟩
      · exact ⟨e, he, .inr hto⟩
      · exact ⟨e, he, .inl hfrom⟩
    · intro name node hlookup hrole e he hto
      obtain ⟨hn, rfl⟩ := linked_lookup.mp hlookup
      exact h.sourceIn node hn hrole ⟨e, linked_edges ▸ he, hto⟩
    · intro name node hlookup hrole e he hfrom
      obtain ⟨hn, rfl⟩ := linked_lookup.mp hlookup
      exact h.sinkOut node hn hrole ⟨e, linked_edges ▸ he, hfrom⟩
    · exact hflows ▸ h.acyclic
    · rw [linked_edges, linked_maxFanOut]
      exact h.fanOut
    · rw [linked_edges, linked_maxFanIn]
      exact h.fanIn

/-! ## The builder -/

/-- The node that a builder keeps. -/
def builtNode (n : TopologyNode) : Pipeline.TopologyNode :=
  ⟨n.name, n.artifactPath, Pipeline.roleToInterface n.role, n.role⟩

/-- The edge that a builder keeps. -/
def pendingEdge (e : TopologyEdge) : Pipeline.PendingEdge :=
  ⟨e.fromNode, e.fromPort, e.toNode, e.toPort,
    ⟨some e.queueDepth.toUInt64, some e.backpressurePolicy⟩⟩

theorem foldl_nodeCall (b : Pipeline.PipelineTopologyBuilder) (nodes : List TopologyNode) :
    ((nodes.map nodeCall).foldl .call b).nodes = b.nodes ++ nodes.map builtNode ∧
      ((nodes.map nodeCall).foldl .call b).edges = b.edges := by
  induction nodes generalizing b with
  | nil => simp
  | cons n nodes ih =>
      rw [List.map_cons, List.foldl_cons]
      obtain ⟨hnodes, hedges⟩ := ih (b.call (nodeCall n))
      refine ⟨?_, hedges⟩
      rw [hnodes, List.map_cons]
      show b.nodes ++ [builtNode n] ++ _ = _
      rw [List.append_assoc, List.singleton_append]

theorem foldl_edgeCall (b : Pipeline.PipelineTopologyBuilder) (edges : List TopologyEdge) :
    ((edges.map edgeCall).foldl .call b).nodes = b.nodes ∧
      ((edges.map edgeCall).foldl .call b).edges = b.edges ++ edges.map pendingEdge := by
  induction edges generalizing b with
  | nil => simp
  | cons e edges ih =>
      rw [List.map_cons, List.foldl_cons]
      obtain ⟨hnodes, hedges⟩ := ih (b.call (edgeCall e))
      refine ⟨hnodes, ?_⟩
      rw [hedges, List.map_cons]
      show b.edges ++ [pendingEdge e] ++ _ = _
      rw [List.append_assoc, List.singleton_append]

theorem builder_nodes : d.builder.nodes = d.nodes.map builtNode := by
  unfold builder Pipeline.PipelineTopologyBuilder.ofCalls
  rw [List.foldl_append, (foldl_edgeCall _ _).1, (foldl_nodeCall _ _).1]
  rfl

theorem builder_edges : d.builder.edges = d.edges.map pendingEdge := by
  unfold builder Pipeline.PipelineTopologyBuilder.ofCalls
  rw [List.foldl_append, (foldl_edgeCall _ _).2, (foldl_nodeCall _ _).2]
  rfl

theorem builder_flows : d.builder.Flows = d.Flows := by
  funext u v
  unfold Pipeline.PipelineTopologyBuilder.Flows Flows
  rw [builder_edges]
  simp only [List.mem_map, exists_exists_and_eq_and, pendingEdge]

/-- Nodes of one name are one node. -/
theorem eq_of_name {m n : TopologyNode} (hm : m ∈ d.nodes) (hn : n ∈ d.nodes)
    (hname : m.name = n.name) : m = n :=
  List.inj_on_of_nodup_map d.unique hm hn hname

/-- Going back along the edges from any node of such a pipeline ends in a source. -/
theorem Regular.reached (h : d.Regular) (hthrough : d.Through) (hdrained : d.Drained) :
    ∀ n ∈ d.nodes, ∃ s ∈ d.nodes, s.role = .source ∧ ReflTransGen d.Flows s.name n.name := by
  classical
  by_contra hnot
  push Not at hnot
  obtain ⟨n₀, hn₀, hfar₀⟩ := hnot
  -- the first of the nodes that no source reaches
  let far := ((d.nodes.filter fun n =>
    ¬ ∃ s ∈ d.nodes, s.role = .source ∧ ReflTransGen d.Flows s.name n.name).map
      TopologyNode.name).toFinset
  have hmem : ∀ n ∈ d.nodes, n.name ∈ far ↔
      ¬ ∃ s ∈ d.nodes, s.role = .source ∧ ReflTransGen d.Flows s.name n.name := by
    intro n hn
    simp only [far, List.mem_toFinset, List.mem_map, List.mem_filter, decide_eq_true_eq]
    constructor
    · rintro ⟨m, ⟨hm, hfar⟩, hname⟩
      rwa [eq_of_name hm hn hname] at hfar
    · exact fun hfar => ⟨n, ⟨hn, hfar⟩, rfl⟩
  have hne : far.Nonempty := ⟨n₀.name, (hmem n₀ hn₀).mpr (by
    push Not
    exact hfar₀)⟩
  obtain ⟨v, hv, hfirst⟩ := h.acyclic.exists_first hne
  obtain ⟨n, hn, rfl⟩ : ∃ n ∈ d.nodes, n.name = v := by
    obtain ⟨n, hn, rfl⟩ := List.mem_map.mp (List.mem_toFinset.mp hv)
    exact ⟨n, (List.mem_filter.mp hn).1, rfl⟩
  have hfar := (hmem n hn).mp hv
  have hfed : d.Fed n := by
    by_cases hsource : n.role = .source
    · exact absurd ⟨n, hn, hsource, .refl⟩ hfar
    · by_cases hsink : n.role = .sink
      · exact hdrained.2 n hn hsink
      · exact (hthrough n hn hsource hsink).1
  obtain ⟨e, he, hto⟩ := hfed
  obtain ⟨m, hm, hfrom⟩ := (h.known e he).1
  have hedge : d.Flows m.name n.name := ⟨e, he, hfrom.symm, hto⟩
  have hnear : m.name ∉ far := fun hin => hfirst m.name hin hedge
  rw [hmem m hm, not_not] at hnear
  obtain ⟨s, hs, hrole, hpath⟩ := hnear
  exact hfar ⟨s, hs, hrole, hpath.tail hedge⟩

/-- **What the builder accepts**: the regular pipelines in which data can pass through every
inner node and reaches every sink. -/
theorem builder_ok_iff (order : Pipeline.PortOrder) :
    (∃ t, d.builder.build order = .ok t) ↔ d.Regular ∧ d.Through ∧ d.Drained := by
  have hindexed : d.builder.Indexed := Pipeline.PipelineTopologyBuilder.indexed_ofCalls _ _
  rw [Pipeline.PipelineTopologyBuilder.build_ok_iff hindexed]
  have hfed : ∀ n : TopologyNode, (∃ e ∈ d.builder.edges, e.toNode = n.name) ↔ d.Fed n := by
    intro n
    rw [builder_edges]
    simp only [List.mem_map, exists_exists_and_eq_and, pendingEdge, Fed]
  have hfeeds : ∀ n : TopologyNode, (∃ e ∈ d.builder.edges, e.fromNode = n.name) ↔ d.Feeds n := by
    intro n
    rw [builder_edges]
    simp only [List.mem_map, exists_exists_and_eq_and, pendingEdge, Feeds]
  have hfanOut : ∀ node port, (d.builder.edges.countP fun e =>
      e.fromNode = node ∧ e.fromPort = port) =
        d.edges.countP fun e => e.fromNode = node ∧ e.fromPort = port := by
    intro node port
    rw [builder_edges, List.countP_map]
    rfl
  have hfanIn : ∀ node port, (d.builder.edges.countP fun e =>
      e.toNode = node ∧ e.toPort = port) =
        d.edges.countP fun e => e.toNode = node ∧ e.toPort = port := by
    intro node port
    rw [builder_edges, List.countP_map]
    rfl
  have hnode : ∀ n ∈ d.nodes, builtNode n ∈ d.builder.nodes := by
    intro n hn
    rw [builder_nodes]
    exact List.mem_map.mpr ⟨n, hn, rfl⟩
  have hback : ∀ b ∈ d.builder.nodes, ∃ n ∈ d.nodes, builtNode n = b := by
    intro b hb
    rw [builder_nodes] at hb
    exact List.mem_map.mp hb
  have hnamed : ∀ name, (∃ b ∈ d.builder.nodes, b.name = name) ↔ ∃ n ∈ d.nodes, n.name = name := by
    intro name
    rw [builder_nodes]
    simp only [List.mem_map, exists_exists_and_eq_and, builtNode]
  have hedge : ∀ e ∈ d.edges, pendingEdge e ∈ d.builder.edges := by
    intro e he
    rw [builder_edges]
    exact List.mem_map.mpr ⟨e, he, rfl⟩
  constructor
  · intro h
    have hsinkFed : ∀ n ∈ d.nodes, n.role = .sink → d.Fed n := by
      intro n hn hsink
      obtain ⟨s, hs, hsource, hpath⟩ := h.reached _ (hnode n hn)
      obtain ⟨m, hm, rfl⟩ := hback s hs
      rcases ReflTransGen.cases_tail hpath with hsame | ⟨u, -, e, he, -, hto⟩
      · have hmn : n = m := eq_of_name hn hm hsame
        subst hmn
        rw [show n.role = .source from hsource] at hsink
        cases hsink
      · exact (hfed n).mp ⟨e, he, hto⟩
    refine ⟨⟨?_, ?_, ?_, ?_, builder_flows ▸ h.acyclic, ?_, ?_⟩, ?_, ?_, hsinkFed⟩
    · obtain ⟨s, hs, -⟩ := h.hasSource
      obtain ⟨n, hn, -⟩ := hback s hs
      exact List.ne_nil_of_mem hn
    · intro e he
      obtain ⟨hfrom, hto⟩ := h.known _ (hedge e he)
      exact ⟨(hnamed _).mp hfrom, (hnamed _).mp hto⟩
    · intro n hn hrole hin
      obtain ⟨e, he, hto⟩ := (hfed n).mpr hin
      exact h.sourceIn _ (hnode n hn) hrole e he hto
    · intro n hn hrole hout
      obtain ⟨e, he, hfrom⟩ := (hfeeds n).mpr hout
      exact h.sinkOut _ (hnode n hn) hrole e he hfrom
    · exact fun node port => hfanOut node port ▸ h.fanOut node port
    · exact fun node port => hfanIn node port ▸ h.fanIn node port
    · intro n hn hsource hsink
      rw [← hfed, ← hfeeds]
      exact h.inner _ (hnode n hn) hsource hsink
    · obtain ⟨s, hs, hrole⟩ := h.hasSink
      obtain ⟨n, hn, rfl⟩ := hback s hs
      exact ⟨n, hn, hrole⟩
  · rintro ⟨h, hthrough, hdrained⟩
    have hreached := h.reached hthrough hdrained
    constructor
    · rw [builder_nodes, List.map_map]
      exact d.unique
    · intro p hp
      rw [builder_edges] at hp
      obtain ⟨e, he, rfl⟩ := List.mem_map.mp hp
      rw [hnamed, hnamed]
      exact h.known e he
    · intro p hp hloop
      rw [builder_edges] at hp
      obtain ⟨e, he, rfl⟩ := List.mem_map.mp hp
      exact h.acyclic e.fromNode (.single ⟨e, he, rfl, hloop.symm⟩)
    · obtain ⟨n, hn⟩ := List.exists_mem_of_ne_nil _ h.nonempty
      obtain ⟨s, hs, hrole, -⟩ := hreached n hn
      exact ⟨_, hnode s hs, hrole⟩
    · obtain ⟨s, hs, hrole⟩ := hdrained.1
      exact ⟨_, hnode s hs, hrole⟩
    · intro b hb hrole e he hto
      obtain ⟨n, hn, rfl⟩ := hback b hb
      exact h.sourceIn n hn hrole ((hfed n).mp ⟨e, he, hto⟩)
    · intro b hb hrole e he hfrom
      obtain ⟨n, hn, rfl⟩ := hback b hb
      exact h.sinkOut n hn hrole ((hfeeds n).mp ⟨e, he, hfrom⟩)
    · intro b hb hsource hsink
      obtain ⟨n, hn, rfl⟩ := hback b hb
      obtain ⟨hin, hout⟩ := hthrough n hn hsource hsink
      exact ⟨(hfed n).mpr hin, (hfeeds n).mpr hout⟩
    · exact fun node port => (hfanOut node port).symm ▸ h.fanOut node port
    · exact fun node port => (hfanIn node port).symm ▸ h.fanIn node port
    · rw [builder_flows]
      exact h.acyclic
    · intro b hb
      obtain ⟨n, hn, rfl⟩ := hback b hb
      obtain ⟨s, hs, hrole, hpath⟩ := hreached n hn
      rw [builder_flows]
      exact ⟨_, hnode s hs, hrole, hpath⟩

/-! ## Agreement -/

/-- In a regular pipeline where all nodes have edges and data passes through the inner ones,
every sink is fed, and there is one. -/
theorem Regular.drained (h : d.Regular) (hjoined : d.Joined) (hthrough : d.Through) :
    d.Drained := by
  constructor
  · -- the last node of the graph is a sink
    have hreverse : Acyclic fun u v => d.Flows v u := by
      intro v hcycle
      exact h.acyclic v (transGen_swap.mp hcycle)
    obtain ⟨n₀, hn₀⟩ := List.exists_mem_of_ne_nil _ h.nonempty
    have hne : ((d.nodes.map TopologyNode.name).toFinset).Nonempty :=
      ⟨n₀.name, List.mem_toFinset.mpr (List.mem_map.mpr ⟨n₀, hn₀, rfl⟩)⟩
    obtain ⟨v, hv, hlast⟩ := hreverse.exists_first hne
    obtain ⟨n, hn, rfl⟩ := List.mem_map.mp (List.mem_toFinset.mp hv)
    have hends : ¬ d.Feeds n := by
      rintro ⟨e, he, hfrom⟩
      obtain ⟨m, hm, hto⟩ := (h.known e he).2
      refine hlast m.name ?_ ⟨e, he, hfrom, hto.symm⟩
      exact List.mem_toFinset.mpr (List.mem_map.mpr ⟨m, hm, rfl⟩)
    refine ⟨n, hn, ?_⟩
    by_contra hsink
    by_cases hsource : n.role = .source
    · exact (hjoined n hn).elim (h.sourceIn n hn hsource) hends
    · exact hends (hthrough n hn hsource hsink).2
  · intro n hn hsink
    exact (hjoined n hn).resolve_right (h.sinkOut n hn hsink)

/-- **When linking and building agree.**  They do unless the pipeline is regular and either
all nodes have an edge while an inner node lacks one on one of its sides, which only the
builder rejects, or a source has no edge while all is well with the other nodes, which only
the linker rejects. -/
theorem link_agrees_with_build_iff (d : PipelineDescription) (order : Pipeline.PortOrder) :
    (d.linked.validate.isOk = true ↔ ∃ t, d.builder.build order = .ok t) ↔
      (d.Regular → (d.Joined → d.Through) ∧ (d.Through → d.Drained → d.Supplied)) := by
  rw [linked_isOk_iff, builder_ok_iff]
  constructor
  · intro hagree h
    constructor
    · intro hjoined
      exact (hagree.mp ⟨h, hjoined⟩).2.1
    · intro hthrough hdrained n hn hsource
      have hjoined := (hagree.mpr ⟨h, hthrough, hdrained⟩).2
      exact (hjoined n hn).resolve_left (h.sourceIn n hn hsource)
  · intro hcond
    constructor
    · rintro ⟨h, hjoined⟩
      have hthrough := (hcond h).1 hjoined
      exact ⟨h, hthrough, h.drained hjoined hthrough⟩
    · rintro ⟨h, hthrough, hdrained⟩
      refine ⟨h, fun n hn => ?_⟩
      by_cases hsource : n.role = .source
      · exact .inr ((hcond h).2 hthrough hdrained n hn hsource)
      · by_cases hsink : n.role = .sink
        · exact .inl (hdrained.2 n hn hsink)
        · exact .inl (hthrough n hn hsource hsink).1

/-- A processor that nothing feeds, beside a source, both before one sink: the linker reports
no error, the builder rejects the processor. -/
def unfedProcessor : PipelineDescription where
  name := "main"
  nodes := [⟨"in", .source, "in.wasm", none, []⟩, ⟨"work", .processor, "work.wasm", none, []⟩,
    ⟨"out", .sink, "out.wasm", none, []⟩]
  edges := [⟨"in", "output", "out", "input", 64, .blockProducer⟩,
    ⟨"work", "output", "out", "input", 64, .blockProducer⟩]
  named := by decide
  unique := by decide

/-- The linker approves a pipeline that cannot be built. -/
theorem link_agreement_gap :
    unfedProcessor.linked.validate.isOk = true ∧
      unfedProcessor.builder.build ⟨id, fun _ => .refl _⟩ =
        .error [.processorMissingEdges "main" "work" "Processor" false true,
          .disconnectedNode "main" "work"] := by
  constructor
  · decide
  · rfl

end PipelineDescription

end Torvyn.Linker
