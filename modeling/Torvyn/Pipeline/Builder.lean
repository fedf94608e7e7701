/-
# The pipeline builder

`PipelineTopologyBuilder` of `torvyn-pipeline/src/builder.rs`.  Calls collect nodes
and edges between node names; `build` resolves the names, then runs the checks on
the indices.  What it accepts is said on the names alone (`Buildable`,
`build_ok_iff`): an accepted pipeline has one node for each name, so that paths
between names and paths between indices are the same.
-/
import Torvyn.Pipeline.Topology

namespace Torvyn.Pipeline

open Torvyn.Graph Relation

/-! ## The builder -/

/-- An edge between node names. -/
structure PendingEdge where
  fromNode : String
  fromPort : String
  toNode : String
  toPort : String
  config : EdgeConfig

/-- What has been collected so far. -/
structure PipelineTopologyBuilder where
  name : String
  description : String
  nodes : List TopologyNode
  nodeIndex : KeyMap String ℕ
  edges : List PendingEdge

/-- `role_to_interface`. -/
def roleToInterface : ComponentRole → String
  | .source => "torvyn:streaming/source"
  | .processor => "torvyn:streaming/processor"
  | .sink => "torvyn:streaming/sink"
  | .filter => "torvyn:streaming/filter"
  | .router => "torvyn:streaming/router"

/-- The calls on a builder. -/
inductive BuilderCall where
  | description (description : String)
  | addNode (name : String) (role : ComponentRole) (componentRef : String)
  | addNodeWithInterface (name : String) (role : ComponentRole) (componentRef interface : String)
  | addEdge (fromNode fromPort toNode toPort : String)
  | addEdgeWithConfig (fromNode fromPort toNode toPort : String) (config : EdgeConfig)

namespace PipelineTopologyBuilder

/-- `PipelineTopologyBuilder::new`. -/
def new (name : String) : PipelineTopologyBuilder := ⟨name, "", [], ∅, []⟩

/-- `add_node_with_interface`: a second node of the same name takes its place in the index. -/
def addNodeWithInterface (b : PipelineTopologyBuilder) (name : String) (role : ComponentRole)
    (componentRef interface : String) : PipelineTopologyBuilder :=
  { b with
    nodes := b.nodes ++ [⟨name, componentRef, interface, role⟩]
    nodeIndex := b.nodeIndex.insert name b.nodes.length }

/-- `add_node`. -/
def addNode (b : PipelineTopologyBuilder) (name : String) (role : ComponentRole)
    (componentRef : String) : PipelineTopologyBuilder :=
  b.addNodeWithInterface name role componentRef (roleToInterface role)

/-- `add_edge_with_config`. -/
def addEdgeWithConfig (b : PipelineTopologyBuilder) (fromNode fromPort toNode toPort : String)
    (config : EdgeConfig) : PipelineTopologyBuilder :=
  { b with edges := b.edges ++ [⟨fromNode, fromPort, toNode, toPort, config⟩] }

/-- `add_edge`. -/
def addEdge (b : PipelineTopologyBuilder) (fromNode fromPort toNode toPort : String) :
    PipelineTopologyBuilder :=
  b.addEdgeWithConfig fromNode fromPort toNode toPort .default

/-- One call. -/
def call (b : PipelineTopologyBuilder) : BuilderCall → PipelineTopologyBuilder
  | .description description => { b with description := description }
  | .addNode name role componentRef => b.addNode name role componentRef
  | .addNodeWithInterface name role componentRef interface =>
      b.addNodeWithInterface name role componentRef interface
  | .addEdge fromNode fromPort toNode toPort => b.addEdge fromNode fromPort toNode toPort
  | .addEdgeWithConfig fromNode fromPort toNode toPort config =>
      b.addEdgeWithConfig fromNode fromPort toNode toPort config

/-- The builder after a sequence of calls. -/
def ofCalls (name : String) (calls : List BuilderCall) : PipelineTopologyBuilder :=
  calls.foldl call (new name)

/-! ## Building -/

/-- The nodes whose names have been seen before. -/
def duplicateErrors (flowName : String) : List String → List TopologyNode → List PipelineError
  | _, [] => []
  | seen, node :: nodes =>
      if node.name ∈ seen then
        .duplicateNode flowName node.name :: duplicateErrors flowName seen nodes
      else duplicateErrors flowName (node.name :: seen) nodes

/-- Look up the two nodes of the edge of index `i`. -/
def resolveEdge (b : PipelineTopologyBuilder) (i : ℕ) (pending : PendingEdge) :
    Except PipelineError TopologyEdge :=
  match b.nodeIndex.lookup pending.fromNode with
  | none => .error (.edgeReferencesUnknownNode b.name i pending.fromNode "from")
  | some fromIdx =>
      match b.nodeIndex.lookup pending.toNode with
      | none => .error (.edgeReferencesUnknownNode b.name i pending.toNode "to")
      | some toIdx =>
          if fromIdx = toIdx then .error (.selfLoop b.name pending.fromNode)
          else .ok ⟨fromIdx, pending.fromPort, toIdx, pending.toPort, pending.config⟩

/-- The error of a result. -/
def errorOf : Except PipelineError TopologyEdge → Option PipelineError
  | .error e => some e
  | .ok _ => none

/-- The resolved edges, or what is wrong with them. -/
def resolved (b : PipelineTopologyBuilder) : List (Except PipelineError TopologyEdge) :=
  b.edges.zipIdx.map fun p => b.resolveEdge p.2 p.1

/-- `build`. -/
def build (b : PipelineTopologyBuilder) (order : PortOrder) :
    Except (List PipelineError) PipelineTopology :=
  let report := duplicateErrors b.name [] b.nodes ++ b.resolved.filterMap errorOf
  let resolvedEdges := b.resolved.filterMap Except.toOption
  if report ≠ [] then .error report
  else
    let (errors, executionOrder) := validateTopology b.name b.nodes resolvedEdges order
    if errors ≠ [] then .error errors
    else .ok ⟨b.name, b.description, b.nodes, b.nodeIndex, resolvedEdges, executionOrder⟩

/-! ## The index of names -/

/-- The index leads to nodes of the name, and to some node for each name. -/
structure Indexed (b : PipelineTopologyBuilder) : Prop where
  named : ∀ name idx, b.nodeIndex.lookup name = some idx →
    ∃ n, b.nodes[idx]? = some n ∧ n.name = name
  total : ∀ n ∈ b.nodes, n.name ∈ b.nodeIndex

theorem Indexed.addNodeWithInterface {b : PipelineTopologyBuilder} (h : b.Indexed) (name : String)
    (role : ComponentRole) (componentRef interface : String) :
    (b.addNodeWithInterface name role componentRef interface).Indexed := by
  constructor
  · intro name' idx hidx
    by_cases hname : name' = name
    · subst hname
      have hlookup : (b.nodeIndex.insert name' b.nodes.length).lookup name' = some idx := hidx
      rw [AList.lookup_insert] at hlookup
      obtain rfl := Option.some.inj hlookup
      exact ⟨_, List.getElem?_concat_length, rfl⟩
    · have hlookup : (b.nodeIndex.insert name b.nodes.length).lookup name' = some idx := hidx
      rw [AList.lookup_insert_ne hname] at hlookup
      obtain ⟨n, hn, hnamed⟩ := h.named name' idx hlookup
      exact ⟨n, (List.getElem?_append_left (List.getElem?_eq_some_iff.mp hn).1).trans hn, hnamed⟩
  · intro n hn
    refine (AList.mem_insert _).mpr ?_
    rcases List.mem_append.mp hn with hn | hn
    · exact .inr (h.total n hn)
    · rw [List.mem_singleton.mp hn]
      exact .inl rfl

theorem Indexed.call {b : PipelineTopologyBuilder} (h : b.Indexed) (c : BuilderCall) :
    (b.call c).Indexed := by
  cases c with
  | description description => exact ⟨h.named, h.total⟩
  | addNode name role componentRef => exact h.addNodeWithInterface name role componentRef _
  | addNodeWithInterface name role componentRef interface =>
      exact h.addNodeWithInterface name role componentRef interface
  | addEdge fromNode fromPort toNode toPort => exact ⟨h.named, h.total⟩
  | addEdgeWithConfig fromNode fromPort toNode toPort config => exact ⟨h.named, h.total⟩

theorem indexed_ofCalls (name : String) (calls : List BuilderCall) :
    (ofCalls name calls).Indexed := by
  have hnew : (new name).Indexed := by
    constructor
    · intro name idx h
      cases h
    · intro n hn
      cases hn
  unfold ofCalls
  generalize new name = b at hnew
  induction calls generalizing b with
  | nil => exact hnew
  | cons c calls ih => exact ih _ (hnew.call c)

/-! ## What is accepted -/

/-- Some edge leads from one name to the other. -/
def Flows (b : PipelineTopologyBuilder) (u v : String) : Prop :=
  ∃ e ∈ b.edges, e.fromNode = u ∧ e.toNode = v

/-- The conditions on a pipeline, in terms of its names. -/
structure Buildable (b : PipelineTopologyBuilder) : Prop where
  unique : (b.nodes.map TopologyNode.name).Nodup
  known : ∀ e ∈ b.edges, (∃ n ∈ b.nodes, n.name = e.fromNode) ∧ ∃ n ∈ b.nodes, n.name = e.toNode
  noLoop : ∀ e ∈ b.edges, e.fromNode ≠ e.toNode
  hasSource : ∃ n ∈ b.nodes, n.role = .source
  hasSink : ∃ n ∈ b.nodes, n.role = .sink
  sourceIn : ∀ n ∈ b.nodes, n.role = .source → ∀ e ∈ b.edges, e.toNode ≠ n.name
  sinkOut : ∀ n ∈ b.nodes, n.role = .sink → ∀ e ∈ b.edges, e.fromNode ≠ n.name
  inner : ∀ n ∈ b.nodes, n.role ≠ .source → n.role ≠ .sink →
    (∃ e ∈ b.edges, e.toNode = n.name) ∧ ∃ e ∈ b.edges, e.fromNode = n.name
  fanOut : ∀ node port,
    (b.edges.countP fun e => e.fromNode = node ∧ e.fromPort = port) ≤ defaultMaxFanOut
  fanIn : ∀ node port,
    (b.edges.countP fun e => e.toNode = node ∧ e.toPort = port) ≤ defaultMaxFanIn
  acyclic : Acyclic b.Flows
  reached : ∀ n ∈ b.nodes, ∃ s ∈ b.nodes, s.role = .source ∧ ReflTransGen b.Flows s.name n.name

/-- An edge between names and the edge between indices that it becomes. -/
structure Resolves (b : PipelineTopologyBuilder) (e : PendingEdge) (r : TopologyEdge) : Prop where
  fromNode : ∃ n, b.nodes[r.fromNode]? = some n ∧ n.name = e.fromNode
  toNode : ∃ n, b.nodes[r.toNode]? = some n ∧ n.name = e.toNode
  fromPort : r.fromPort = e.fromPort
  toPort : r.toPort = e.toPort
  config : r.edgeConfig = e.config

variable {b : PipelineTopologyBuilder}

theorem duplicateErrors_eq_nil_iff {flowName : String} (seen : List String)
    (nodes : List TopologyNode) : duplicateErrors flowName seen nodes = [] ↔
      (nodes.map TopologyNode.name).Nodup ∧ ∀ n ∈ nodes, n.name ∉ seen := by
  induction nodes generalizing seen with
  | nil => simp [duplicateErrors]
  | cons node nodes ih =>
      unfold duplicateErrors
      split
      · rename_i hseen
        refine iff_of_false (List.cons_ne_nil _ _) fun h => ?_
        exact h.2 node List.mem_cons_self hseen
      · rename_i hseen
        rw [ih, List.map_cons, List.nodup_cons]
        constructor
        · rintro ⟨hnodup, hnew⟩
          refine ⟨⟨fun hmem => ?_, hnodup⟩, ?_⟩
          · obtain ⟨n, hn, hname⟩ := List.mem_map.mp hmem
            exact hnew n hn (by rw [hname]; exact List.mem_cons_self)
          · intro n hn
            rcases List.mem_cons.mp hn with rfl | hn
            · exact hseen
            · exact fun hmem => hnew n hn (List.mem_cons_of_mem _ hmem)
        · rintro ⟨⟨hnot, hnodup⟩, hnew⟩
          refine ⟨hnodup, fun n hn hmem => ?_⟩
          rcases List.mem_cons.mp hmem with hname | hmem
          · exact hnot (List.mem_map.mpr ⟨n, hn, hname⟩)
          · exact hnew n (List.mem_cons_of_mem _ hn) hmem

/-- Nodes of one name are one node. -/
theorem idx_unique (hunique : (b.nodes.map TopologyNode.name).Nodup) {i j : ℕ} {m n : TopologyNode}
    (hm : b.nodes[i]? = some m) (hn : b.nodes[j]? = some n) (hname : m.name = n.name) : i = j := by
  have hi := (List.getElem?_eq_some_iff.mp hm).1
  refine (List.getElem?_inj (by rwa [List.length_map]) hunique).mp ?_
  rw [List.getElem?_map, List.getElem?_map, hm, hn, Option.map_some, Option.map_some, hname]

/-- What an edge is resolved to. -/
theorem resolveEdge_eq_ok_iff {i : ℕ} {e : PendingEdge} :
    (∃ r, b.resolveEdge i e = .ok r) ↔
      e.fromNode ∈ b.nodeIndex ∧ e.toNode ∈ b.nodeIndex ∧
        b.nodeIndex.lookup e.fromNode ≠ b.nodeIndex.lookup e.toNode := by
  unfold resolveEdge
  rw [KeyMap.mem_iff_exists, KeyMap.mem_iff_exists]
  cases hfrom : b.nodeIndex.lookup e.fromNode with
  | none => simp
  | some fromIdx =>
      cases hto : b.nodeIndex.lookup e.toNode with
      | none => simp
      | some toIdx =>
          by_cases heq : fromIdx = toIdx
          · simp [heq]
          · simp [heq]

theorem resolves_of_resolveEdge (h : b.Indexed) {i : ℕ} {e : PendingEdge} {r : TopologyEdge}
    (hr : b.resolveEdge i e = .ok r) : b.Resolves e r := by
  unfold resolveEdge at hr
  split at hr
  · cases hr
  · rename_i fromIdx hfrom
    split at hr
    · cases hr
    · rename_i toIdx hto
      split at hr
      · cases hr
      · cases hr
        exact ⟨h.named _ _ hfrom, h.named _ _ hto, rfl, rfl, rfl⟩

/-! ### Resolution -/

/-- The edges are resolved one for one when none of them fails. -/
theorem forall₂_resolved (h : b.Indexed) (edges : List PendingEdge) (k : ℕ)
    (hall : ((edges.zipIdx k).map fun p => b.resolveEdge p.2 p.1).filterMap errorOf = []) :
    List.Forall₂ b.Resolves edges
      (((edges.zipIdx k).map fun p => b.resolveEdge p.2 p.1).filterMap Except.toOption) := by
  induction edges generalizing k with
  | nil => exact .nil
  | cons e edges ih =>
      rw [List.zipIdx_cons, List.map_cons] at hall ⊢
      dsimp only at hall ⊢
      cases hr : b.resolveEdge k e with
      | error err =>
          rw [hr] at hall
          cases hall
      | ok r =>
          rw [hr] at hall
          exact .cons (resolves_of_resolveEdge h hr) (ih (k + 1) hall)

/-- No edge fails exactly when each of them names two different nodes. -/
theorem resolved_errors_eq_nil_iff (h : b.Indexed) : b.resolved.filterMap errorOf = [] ↔
    ∀ e ∈ b.edges, ((∃ n ∈ b.nodes, n.name = e.fromNode) ∧ ∃ n ∈ b.nodes, n.name = e.toNode) ∧
      e.fromNode ≠ e.toNode := by
  have hmem : ∀ name, name ∈ b.nodeIndex ↔ ∃ n ∈ b.nodes, n.name = name := by
    intro name
    constructor
    · intro hname
      obtain ⟨idx, hidx⟩ := KeyMap.mem_iff_exists.mp hname
      obtain ⟨n, hn, hnamed⟩ := h.named name idx hidx
      exact ⟨n, List.mem_of_getElem? hn, hnamed⟩
    · rintro ⟨n, hn, rfl⟩
      exact h.total n hn
  have hsame : ∀ {x y}, x ∈ b.nodeIndex →
      (b.nodeIndex.lookup x ≠ b.nodeIndex.lookup y ↔ x ≠ y) := by
    intro x y hx
    constructor
    · rintro hne rfl
      exact hne rfl
    · intro hne heq
      obtain ⟨idx, hidx⟩ := KeyMap.mem_iff_exists.mp hx
      obtain ⟨m, hm, hmx⟩ := h.named x idx hidx
      obtain ⟨n, hn, hny⟩ := h.named y idx (heq ▸ hidx)
      obtain rfl := Option.some.inj (hm.symm.trans hn)
      exact hne (hmx.symm.trans hny)
  have hone : ∀ (i : ℕ) (e : PendingEdge), errorOf (b.resolveEdge i e) = none ↔
      ((∃ n ∈ b.nodes, n.name = e.fromNode) ∧ ∃ n ∈ b.nodes, n.name = e.toNode) ∧
        e.fromNode ≠ e.toNode := by
    intro i e
    have hok : errorOf (b.resolveEdge i e) = none ↔ ∃ r, b.resolveEdge i e = .ok r := by
      cases b.resolveEdge i e with
      | error err => exact iff_of_false (Option.some_ne_none _) (by rintro ⟨r, hr⟩; cases hr)
      | ok r => exact iff_of_true rfl ⟨r, rfl⟩
    rw [hok, resolveEdge_eq_ok_iff, ← hmem, ← hmem, and_assoc]
    constructor
    · rintro ⟨hfrom, hto, hne⟩
      exact ⟨hfrom, hto, (hsame hfrom).mp hne⟩
    · rintro ⟨hfrom, hto, hne⟩
      exact ⟨hfrom, hto, (hsame hfrom).mpr hne⟩
  unfold resolved
  rw [List.filterMap_eq_nil_iff]
  constructor
  · intro hnone e he
    obtain ⟨i, hi⟩ := List.mem_iff_getElem?.mp he
    exact (hone i e).mp (hnone _ (List.mem_map.mpr
      ⟨(e, i), List.mk_mem_zipIdx_iff_getElem?.mpr hi, rfl⟩))
  · rintro hall _ hx
    obtain ⟨⟨e, i⟩, hi, rfl⟩ := List.mem_map.mp hx
    exact (hone i e).mpr (hall e (List.mem_of_getElem? (List.mk_mem_zipIdx_iff_getElem?.mp hi)))

/-! ### From indices to names -/

theorem countP_of_forall₂ {edges : List PendingEdge} {rs : List TopologyEdge}
    (h : List.Forall₂ b.Resolves edges rs) {p : TopologyEdge → Bool} {q : PendingEdge → Bool}
    (hpq : ∀ e r, b.Resolves e r → p r = q e) : rs.countP p = edges.countP q := by
  induction h with
  | nil => rfl
  | cons hres _ ih => rw [List.countP_cons, List.countP_cons, ih, hpq _ _ hres]

section Names

variable {rs : List TopologyEdge} (hunique : (b.nodes.map TopologyNode.name).Nodup)
  (hresolves : List.Forall₂ b.Resolves b.edges rs)
include hresolves

theorem exists_resolved {e : PendingEdge} (he : e ∈ b.edges) : ∃ r ∈ rs, b.Resolves e r := by
  obtain ⟨i, hi⟩ := List.mem_iff_getElem?.mp he
  obtain ⟨hlt, rfl⟩ := List.getElem?_eq_some_iff.mp hi
  have hlt' : i < rs.length := hresolves.length_eq ▸ hlt
  exact ⟨rs[i], List.getElem_mem hlt', List.forall₂_iff_get.mp hresolves |>.2 i hlt hlt'⟩

theorem exists_pending {r : TopologyEdge} (hr : r ∈ rs) : ∃ e ∈ b.edges, b.Resolves e r := by
  obtain ⟨i, hi⟩ := List.mem_iff_getElem?.mp hr
  obtain ⟨hlt, rfl⟩ := List.getElem?_eq_some_iff.mp hi
  have hlt' : i < b.edges.length := hresolves.length_eq ▸ hlt
  exact ⟨b.edges[i], List.getElem_mem hlt', List.forall₂_iff_get.mp hresolves |>.2 i hlt' hlt⟩

theorem flows_of_link {u v : ℕ} (h : Link rs u v) :
    b.Flows (nodeName b.nodes u) (nodeName b.nodes v) := by
  obtain ⟨r, hr, rfl, rfl⟩ := h
  obtain ⟨e, he, hres⟩ := exists_pending hresolves hr
  obtain ⟨m, hm, hfrom⟩ := hres.fromNode
  obtain ⟨n, hn, hto⟩ := hres.toNode
  refine ⟨e, he, ?_, ?_⟩
  · unfold nodeName
    rw [hm, ← hfrom]
    rfl
  · unfold nodeName
    rw [hn, ← hto]
    rfl

theorem bounds_of_resolves : ∀ r ∈ rs, r.fromNode < b.nodes.length ∧ r.toNode < b.nodes.length := by
  intro r hr
  obtain ⟨e, -, hres⟩ := exists_pending hresolves hr
  obtain ⟨m, hm, -⟩ := hres.fromNode
  obtain ⟨n, hn, -⟩ := hres.toNode
  exact ⟨(List.getElem?_eq_some_iff.mp hm).1, (List.getElem?_eq_some_iff.mp hn).1⟩

include hunique

theorem link_of_flows {x y : String} (h : b.Flows x y) {i j : ℕ} {m n : TopologyNode}
    (hm : b.nodes[i]? = some m) (hn : b.nodes[j]? = some n) (hx : m.name = x) (hy : n.name = y) :
    Link rs i j := by
  obtain ⟨e, he, rfl, rfl⟩ := h
  obtain ⟨r, hr, hres⟩ := exists_resolved hresolves he
  obtain ⟨m', hm', hfrom⟩ := hres.fromNode
  obtain ⟨n', hn', hto⟩ := hres.toNode
  exact ⟨r, hr, idx_unique hunique hm' hm (hfrom.trans hx.symm),
    idx_unique hunique hn' hn (hto.trans hy.symm)⟩

theorem acyclic_iff : Acyclic (Link rs) ↔ Acyclic b.Flows := by
  constructor
  · intro hacyclic x hcycle
    -- paths between names are paths between the indices of the names
    have hpath : ∀ y, TransGen b.Flows x y → ∀ i j m n, b.nodes[i]? = some m →
        b.nodes[j]? = some n → m.name = x → n.name = y → TransGen (Link rs) i j := by
      intro y hxy
      induction hxy with
      | single hstep =>
          intro i j m n hm hn hx hy
          exact .single (link_of_flows hunique hresolves hstep hm hn hx hy)
      | @tail y z _ hstep ih =>
          intro i j m n hm hn hx hz
          obtain ⟨e, he, hfrom, -⟩ := id hstep
          obtain ⟨r, -, hres⟩ := exists_resolved hresolves he
          obtain ⟨k, hk, hname⟩ := hres.fromNode
          have hy : k.name = y := hname.trans hfrom
          exact (ih i r.fromNode m k hm hk hx hy).tail
            (link_of_flows hunique hresolves hstep hk hn hy hz)
    obtain ⟨_, ⟨e, he, hfrom, -⟩, -⟩ := TransGen.head'_iff.mp hcycle
    obtain ⟨r, -, hres⟩ := exists_resolved hresolves he
    obtain ⟨k, hk, hname⟩ := hres.fromNode
    have hx : k.name = x := hname.trans hfrom
    exact hacyclic r.fromNode (hpath x hcycle r.fromNode r.fromNode k k hk hk hx hx)
  · intro hacyclic v hcycle
    exact hacyclic (nodeName b.nodes v)
      (hcycle.lift (nodeName b.nodes) fun _ _ => flows_of_link hresolves)

theorem reach_iff {i j : ℕ} {m n : TopologyNode} (hm : b.nodes[i]? = some m)
    (hn : b.nodes[j]? = some n) :
    ReflTransGen (Link rs) i j ↔ ReflTransGen b.Flows m.name n.name := by
  have hname : ∀ {k : ℕ} {n : TopologyNode}, b.nodes[k]? = some n → nodeName b.nodes k = n.name := by
    intro k n hn
    unfold nodeName
    rw [hn]
    rfl
  constructor
  · intro hpath
    rw [← hname hm, ← hname hn]
    exact hpath.lift (nodeName b.nodes) fun _ _ => flows_of_link hresolves
  · intro hpath
    generalize hy : n.name = y at hpath
    induction hpath generalizing j n with
    | refl =>
        rw [idx_unique hunique hm hn hy.symm]
    | @tail y z _ hstep ih =>
        obtain ⟨e, he, hfrom, -⟩ := id hstep
        obtain ⟨r, -, hres⟩ := exists_resolved hresolves he
        obtain ⟨k, hk, hname⟩ := hres.fromNode
        have hky : k.name = y := hname.trans hfrom
        exact (ih hk hky).tail (link_of_flows hunique hresolves hstep hk hn hky hy)

/-- The edges of a port are counted alike on the indices and on the names. -/
theorem fan_iff {node : PendingEdge → String} {port : PendingEdge → String}
    {idx : TopologyEdge → ℕ} {port' : TopologyEdge → String} {limit : ℕ}
    (hnode : ∀ e r, b.Resolves e r → ∃ n, b.nodes[idx r]? = some n ∧ n.name = node e)
    (hport : ∀ e r, b.Resolves e r → port' r = port e) :
    (∀ key : ℕ × String, (rs.countP fun r => (idx r, port' r) = key) ≤ limit) ↔
      ∀ name p, (b.edges.countP fun e => node e = name ∧ port e = p) ≤ limit := by
  have hcount : ∀ {i : ℕ} {n : TopologyNode} (p : String), b.nodes[i]? = some n →
      (rs.countP fun r => (idx r, port' r) = (i, p)) =
        b.edges.countP fun e => node e = n.name ∧ port e = p := by
    intro i n p hn
    refine countP_of_forall₂ hresolves fun e r hres => ?_
    obtain ⟨m, hm, hname⟩ := hnode e r hres
    rw [decide_eq_decide, Prod.mk.injEq, hport e r hres]
    refine and_congr_left fun _ => ?_
    constructor
    · rintro rfl
      obtain rfl := Option.some.inj (hm.symm.trans hn)
      exact hname.symm
    · intro heq
      exact idx_unique hunique hm hn (hname.trans heq)
  constructor
  · intro h name p
    by_cases hzero : (b.edges.countP fun e => node e = name ∧ port e = p) = 0
    · rw [hzero]
      exact Nat.zero_le _
    · obtain ⟨e, he, hmatch⟩ := List.countP_pos_iff.mp (Nat.pos_of_ne_zero hzero)
      obtain ⟨hname, -⟩ := of_decide_eq_true hmatch
      obtain ⟨r, -, hres⟩ := exists_resolved hresolves he
      obtain ⟨n, hn, hnamed⟩ := hnode e r hres
      rw [← hname, ← hnamed, ← hcount p hn]
      exact h _
  · rintro h ⟨i, p⟩
    by_cases hzero : (rs.countP fun r => (idx r, port' r) = (i, p)) = 0
    · rw [hzero]
      exact Nat.zero_le _
    · obtain ⟨r, hr, hmatch⟩ := List.countP_pos_iff.mp (Nat.pos_of_ne_zero hzero)
      obtain ⟨hidx, -⟩ := Prod.mk.inj (of_decide_eq_true hmatch)
      obtain ⟨e, -, hres⟩ := exists_pending hresolves hr
      obtain ⟨n, hn, -⟩ := hnode e r hres
      rw [hcount p (hidx ▸ hn)]
      exact h _ _

/-- **The conditions on the indices are the conditions on the names.** -/
theorem sound_iff (hknown : ∀ e ∈ b.edges, (∃ n ∈ b.nodes, n.name = e.fromNode) ∧
    ∃ n ∈ b.nodes, n.name = e.toNode) (hloop : ∀ e ∈ b.edges, e.fromNode ≠ e.toNode) :
    Sound b.nodes rs ↔ b.Buildable := by
  -- the ends of the edges at a node
  have hfrom : ∀ {i : ℕ} {n : TopologyNode}, b.nodes[i]? = some n →
      ((∃ r ∈ rs, r.fromNode = i) ↔ ∃ e ∈ b.edges, e.fromNode = n.name) := by
    intro i n hn
    constructor
    · rintro ⟨r, hr, rfl⟩
      obtain ⟨e, he, hres⟩ := exists_pending hresolves hr
      obtain ⟨m, hm, hname⟩ := hres.fromNode
      obtain rfl := Option.some.inj (hm.symm.trans hn)
      exact ⟨e, he, hname.symm⟩
    · rintro ⟨e, he, hname⟩
      obtain ⟨r, hr, hres⟩ := exists_resolved hresolves he
      obtain ⟨m, hm, hnamed⟩ := hres.fromNode
      exact ⟨r, hr, idx_unique hunique hm hn (hnamed.trans hname)⟩
  have hto : ∀ {i : ℕ} {n : TopologyNode}, b.nodes[i]? = some n →
      ((∃ r ∈ rs, r.toNode = i) ↔ ∃ e ∈ b.edges, e.toNode = n.name) := by
    intro i n hn
    constructor
    · rintro ⟨r, hr, rfl⟩
      obtain ⟨e, he, hres⟩ := exists_pending hresolves hr
      obtain ⟨m, hm, hname⟩ := hres.toNode
      obtain rfl := Option.some.inj (hm.symm.trans hn)
      exact ⟨e, he, hname.symm⟩
    · rintro ⟨e, he, hname⟩
      obtain ⟨r, hr, hres⟩ := exists_resolved hresolves he
      obtain ⟨m, hm, hnamed⟩ := hres.toNode
      exact ⟨r, hr, idx_unique hunique hm hn (hnamed.trans hname)⟩
  have hout := @fan_iff b rs hunique hresolves PendingEdge.fromNode PendingEdge.fromPort
    TopologyEdge.fromNode TopologyEdge.fromPort defaultMaxFanOut (fun _ _ h => h.fromNode)
    (fun _ _ h => h.fromPort)
  have hin := @fan_iff b rs hunique hresolves PendingEdge.toNode PendingEdge.toPort
    TopologyEdge.toNode TopologyEdge.toPort defaultMaxFanIn (fun _ _ h => h.toNode)
    (fun _ _ h => h.toPort)
  constructor
  · intro h
    refine ⟨hunique, hknown, hloop, h.hasSource, h.hasSink, ?_, ?_, ?_, hout.mp h.fanOut,
      hin.mp h.fanIn, (acyclic_iff hunique hresolves).mp h.acyclic, ?_⟩
    · intro n hn hrole e he heq
      obtain ⟨i, hi⟩ := List.mem_iff_getElem?.mp hn
      obtain ⟨r, hr, hri⟩ := (hto hi).mpr ⟨e, he, heq⟩
      exact h.sourceIn i n hi hrole r hr hri
    · intro n hn hrole e he heq
      obtain ⟨i, hi⟩ := List.mem_iff_getElem?.mp hn
      obtain ⟨r, hr, hri⟩ := (hfrom hi).mpr ⟨e, he, heq⟩
      exact h.sinkOut i n hi hrole r hr hri
    · intro n hn hsource hsink
      obtain ⟨i, hi⟩ := List.mem_iff_getElem?.mp hn
      rw [← hto hi, ← hfrom hi]
      exact h.inner i n hi hsource hsink
    · intro n hn
      obtain ⟨i, hi⟩ := List.mem_iff_getElem?.mp hn
      obtain ⟨source, ⟨s, hs, hrole⟩, hpath⟩ := h.reached i (List.getElem?_eq_some_iff.mp hi).1
      exact ⟨s, List.mem_of_getElem? hs, hrole, (reach_iff hunique hresolves hs hi).mp hpath⟩
  · intro h
    refine ⟨h.hasSource, h.hasSink, ?_, ?_, ?_, hout.mpr h.fanOut, hin.mpr h.fanIn,
      (acyclic_iff hunique hresolves).mpr h.acyclic, ?_⟩
    · intro i n hi hrole r hr hri
      obtain ⟨e, he, heq⟩ := (hto hi).mp ⟨r, hr, hri⟩
      exact h.sourceIn n (List.mem_of_getElem? hi) hrole e he heq
    · intro i n hi hrole r hr hri
      obtain ⟨e, he, heq⟩ := (hfrom hi).mp ⟨r, hr, hri⟩
      exact h.sinkOut n (List.mem_of_getElem? hi) hrole e he heq
    · intro i n hi hsource hsink
      rw [hto hi, hfrom hi]
      exact h.inner n (List.mem_of_getElem? hi) hsource hsink
    · intro i hi
      have hget := List.getElem?_eq_getElem hi
      obtain ⟨s, hs, hrole, hpath⟩ := h.reached _ (List.getElem_mem hi)
      obtain ⟨j, hj⟩ := List.mem_iff_getElem?.mp hs
      exact ⟨j, ⟨s, hj, hrole⟩, (reach_iff hunique hresolves hj hget).mpr hpath⟩

end Names

/-! ### The builder -/

/-- What `build` returns when it succeeds. -/
theorem build_eq_ok_iff {order : PortOrder} {t : PipelineTopology} : b.build order = .ok t ↔
    duplicateErrors b.name [] b.nodes = [] ∧ b.resolved.filterMap errorOf = [] ∧
    (validateTopology b.name b.nodes (b.resolved.filterMap Except.toOption) order).1 = [] ∧
    t = ⟨b.name, b.description, b.nodes, b.nodeIndex, b.resolved.filterMap Except.toOption,
      (validateTopology b.name b.nodes (b.resolved.filterMap Except.toOption) order).2⟩ := by
  unfold build
  rw [← and_assoc, ← List.append_eq_nil_iff]
  simp only
  split
  · rename_i hreport
    refine iff_of_false (by intro h; cases h) fun h => hreport h.1
  · rename_i hreport
    rw [not_not] at hreport
    split
    · rename_i herrors
      exact iff_of_false (by intro h; cases h) fun h => herrors h.2.1
    · rename_i herrors
      rw [not_not] at herrors
      constructor
      · intro h
        cases h
        exact ⟨hreport, herrors, rfl⟩
      · rintro ⟨-, -, rfl⟩
        rfl

/-- **The builder accepts exactly the buildable pipelines.** -/
theorem build_ok_iff (h : b.Indexed) (order : PortOrder) :
    (∃ t, b.build order = .ok t) ↔ b.Buildable := by
  have hfirst : (duplicateErrors b.name [] b.nodes = [] ∧ b.resolved.filterMap errorOf = []) ↔
      (b.nodes.map TopologyNode.name).Nodup ∧ (∀ e ∈ b.edges,
        ((∃ n ∈ b.nodes, n.name = e.fromNode) ∧ ∃ n ∈ b.nodes, n.name = e.toNode) ∧
          e.fromNode ≠ e.toNode) := by
    rw [duplicateErrors_eq_nil_iff, resolved_errors_eq_nil_iff h]
    simp
  constructor
  · rintro ⟨t, ht⟩
    obtain ⟨hduplicate, hresolve, hvalid, -⟩ := build_eq_ok_iff.mp ht
    obtain ⟨hunique, hedges⟩ := hfirst.mp ⟨hduplicate, hresolve⟩
    have hresolves : List.Forall₂ b.Resolves b.edges (b.resolved.filterMap Except.toOption) :=
      forall₂_resolved h b.edges 0 hresolve
    refine (sound_iff hunique hresolves (fun e he => (hedges e he).1)
      fun e he => (hedges e he).2).mp ?_
    exact (validateTopology_spec (bounds_of_resolves hresolves) order).1.mp hvalid
  · intro hbuild
    obtain ⟨hduplicate, hresolve⟩ := hfirst.mpr
      ⟨hbuild.unique, fun e he => ⟨hbuild.known e he, hbuild.noLoop e he⟩⟩
    have hresolves : List.Forall₂ b.Resolves b.edges (b.resolved.filterMap Except.toOption) :=
      forall₂_resolved h b.edges 0 hresolve
    have hsound := (sound_iff hbuild.unique hresolves hbuild.known hbuild.noLoop).mpr hbuild
    exact ⟨_, build_eq_ok_iff.mpr ⟨hduplicate, hresolve,
      (validateTopology_spec (bounds_of_resolves hresolves) order).1.mpr hsound, rfl⟩⟩

/-- What a built pipeline satisfies. -/
theorem build_spec (h : b.Indexed) {order : PortOrder} {t : PipelineTopology}
    (ht : b.build order = .ok t) :
    t.nodes = b.nodes ∧ List.Forall₂ b.Resolves b.edges t.edges ∧ Sound t.nodes t.edges ∧
      t.executionOrder = kahnOrder t.nodes t.edges ∧
      t.executionOrder.length = t.nodes.length := by
  obtain ⟨-, hresolve, hvalid, rfl⟩ := build_eq_ok_iff.mp ht
  have hresolves : List.Forall₂ b.Resolves b.edges (b.resolved.filterMap Except.toOption) :=
    forall₂_resolved h b.edges 0 hresolve
  have hspec := @validateTopology_spec b.name _ _ (bounds_of_resolves hresolves) order
  obtain ⟨horder, hlength⟩ := hspec.2 hvalid
  exact ⟨rfl, hresolves, hspec.1.mp hvalid, horder, horder ▸ hlength⟩

end PipelineTopologyBuilder

end Torvyn.Pipeline
