/-
# Linking a pipeline

`PipelineLinker` of `torvyn-linker/src/linker.rs`: the topology is validated and ordered, the
imports are resolved, the grants are checked, and every stream gets an id from a counter that
the linker keeps for its whole life.  `link_sound` says what a pipeline that has been linked
satisfies, whatever the linker has linked before.
-/
import Torvyn.Linker.Resolver

namespace Torvyn.Linker

/-! ## Linked pipelines -/

/-- A component with its resolved imports. -/
structure LinkedComponent where
  name : String
  role : ComponentRole
  artifactPath : String
  resolvedImports : KeyMap String ImportResolution
  capabilityGrants : List CapabilityGrant
  config : Option String

/-- A stream between two components. -/
structure LinkedConnection where
  streamId : StreamId
  fromComponent : String
  fromPort : String
  toComponent : String
  toPort : String
  queueDepth : UInt32
  backpressurePolicy : BackpressurePolicy

/-- A pipeline that can be instantiated. -/
structure LinkedPipeline where
  name : String
  components : List LinkedComponent
  connections : List LinkedConnection
  topologicalOrder : List String

/-! ## The linker -/

/-- The linker: the id of the next stream. -/
structure PipelineLinker where
  nextStreamId : ℕ

/-- What is linked: a topology, the imports and exports of its components, and the order in which
the map of the in-degrees is iterated. -/
structure LinkInput where
  topology : PipelineTopology
  componentImports : KeyMap String (List String)
  componentExports : KeyMap String (List String)
  iteration : List String
  perm : iteration.Perm topology.nodes.keys

namespace PipelineLinker

/-- `PipelineLinker::new`. -/
def new : PipelineLinker := ⟨0⟩

/-- `alloc_stream_id`. -/
def allocStreamId (linker : PipelineLinker) : StreamId × PipelineLinker :=
  (⟨linker.nextStreamId⟩, ⟨linker.nextStreamId + 1⟩)

/-- The connections of a linked pipeline. -/
def connect (linker : PipelineLinker) :
    List TopologyEdge → List LinkedConnection × PipelineLinker
  | [] => ([], linker)
  | edge :: edges =>
      let (streamId, linker) := linker.allocStreamId
      let (connections, linker) := linker.connect edges
      (⟨streamId, edge.fromNode, edge.fromPort, edge.toNode, edge.toPort, edge.queueDepth,
        edge.backpressurePolicy⟩ :: connections, linker)

/-- A component of a linked pipeline.  `none` where the source panics: for a name that is no
node. -/
def linkComponent (topology : PipelineTopology) (resolution : List ComponentResolution)
    (name : String) : Option LinkedComponent :=
  (topology.nodes.lookup name).map fun node =>
    { name := name
      role := node.role
      artifactPath := node.artifactPath
      resolvedImports := ((resolution.find? fun c => c.componentName == name).map
        ComponentResolution.resolvedImports).getD ∅
      capabilityGrants := node.capabilityGrants
      config := node.config }

/-- `build_linked_pipeline`. -/
def buildLinkedPipeline (linker : PipelineLinker) (topology : PipelineTopology)
    (topoOrder : List String) (resolution : List ComponentResolution) :
    Option (LinkedPipeline × PipelineLinker) :=
  (topoOrder.mapM (linkComponent topology resolution)).map fun components =>
    let (connections, linker) := linker.connect topology.edges
    (⟨topology.name, components, connections, topoOrder⟩, linker)

/-- What is reported when no topological order is found. -/
def noOrder (message : String) : LinkReport :=
  ⟨[PipelineTopology.componentError .cyclicDependency none message], []⟩

/-- `link`.  An error is `LinkFailed` with its report. -/
def link (linker : PipelineLinker) (input : LinkInput) :
    Option (Except LinkReport LinkedPipeline × PipelineLinker) :=
  let topology := input.topology
  if topology.validate.isOk then
    match topology.topologicalOrder input.iteration with
    | none => some (.error (noOrder "Failed to compute topological order (cycle exists)."), linker)
    | some topoOrder =>
        let (resolution, resolveErrors) :=
          resolveImports topology topoOrder input.componentImports input.componentExports
        let report : LinkReport :=
          ⟨resolveErrors ++ checkCapabilityGrants topology input.componentImports, []⟩
        if report.isOk then
          (linker.buildLinkedPipeline topology topoOrder resolution).map fun (linked, linker) =>
            (.ok linked, linker)
        else some (.error report, linker)
  else some (.error topology.validate, linker)

/-- `link_topology_only`: nothing is imported or exported. -/
def linkTopologyOnly (linker : PipelineLinker) (input : LinkInput) :
    Option (Except LinkReport LinkedPipeline × PipelineLinker) :=
  let topology := input.topology
  if topology.validate.isOk then
    match topology.topologicalOrder input.iteration with
    | none => some (.error (noOrder "Failed to compute topological order."), linker)
    | some topoOrder =>
        (linker.buildLinkedPipeline topology topoOrder
          (resolveImports topology topoOrder ∅ ∅).1).map fun (linked, linker) =>
            (.ok linked, linker)
  else some (.error topology.validate, linker)

end PipelineLinker

/-! ## What a linked pipeline satisfies -/

/-- The imports of a component. -/
def LinkInput.importsOf (input : LinkInput) (name : String) : List String :=
  (input.componentImports.lookup name).getD []

open PipelineTopology in
/-- A pipeline that has been linked soundly. -/
structure SoundLink (input : LinkInput) (linked : LinkedPipeline) : Prop where
  /-- the components are the nodes, in topological order -/
  components : linked.components.map LinkedComponent.name = linked.topologicalOrder
  order : linked.topologicalOrder.Perm input.topology.nodes.keys
  /-- every import of every component is resolved -/
  resolved : ∀ component ∈ linked.components, ∀ importName ∈ input.importsOf component.name,
    importName ∈ component.resolvedImports
  /-- a stream comes from the only component upstream that exports the interface, and that
  precedes the importer -/
  provided : ∀ component ∈ linked.components, ∀ importName provider exportName,
    component.resolvedImports.lookup importName = some (.streamConnection provider exportName) →
      exportName = importName ∧
      Provides input.topology input.componentExports component.name importName provider ∧
      (∀ other, Provides input.topology input.componentExports component.name importName other →
        other = provider) ∧
      Precedes linked.topologicalOrder provider component.name
  /-- what an import needs is granted -/
  granted : ∀ component ∈ linked.components, ∃ node,
    input.topology.nodes.lookup component.name = some node ∧
      component.capabilityGrants = node.capabilityGrants ∧
      ∀ importName ∈ input.importsOf component.name, ∀ capabilityName,
        Needs importName capabilityName →
          capabilityName ∈ node.capabilityGrants.map CapabilityGrant.name
  /-- an import that is resolved to a gated interface needs something -/
  gated : ∀ component ∈ linked.components, ∀ importName interfaceName,
    component.resolvedImports.lookup importName = some (.hostWasi interfaceName true) →
      ∃ capabilityName, Needs importName capabilityName

namespace PipelineLinker

/-! ## The parts of a link -/

/-- The components of a pipeline all of whose names are nodes. -/
theorem mapM_linkComponent {topology : PipelineTopology} {resolution : List ComponentResolution}
    {topoOrder : List String} (hnodes : ∀ name ∈ topoOrder, name ∈ topology.nodes) :
    ∃ components, topoOrder.mapM (linkComponent topology resolution) = some components ∧
      components.map LinkedComponent.name = topoOrder ∧
      ∀ component ∈ components, linkComponent topology resolution component.name = some component := by
  induction topoOrder with
  | nil => exact ⟨[], rfl, rfl, fun _ hmem => absurd hmem List.not_mem_nil⟩
  | cons name rest ih =>
      obtain ⟨components, hrest, hnames, hlinked⟩ :=
        ih fun other hother => hnodes other (List.mem_cons_of_mem _ hother)
      obtain ⟨node, hnode⟩ := KeyMap.mem_iff_exists.mp (hnodes name List.mem_cons_self)
      obtain ⟨component, hcomponent⟩ : ∃ component,
          linkComponent topology resolution name = some component := by
        unfold linkComponent
        rw [hnode]
        exact ⟨_, rfl⟩
      have hname : component.name = name := by
        unfold linkComponent at hcomponent
        rw [hnode] at hcomponent
        obtain rfl := Option.some.inj hcomponent
        rfl
      refine ⟨component :: components, ?_, ?_, fun other hother => ?_⟩
      · rw [List.mapM_cons, hcomponent, hrest]
        rfl
      · rw [List.map_cons, hname, hnames]
      · rcases List.mem_cons.mp hother with rfl | hother
        · rw [hname]
          exact hcomponent
        · exact hlinked other hother

/-- The ids of the streams of a pipeline. -/
def streamIds (connections : List LinkedConnection) : List ℕ :=
  connections.map fun connection => connection.streamId.id

/-- The ids that are assigned are the next ones. -/
theorem streamIds_connect (linker : PipelineLinker) (edges : List TopologyEdge) :
    streamIds (linker.connect edges).1 = List.range' linker.nextStreamId edges.length ∧
      (linker.connect edges).2.nextStreamId = linker.nextStreamId + edges.length := by
  induction edges generalizing linker with
  | nil => exact ⟨rfl, rfl⟩
  | cons edge edges ih =>
      obtain ⟨hids, hnext⟩ := ih ⟨linker.nextStreamId + 1⟩
      constructor
      · show linker.nextStreamId :: streamIds (connect ⟨linker.nextStreamId + 1⟩ edges).1 = _
        rw [hids]
        rfl
      · show (connect ⟨linker.nextStreamId + 1⟩ edges).2.nextStreamId = _
        rw [hnext, List.length_cons]
        exact Nat.add_right_comm _ _ _

/-- A pipeline is built from nodes. -/
theorem build_spec (linker : PipelineLinker) {topology : PipelineTopology}
    {resolution : List ComponentResolution} {topoOrder : List String}
    (hnodes : ∀ name ∈ topoOrder, name ∈ topology.nodes) :
    ∃ linked linker', linker.buildLinkedPipeline topology topoOrder resolution =
        some (linked, linker') ∧
      linked.topologicalOrder = topoOrder ∧
      linked.components.map LinkedComponent.name = topoOrder ∧
      (∀ component ∈ linked.components,
        linkComponent topology resolution component.name = some component) ∧
      streamIds linked.connections = List.range' linker.nextStreamId topology.edges.length ∧
      linker'.nextStreamId = linker.nextStreamId + topology.edges.length := by
  obtain ⟨components, hcomponents, hnames, hlinked⟩ :=
    @mapM_linkComponent topology resolution topoOrder hnodes
  obtain ⟨hids, hnext⟩ := linker.streamIds_connect topology.edges
  refine ⟨⟨topology.name, components, (linker.connect topology.edges).1, topoOrder⟩,
    (linker.connect topology.edges).2, ?_, rfl, hnames, hlinked, hids, hnext⟩
  unfold buildLinkedPipeline
  rw [hcomponents]
  rfl

/-! ## One call -/

/-- The ids that a call has assigned. -/
def idsOf : Except LinkReport LinkedPipeline → List ℕ
  | .ok linked => streamIds linked.connections
  | .error _ => []

/-- A call assigns the next ids. -/
def Assigns (linker : PipelineLinker) (result : Except LinkReport LinkedPipeline)
    (linker' : PipelineLinker) : Prop :=
  ∃ n, idsOf result = List.range' linker.nextStreamId n ∧
    linker'.nextStreamId = linker.nextStreamId + n

theorem assigns_error (linker : PipelineLinker) (report : LinkReport) :
    linker.Assigns (.error report) linker := ⟨0, rfl, rfl⟩

/-- What is known of an accepted topology and of its order. -/
theorem order_spec {input : LinkInput} {topoOrder : List String}
    (hvalid : input.topology.validate.isOk = true)
    (horder : input.topology.topologicalOrder input.iteration = some topoOrder) :
    topoOrder.Perm input.topology.nodes.keys ∧
      (∀ e ∈ input.topology.edges, PipelineTopology.Precedes topoOrder e.fromNode e.toNode) ∧
      ∀ name ∈ topoOrder, name ∈ input.topology.nodes := by
  obtain ⟨hperm, hforward⟩ := PipelineTopology.topologicalOrder_spec
    (fun e he => PipelineTopology.endpoints_of_validate hvalid he) input.perm horder
  exact ⟨hperm, hforward, fun name hname => AList.mem_keys.mpr (hperm.mem_iff.mp hname)⟩

/-- A pipeline that is built from an order and a resolution of which nothing is reported. -/
theorem soundLink_of_build {input : LinkInput} {topoOrder : List String} {linked : LinkedPipeline}
    (hvalid : input.topology.validate.isOk = true)
    (horder : input.topology.topologicalOrder input.iteration = some topoOrder)
    (hresolve : (resolveImports input.topology topoOrder input.componentImports
      input.componentExports).2 = [])
    (hgrants : checkCapabilityGrants input.topology input.componentImports = [])
    (hlinkedOrder : linked.topologicalOrder = topoOrder)
    (hnames : linked.components.map LinkedComponent.name = topoOrder)
    (hlinked : ∀ component ∈ linked.components, linkComponent input.topology
      (resolveImports input.topology topoOrder input.componentImports input.componentExports).1
      component.name = some component) : SoundLink input linked := by
  obtain ⟨hperm, hforward, -⟩ := order_spec hvalid horder
  -- a linked component has its node and what has been resolved for it
  have hcomponent : ∀ component ∈ linked.components, ∃ node resolution,
      input.topology.nodes.lookup component.name = some node ∧
      component.capabilityGrants = node.capabilityGrants ∧
      component.resolvedImports = resolution.resolvedImports ∧
      Resolved input.topology input.componentExports component.name
        (input.importsOf component.name) resolution := by
    intro component hmem
    have hin : component.name ∈ topoOrder := hnames ▸ List.mem_map_of_mem hmem
    obtain ⟨resolution, hfind, hresolved⟩ := resolveImports_sound hresolve hin
    have hlink := hlinked component hmem
    unfold linkComponent at hlink
    obtain ⟨node, hnode, heq⟩ := Option.map_eq_some_iff.mp hlink
    rw [hfind] at heq
    refine ⟨node, resolution, hnode, ?_, ?_, hresolved⟩ <;> rw [← heq]
    rfl
  refine ⟨hnames.trans hlinkedOrder.symm, hlinkedOrder ▸ hperm, ?_, ?_, ?_, ?_⟩
  · intro component hmem importName himport
    obtain ⟨node, resolution, -, -, himports, hresolved⟩ := hcomponent component hmem
    rw [himports]
    exact hresolved.all importName himport
  · intro component hmem importName provider exportName hlookup
    obtain ⟨node, resolution, -, -, himports, hresolved⟩ := hcomponent component hmem
    rw [himports] at hlookup
    cases hresolved.right importName _ hlookup with
    | streamConnection hprovides honly =>
        obtain ⟨e, he, hfrom, hto⟩ := hprovides.upstream
        refine ⟨rfl, hprovides, honly, ?_⟩
        rw [hlinkedOrder, ← hfrom, ← hto]
        exact hforward e he
  · intro component hmem
    obtain ⟨node, resolution, hnode, hsame, -, -⟩ := hcomponent component hmem
    exact ⟨node, hnode, hsame, fun importName himport capabilityName hneeds =>
      granted_of_check hgrants hnode himport hneeds⟩
  · intro component hmem importName interfaceName hlookup
    obtain ⟨node, resolution, -, -, himports, hresolved⟩ := hcomponent component hmem
    rw [himports] at hlookup
    generalize hgated : true = gated at hlookup
    cases hresolved.right importName _ hlookup with
    | hostWasi => exact exists_needs_of_gated hgated.symm

/-- **One call of `link`** returns, and what it returns is sound. -/
theorem link_spec (linker : PipelineLinker) (input : LinkInput) :
    ∃ result linker', linker.link input = some (result, linker') ∧
      linker.Assigns result linker' ∧ ∀ linked, result = .ok linked → SoundLink input linked := by
  unfold link
  by_cases hvalid : input.topology.validate.isOk = true
  · simp only [hvalid, if_true]
    cases horder : input.topology.topologicalOrder input.iteration with
    | none => exact ⟨_, _, rfl, assigns_error _ _, fun _ h => by cases h⟩
    | some topoOrder =>
        simp only
        split
        · rename_i hok
          obtain ⟨hresolve, hgrants⟩ := List.append_eq_nil_iff.mp (List.isEmpty_iff.mp hok)
          obtain ⟨-, -, hnodes⟩ := order_spec hvalid horder
          obtain ⟨linked, linker', hbuild, hlinkedOrder, hnames, hlinked, hids, hnext⟩ :=
            @build_spec linker _ (resolveImports input.topology topoOrder input.componentImports
              input.componentExports).1 _ hnodes
          refine ⟨.ok linked, linker', by rw [hbuild]; rfl, ⟨_, hids, hnext⟩, ?_⟩
          rintro linked' heq
          obtain rfl := Except.ok.inj heq
          exact soundLink_of_build hvalid horder hresolve hgrants hlinkedOrder hnames hlinked
        · exact ⟨_, _, rfl, assigns_error _ _, fun _ h => by cases h⟩
  · simp only [hvalid, Bool.false_eq_true, if_false]
    exact ⟨_, _, rfl, assigns_error _ _, fun _ h => by cases h⟩

/-- One call of `link_topology_only` returns. -/
theorem linkTopologyOnly_spec (linker : PipelineLinker) (input : LinkInput) :
    ∃ result linker', linker.linkTopologyOnly input = some (result, linker') ∧
      linker.Assigns result linker' := by
  unfold linkTopologyOnly
  by_cases hvalid : input.topology.validate.isOk = true
  · simp only [hvalid, if_true]
    cases horder : input.topology.topologicalOrder input.iteration with
    | none => exact ⟨_, _, rfl, assigns_error _ _⟩
    | some topoOrder =>
        obtain ⟨-, -, hnodes⟩ := order_spec hvalid horder
        obtain ⟨linked, linker', hbuild, -, -, -, hids, hnext⟩ :=
          @build_spec linker _ (resolveImports input.topology topoOrder ∅ ∅).1 _ hnodes
        exact ⟨.ok linked, linker', by simp only [hbuild]; rfl, _, hids, hnext⟩
  · simp only [hvalid, Bool.false_eq_true, if_false]
    exact ⟨_, _, rfl, assigns_error _ _⟩

/-! ## The life of a linker -/

/-- A call of the linker. -/
inductive LinkCall where
  | link (input : LinkInput)
  | linkTopologyOnly (input : LinkInput)

/-- One call. -/
def call (linker : PipelineLinker) :
    LinkCall → Option (Except LinkReport LinkedPipeline × PipelineLinker)
  | .link input => linker.link input
  | .linkTopologyOnly input => linker.linkTopologyOnly input

/-- What a sequence of calls returns, up to a panic. -/
def serve : PipelineLinker → List LinkCall → List (LinkCall × Except LinkReport LinkedPipeline)
  | _, [] => []
  | linker, request :: requests =>
      match linker.call request with
      | some (result, linker) => (request, result) :: linker.serve requests
      | none => []

/-- One call, of either kind. -/
theorem call_spec (linker : PipelineLinker) (request : LinkCall) :
    ∃ result linker', linker.call request = some (result, linker') ∧
      linker.Assigns result linker' ∧
      ∀ input linked, request = .link input → result = .ok linked → SoundLink input linked := by
  cases request with
  | link input =>
      obtain ⟨result, linker', hlink, hassigns, hsound⟩ := linker.link_spec input
      refine ⟨result, linker', hlink, hassigns, fun input' linked hrequest hresult => ?_⟩
      cases hrequest
      exact hsound linked hresult
  | linkTopologyOnly input =>
      obtain ⟨result, linker', hlink, hassigns⟩ := linker.linkTopologyOnly_spec input
      exact ⟨result, linker', hlink, hassigns, fun _ _ hrequest => by cases hrequest⟩

/-- The ids of a linker's life are counted up. -/
theorem ids_serve (linker : PipelineLinker) (requests : List LinkCall) :
    ∃ n, (linker.serve requests).flatMap (fun answer => idsOf answer.2) =
      List.range' linker.nextStreamId n := by
  induction requests generalizing linker with
  | nil => exact ⟨0, rfl⟩
  | cons request requests ih =>
      obtain ⟨result, linker', hcall, ⟨k, hids, hnext⟩, -⟩ := linker.call_spec request
      obtain ⟨n, hrest⟩ := ih linker'
      refine ⟨k + n, ?_⟩
      unfold serve
      rw [hcall]
      show idsOf result ++ (linker'.serve requests).flatMap (fun answer => idsOf answer.2) = _
      rw [hids, hrest, hnext]
      simp

/-- Every call is answered, and soundly. -/
theorem sound_serve (linker : PipelineLinker) (requests : List LinkCall) :
    (linker.serve requests).map Prod.fst = requests ∧
      ∀ input linked, (LinkCall.link input, .ok linked) ∈ linker.serve requests →
        SoundLink input linked := by
  induction requests generalizing linker with
  | nil => exact ⟨rfl, fun _ _ hmem => absurd hmem List.not_mem_nil⟩
  | cons request requests ih =>
      obtain ⟨result, linker', hcall, -, hsound⟩ := linker.call_spec request
      obtain ⟨hrequests, hrest⟩ := ih linker'
      unfold serve
      rw [hcall]
      refine ⟨congrArg (request :: ·) hrequests, fun input linked hmem => ?_⟩
      rcases List.mem_cons.mp hmem with heq | hmem
      · obtain ⟨hrequest, hresult⟩ := Prod.mk.inj heq
        exact hsound input linked hrequest.symm hresult.symm
      · exact hrest input linked hmem

end PipelineLinker

open PipelineLinker

/-- **Link success is sound**: whatever calls a linker answers in its life, a pipeline that
`link` returns has all its imports resolved, each stream from the only exporter upstream and in
topological order, and all needed capabilities granted; no two streams share an id. -/
theorem link_sound (requests : List LinkCall) :
    (PipelineLinker.new.serve requests).map Prod.fst = requests ∧
      (∀ input linked, (LinkCall.link input, .ok linked) ∈ PipelineLinker.new.serve requests →
        SoundLink input linked) ∧
      ((PipelineLinker.new.serve requests).flatMap fun answer => idsOf answer.2).Nodup := by
  obtain ⟨hrequests, hsound⟩ := PipelineLinker.new.sound_serve requests
  obtain ⟨n, hids⟩ := PipelineLinker.new.ids_serve requests
  refine ⟨hrequests, hsound, ?_⟩
  rw [hids]
  exact List.nodup_range'

end Torvyn.Linker
