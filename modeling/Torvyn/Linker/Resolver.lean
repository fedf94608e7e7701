/-
# Resolving imports

`resolve_imports` and `check_capability_grants` of `torvyn-linker/src/resolver.rs`.  An import is
resolved to the host when its name contains that of a host interface, and otherwise to the
upstream component that exports it; what finds no provider or too many is reported.  Every loop
here only adds to the report, so an empty report says something of every import
(`resolveImports_sound`, `granted_of_check`).
-/
import Torvyn.Linker.Topology
import Torvyn.Text

namespace Torvyn.Linker

open Torvyn.Graph

/-! ## Host interfaces -/

/-- `HOST_PROVIDED_WASI`. -/
def hostProvidedWasi : List String :=
  ["wasi:io/streams", "wasi:io/poll", "wasi:clocks/monotonic-clock", "wasi:clocks/wall-clock",
    "wasi:random/random", "wasi:random/insecure", "wasi:random/insecure-seed",
    "wasi:filesystem/types", "wasi:filesystem/preopens", "wasi:sockets/tcp", "wasi:sockets/udp",
    "wasi:sockets/ip-name-lookup", "wasi:cli/stdin", "wasi:cli/stdout", "wasi:cli/stderr",
    "wasi:cli/environment"]

/-- `HOST_PROVIDED_TORVYN`. -/
def hostProvidedTorvyn : List String :=
  ["torvyn:resources/buffer-ops", "torvyn:runtime/flow-context", "torvyn:runtime/backpressure",
    "torvyn:capabilities/capability-query"]

/-- `CAPABILITY_GATED_WASI`. -/
def capabilityGatedWasi : List String :=
  ["wasi:filesystem/types", "wasi:filesystem/preopens", "wasi:sockets/tcp", "wasi:sockets/udp",
    "wasi:sockets/ip-name-lookup", "wasi:random/random", "wasi:random/insecure",
    "wasi:random/insecure-seed"]

/-- `WASI_TO_CAPABILITY`. -/
def wasiToCapability : List (String × String) :=
  [("wasi:filesystem/preopens", "wasi-filesystem-read"),
    ("wasi:filesystem/types", "wasi-filesystem-read"),
    ("wasi:sockets/tcp", "wasi-network-egress"), ("wasi:sockets/udp", "wasi-network-egress"),
    ("wasi:sockets/ip-name-lookup", "wasi-network-egress"),
    ("wasi:clocks/wall-clock", "wasi-clocks"), ("wasi:clocks/monotonic-clock", "wasi-clocks"),
    ("wasi:random/random", "wasi-random"), ("wasi:random/insecure", "wasi-random"),
    ("wasi:random/insecure-seed", "wasi-random")]

/-- The name of an import contains that of an interface, or is it. -/
def matchesInterface (importName iface : String) : Bool :=
  contains importName iface || importName == iface

/-- An import matches an interface when its name contains that of the interface. -/
theorem matchesInterface_iff {importName iface : String} :
    matchesInterface importName iface = true ↔ contains importName iface = true := by
  unfold matchesInterface
  rw [Bool.or_eq_true]
  refine or_iff_left_of_imp fun heq => ?_
  obtain rfl := eq_of_beq heq
  exact decide_eq_true (List.infix_refl _)

theorem any_matchesInterface_iff {importName : String} {ifaces : List String} :
    ifaces.any (matchesInterface importName) = true ↔
      ∃ iface ∈ ifaces, contains importName iface = true := by
  rw [List.any_eq_true]
  exact exists_congr fun iface => and_congr_right fun _ => matchesInterface_iff

/-! ## Resolution -/

/-- What an import is resolved to. -/
inductive ImportResolution where
  | streamConnection (provider exportName : String)
  | hostWasi (interfaceName : String) (capabilityGated : Bool)
  | hostTorvyn (interfaceName : String)
  deriving DecidableEq, Repr

/-- The resolution of a component. -/
structure ComponentResolution where
  componentName : String
  resolvedImports : KeyMap String ImportResolution
  unresolved : List String

/-- The upstream components that export an interface, one for each edge. -/
def providersOf (importName : String) (upstreams : List String)
    (componentExports : KeyMap String (List String)) : List String :=
  upstreams.filter fun upstream =>
    (componentExports.lookup upstream).any fun exported => exported.any (· == importName)

/-- `resolve_single_import`, with what it reports. -/
def resolveSingleImport (importName nodeName : String) (upstreamMap : String → List String)
    (componentExports : KeyMap String (List String)) :
    Option ImportResolution × List LinkDiagnostic :=
  if hostProvidedWasi.any (matchesInterface importName) then
    (some (.hostWasi importName (capabilityGatedWasi.any (matchesInterface importName))), [])
  else if hostProvidedTorvyn.any (matchesInterface importName) then
    (some (.hostTorvyn importName), [])
  else
    match providersOf importName (upstreamMap nodeName) componentExports with
    | [] => (none, [])
    | [provider] => (some (.streamConnection provider importName), [])
    | provider :: others =>
        -- the first provider, as a best effort
        (some (.streamConnection provider importName),
          [⟨.ambiguousProvider, s!"Component '{nodeName}' imports '{importName}' but multiple " ++
            "upstream components export it: [" ++ ", ".intercalate (provider :: others) ++ "]. " ++
            "Disambiguate by specifying the provider in the pipeline configuration.",
            some nodeName, none, some importName⟩])

/-- What is reported of an import without a provider. -/
def unresolvedImport (nodeName importName : String) : LinkDiagnostic :=
  ⟨.unresolvedImport, s!"Component '{nodeName}' requires import '{importName}' but no provider " ++
    "was found. Ensure a connected upstream component exports this interface, " ++
    "or verify it is a known WASI/Torvyn host interface.", some nodeName, none, some importName⟩

/-- One turn of the loop over the imports of a component. -/
def resolveImport (upstreamMap : String → List String)
    (componentExports : KeyMap String (List String))
    (s : ComponentResolution × List LinkDiagnostic) (importName : String) :
    ComponentResolution × List LinkDiagnostic :=
  match resolveSingleImport importName s.1.componentName upstreamMap componentExports with
  | (some resolution, reported) =>
      ({ s.1 with resolvedImports := s.1.resolvedImports.insert importName resolution },
        s.2 ++ reported)
  | (none, reported) =>
      ({ s.1 with unresolved := s.1.unresolved ++ [importName] },
        s.2 ++ reported ++ [unresolvedImport s.1.componentName importName])

/-- The body of the loop of `resolve_imports`. A component without an entry has no imports. -/
def resolveComponent (upstreamMap : String → List String)
    (componentImports componentExports : KeyMap String (List String)) (nodeName : String) :
    ComponentResolution × List LinkDiagnostic :=
  ((componentImports.lookup nodeName).getD []).foldl (resolveImport upstreamMap componentExports)
    (⟨nodeName, ∅, []⟩, [])

/-- `resolve_imports`, with what it reports. -/
def resolveImports (t : PipelineTopology) (topoOrder : List String)
    (componentImports componentExports : KeyMap String (List String)) :
    List ComponentResolution × List LinkDiagnostic :=
  let upstreamMap := bucket TopologyEdge.toNode TopologyEdge.fromNode t.edges
  let resolutions := topoOrder.map (resolveComponent upstreamMap componentImports componentExports)
  (resolutions.map Prod.fst, resolutions.flatMap Prod.snd)

/-! ## Capabilities -/

/-- What is reported of a capability that is not granted. -/
def capabilityDenied (nodeName importName capabilityName : String) : LinkDiagnostic :=
  ⟨.capabilityDenied, s!"Component '{nodeName}' imports '{importName}' which requires capability " ++
    s!"'{capabilityName}', but this capability is not granted. " ++
    s!"Add '{capabilityName}' to the component's capability grants in Torvyn.toml.",
    some nodeName, none, some capabilityName⟩

/-- `check_capability_grants`, what it reports. -/
def checkCapabilityGrants (t : PipelineTopology)
    (componentImports : KeyMap String (List String)) : List LinkDiagnostic :=
  t.nodes.entries.flatMap fun entry =>
    let grants := entry.2.capabilityGrants.map CapabilityGrant.name
    ((componentImports.lookup entry.1).getD []).flatMap fun importName =>
      wasiToCapability.flatMap fun (iface, capabilityName) =>
        if contains importName iface ∧ capabilityName ∉ grants then
          [capabilityDenied entry.1 importName capabilityName]
        else []

/-! ## What an empty report says -/

/-- The component is directly upstream of the node and exports the interface. -/
structure Provides (t : PipelineTopology) (componentExports : KeyMap String (List String))
    (nodeName importName provider : String) : Prop where
  upstream : ∃ e ∈ t.edges, e.fromNode = provider ∧ e.toNode = nodeName
  exported : ∃ exported, componentExports.lookup provider = some exported ∧ importName ∈ exported

theorem mem_providersOf {t : PipelineTopology} {componentExports : KeyMap String (List String)}
    {nodeName importName provider : String} :
    provider ∈ providersOf importName
        (bucket TopologyEdge.toNode TopologyEdge.fromNode t.edges nodeName) componentExports ↔
      Provides t componentExports nodeName importName provider := by
  unfold providersOf
  rw [List.mem_filter, mem_bucket]
  constructor
  · rintro ⟨⟨e, he, hto, hfrom⟩, hexports⟩
    obtain ⟨exported, hlookup, hany⟩ := (Option.any_eq_true _ _).mp hexports
    obtain ⟨name, hmem, heq⟩ := List.any_eq_true.mp hany
    obtain rfl := eq_of_beq heq
    exact ⟨⟨e, he, hfrom, hto⟩, exported, hlookup, hmem⟩
  · rintro ⟨⟨e, he, hfrom, hto⟩, exported, hlookup, hmem⟩
    refine ⟨⟨e, he, hto, hfrom⟩, (Option.any_eq_true _ _).mpr ⟨exported, hlookup, ?_⟩⟩
    exact List.any_eq_true.mpr ⟨importName, hmem, beq_self_eq_true _⟩

/-- A resolution that is right about one import. -/
inductive RightlyResolved (t : PipelineTopology)
    (componentExports : KeyMap String (List String)) (nodeName importName : String) :
    ImportResolution → Prop
  | streamConnection {provider : String}
      (hprovides : Provides t componentExports nodeName importName provider)
      (honly : ∀ other, Provides t componentExports nodeName importName other → other = provider) :
      RightlyResolved t componentExports nodeName importName (.streamConnection provider importName)
  | hostWasi (hhost : hostProvidedWasi.any (matchesInterface importName) = true) :
      RightlyResolved t componentExports nodeName importName
        (.hostWasi importName (capabilityGatedWasi.any (matchesInterface importName)))
  | hostTorvyn (hhost : hostProvidedTorvyn.any (matchesInterface importName) = true) :
      RightlyResolved t componentExports nodeName importName (.hostTorvyn importName)

section Sound

variable {t : PipelineTopology} {componentImports componentExports : KeyMap String (List String)}

/-- An import of which nothing is reported. -/
theorem resolveSingleImport_sound {nodeName importName : String} {resolution : ImportResolution}
    (h : resolveSingleImport importName nodeName
      (bucket TopologyEdge.toNode TopologyEdge.fromNode t.edges) componentExports =
        (some resolution, [])) :
    RightlyResolved t componentExports nodeName importName resolution := by
  unfold resolveSingleImport at h
  split at h
  · rename_i hhost
    cases h
    exact .hostWasi hhost
  · split at h
    · rename_i hhost
      cases h
      exact .hostTorvyn hhost
    · split at h
      · cases h
      · rename_i provider hproviders
        cases h
        refine .streamConnection ?_ fun other hother => ?_
        · exact mem_providersOf.mp (hproviders ▸ List.mem_singleton_self provider)
        · exact List.mem_singleton.mp (hproviders ▸ mem_providersOf.mpr hother)
      · cases h

/-- What the loop over the imports of a component keeps, as long as it reports nothing: the
imports it has met are resolved, and rightly. -/
structure Resolved (t : PipelineTopology) (componentExports : KeyMap String (List String))
    (nodeName : String) (met : List String) (resolution : ComponentResolution) : Prop where
  name : resolution.componentName = nodeName
  all : ∀ importName ∈ met, importName ∈ resolution.resolvedImports
  right : ∀ importName resolved, resolution.resolvedImports.lookup importName = some resolved →
    RightlyResolved t componentExports nodeName importName resolved

theorem Resolved.resolveImport {nodeName : String} {met : List String}
    {s : ComponentResolution × List LinkDiagnostic}
    (h : s.2 = [] → Resolved t componentExports nodeName met s.1) (importName : String)
    (hquiet : (resolveImport (bucket TopologyEdge.toNode TopologyEdge.fromNode t.edges)
      componentExports s importName).2 = []) :
    Resolved t componentExports nodeName (met ++ [importName])
      (resolveImport (bucket TopologyEdge.toNode TopologyEdge.fromNode t.edges) componentExports s
        importName).1 := by
  unfold Linker.resolveImport at hquiet ⊢
  split at hquiet
  · rename_i resolution reported hresolution
    obtain ⟨hbefore, rfl⟩ := List.append_eq_nil_iff.mp hquiet
    have hresolved := h hbefore
    rw [hresolved.name] at hresolution
    have hright := resolveSingleImport_sound hresolution
    refine ⟨hresolved.name, fun name hname => ?_, fun name resolved hlookup => ?_⟩
    · rw [AList.mem_insert]
      rcases List.mem_append.mp hname with hold | hnew
      · exact .inr (hresolved.all name hold)
      · exact .inl (List.mem_singleton.mp hnew)
    · by_cases hname : name = importName
      · subst hname
        rw [AList.lookup_insert] at hlookup
        obtain rfl := Option.some.inj hlookup
        exact hright
      · rw [AList.lookup_insert_ne hname] at hlookup
        exact hresolved.right name resolved hlookup
  · cases (List.append_eq_nil_iff.mp hquiet).2

/-- **A component of which nothing is reported.** -/
theorem resolveComponent_sound {nodeName : String}
    (hquiet : (resolveComponent (bucket TopologyEdge.toNode TopologyEdge.fromNode t.edges)
      componentImports componentExports nodeName).2 = []) :
    Resolved t componentExports nodeName ((componentImports.lookup nodeName).getD [])
      (resolveComponent (bucket TopologyEdge.toNode TopologyEdge.fromNode t.edges)
        componentImports componentExports nodeName).1 := by
  -- the report of a shorter run is a part of the report
  have hloop : ∀ imports : List String,
      (imports.foldl (resolveImport (bucket TopologyEdge.toNode TopologyEdge.fromNode t.edges)
        componentExports) (⟨nodeName, ∅, []⟩, [])).2 = [] →
      Resolved t componentExports nodeName imports
        (imports.foldl (resolveImport (bucket TopologyEdge.toNode TopologyEdge.fromNode t.edges)
          componentExports) (⟨nodeName, ∅, []⟩, [])).1 := by
    intro imports
    induction imports using List.reverseRecOn with
    | nil =>
        refine fun _ => ⟨rfl, fun _ hmem => ?_, fun _ _ hlookup => ?_⟩
        · cases hmem
        · cases hlookup
    | append_singleton imports importName ih =>
        intro hnone
        rw [List.foldl_append] at hnone ⊢
        exact Resolved.resolveImport ih importName hnone
  exact hloop _ hquiet

/-- **The whole pipeline.** -/
theorem resolveImports_sound {topoOrder : List String}
    (hquiet : (resolveImports t topoOrder componentImports componentExports).2 = [])
    {nodeName : String} (hnode : nodeName ∈ topoOrder) :
    ∃ resolution, ((resolveImports t topoOrder componentImports componentExports).1.find?
        fun c => c.componentName == nodeName) = some resolution ∧
      Resolved t componentExports nodeName ((componentImports.lookup nodeName).getD [])
        resolution := by
  have hsound : ∀ name ∈ topoOrder, Resolved t componentExports name
      ((componentImports.lookup name).getD [])
      (resolveComponent (bucket TopologyEdge.toNode TopologyEdge.fromNode t.edges)
        componentImports componentExports name).1 := by
    intro name hname
    refine resolveComponent_sound ?_
    exact List.flatMap_eq_nil_iff.mp hquiet _ (List.mem_map_of_mem hname)
  clear hquiet
  induction topoOrder with
  | nil => cases hnode
  | cons name rest ih =>
      have hname := (hsound name List.mem_cons_self).name
      by_cases heq : name = nodeName
      · subst heq
        refine ⟨_, List.find?_cons_of_pos ?_, hsound name List.mem_cons_self⟩
        exact beq_iff_eq.mpr hname
      · obtain ⟨resolution, hfind, hresolved⟩ :=
          ih ((List.mem_cons.mp hnode).resolve_left (Ne.symm heq))
            fun other hother => hsound other (List.mem_cons_of_mem _ hother)
        refine ⟨resolution, ?_, hresolved⟩
        refine (List.find?_cons_of_neg ?_).trans hfind
        exact fun h => heq (hname.symm.trans (beq_iff_eq.mp h))

/-- The import needs the capability. -/
def Needs (importName capabilityName : String) : Prop :=
  ∃ iface, (iface, capabilityName) ∈ wasiToCapability ∧ contains importName iface = true

/-- **The check of the grants**: where it reports nothing, what an import needs is granted. -/
theorem granted_of_check (hquiet : checkCapabilityGrants t componentImports = [])
    {nodeName : String} {node : TopologyNode} (hnode : t.nodes.lookup nodeName = some node)
    {importName : String} (himport : importName ∈ (componentImports.lookup nodeName).getD [])
    {capabilityName : String} (hneeds : Needs importName capabilityName) :
    capabilityName ∈ node.capabilityGrants.map CapabilityGrant.name := by
  obtain ⟨iface, hmem, hcontains⟩ := hneeds
  have hentry := List.flatMap_eq_nil_iff.mp hquiet ⟨nodeName, node⟩ (KeyMap.mem_entries_iff.mpr hnode)
  have himports := List.flatMap_eq_nil_iff.mp hentry importName himport
  have hiface : (if contains importName iface = true ∧
      capabilityName ∉ node.capabilityGrants.map CapabilityGrant.name then
        [capabilityDenied nodeName importName capabilityName] else []) = [] :=
    List.flatMap_eq_nil_iff.mp himports (iface, capabilityName) hmem
  by_contra hno
  rw [if_pos ⟨hcontains, hno⟩] at hiface
  cases hiface

/-- An import that is resolved to a gated interface needs a capability. -/
theorem exists_needs_of_gated {importName : String}
    (h : capabilityGatedWasi.any (matchesInterface importName) = true) :
    ∃ capabilityName, Needs importName capabilityName := by
  obtain ⟨iface, hmem, hcontains⟩ := any_matchesInterface_iff.mp h
  have hlisted : ∃ capabilityName, (iface, capabilityName) ∈ wasiToCapability := by
    have hall : ∀ gated ∈ capabilityGatedWasi,
        ∃ entry ∈ wasiToCapability, entry.1 = gated := by decide
    obtain ⟨⟨gated, capabilityName⟩, hentry, rfl⟩ := hall iface hmem
    exact ⟨capabilityName, hentry⟩
  obtain ⟨capabilityName, hentry⟩ := hlisted
  exact ⟨capabilityName, iface, hentry, hcontains⟩

end Sound

end Torvyn.Linker
