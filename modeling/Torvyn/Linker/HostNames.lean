/-
# Names of host interfaces

The tables of `torvyn-linker/src/resolver.rs` list interfaces without their versions, and are
searched for a name that the import's contains.  An interface of another package can contain such
a name too, and is then taken from its provider (`exactHost_iff`).

Two of the tables say which interfaces are gated: that of the flag of a resolved import, and that
of the check of the grants.  They differ in the clocks (`flag_agrees_iff`).
-/
import Torvyn.Linker.Providers

namespace Torvyn.Linker

/-! ## Names that contain a name -/

theorem contains_append (s t : String) : contains (s ++ t) s = true := by
  refine decide_eq_true ?_
  rw [String.toList_append]
  exact (List.prefix_append _ _).isInfix

/-- The host claims the imports whose names contain that of a host interface. -/
theorem hostProvided_iff {importName : String} :
    HostProvided importName ↔
      ∃ iface ∈ hostProvidedWasi ++ hostProvidedTorvyn, contains importName iface = true := by
  unfold HostProvided
  rw [any_matchesInterface_iff, any_matchesInterface_iff]
  constructor
  · rintro (⟨iface, hmem, hcontains⟩ | ⟨iface, hmem, hcontains⟩)
    · exact ⟨iface, List.mem_append_left _ hmem, hcontains⟩
    · exact ⟨iface, List.mem_append_right _ hmem, hcontains⟩
  · rintro ⟨iface, hmem, hcontains⟩
    exact (List.mem_append.mp hmem).imp (fun h => ⟨iface, h, hcontains⟩)
      fun h => ⟨iface, h, hcontains⟩

/-! ## Imports that the host provides -/

/-- The import names a host interface, perhaps with a version. -/
def Listed (importName : String) : Prop :=
  ∃ iface ∈ hostProvidedWasi ++ hostProvidedTorvyn,
    importName = iface ∨ ∃ version, importName = iface ++ "@" ++ version

/-- The host provides the import. -/
def ImportResolution.isHost : ImportResolution → Bool
  | .streamConnection _ _ => false
  | .hostWasi _ _ => true
  | .hostTorvyn _ => true

/-- The import went to the components that provide it. -/
structure ThroughProviders (t : PipelineTopology)
    (componentExports : KeyMap String (List String)) (nodeName importName : String)
    (result : Option ImportResolution × List LinkDiagnostic) : Prop where
  unresolved : result.1 = none ↔
    ∀ provider, ¬ Provides t componentExports nodeName importName provider
  connected : ∀ resolution, result.1 = some resolution →
    ∃ provider, Provides t componentExports nodeName importName provider ∧
      resolution = .streamConnection provider importName
  ambiguous : TwoProviders t componentExports nodeName importName →
    ∃ d ∈ result.2, d.category = .ambiguousProvider

/-- The host provides the interfaces that it lists, and no others. -/
structure ExactHost (t : PipelineTopology) (componentExports : KeyMap String (List String))
    (nodeName importName : String) : Prop where
  host : (resolveSingleImport importName nodeName t.upstreamMap componentExports).1.any
    ImportResolution.isHost = true ↔ Listed importName
  others : ¬ Listed importName → ThroughProviders t componentExports nodeName importName
    (resolveSingleImport importName nodeName t.upstreamMap componentExports)

theorem Listed.hostProvided {importName : String} (h : Listed importName) :
    HostProvided importName := by
  obtain ⟨iface, hmem, rfl | ⟨version, rfl⟩⟩ := h
  · exact hostProvided_iff.mpr ⟨importName, hmem, decide_eq_true (List.infix_refl _)⟩
  · refine hostProvided_iff.mpr ⟨iface, hmem, ?_⟩
    rw [String.append_assoc]
    exact contains_append iface _

section Host

variable {t : PipelineTopology} {componentExports : KeyMap String (List String)}
  {nodeName importName : String}

/-- The host provides what it claims. -/
theorem isHost_iff : (resolveSingleImport importName nodeName t.upstreamMap componentExports).1.any
    ImportResolution.isHost = true ↔ HostProvided importName := by
  by_cases hhost : HostProvided importName
  · refine iff_of_true ?_ hhost
    unfold resolveSingleImport
    split
    · rfl
    · rename_i hwasi
      rw [if_pos (hhost.resolve_left hwasi)]
      rfl
  · refine iff_of_false ?_ hhost
    rw [(resolveSingleImport_providers hhost t.upstreamMap).1]
    cases (providersOf importName (t.upstreamMap nodeName) componentExports).head? with
    | none => exact Bool.false_ne_true
    | some provider => exact Bool.false_ne_true

/-- What the host does not claim goes to its providers. -/
theorem throughProviders (hhost : ¬ HostProvided importName) :
    ThroughProviders t componentExports nodeName importName
      (resolveSingleImport importName nodeName t.upstreamMap componentExports) := by
  obtain ⟨hfirst, hambiguous⟩ :=
    @resolveSingleImport_providers componentExports nodeName importName hhost t.upstreamMap
  refine ⟨?_, fun resolution hresolution => ?_, fun htwo => ?_⟩
  · rw [hfirst, Option.map_eq_none_iff, List.head?_eq_none_iff, List.eq_nil_iff_forall_not_mem]
    exact forall_congr' fun provider => not_congr mem_providersOf
  · rw [hfirst] at hresolution
    obtain ⟨provider, hprovider, rfl⟩ := Option.map_eq_some_iff.mp hresolution
    exact ⟨provider, mem_providersOf.mp (List.mem_of_mem_head? hprovider), rfl⟩
  · exact hambiguous.mpr (two_le_providersOf_iff.mpr (.inl htwo))

end Host

/-- **Which names are classified exactly**: those that contain no name of a host interface, and the
listed ones. -/
theorem exactHost_iff (t : PipelineTopology) (componentExports : KeyMap String (List String))
    (nodeName importName : String) :
    ExactHost t componentExports nodeName importName ↔
      ((∃ iface ∈ hostProvidedWasi ++ hostProvidedTorvyn, contains importName iface = true) →
        Listed importName) := by
  rw [← hostProvided_iff]
  constructor
  · exact fun h hhost => h.host.mp (isHost_iff.mpr hhost)
  · intro h
    refine ⟨isHost_iff.trans ⟨h, Listed.hostProvided⟩, fun hnot => ?_⟩
    exact throughProviders fun hhost => hnot (h hhost)

/-- A source and a sink. -/
def duct : PipelineTopology :=
  ((PipelineTopology.new "duct").addNode ⟨"feed", .source, "", none, []⟩).addNode
    ⟨"drain", .sink, "", none, []⟩ |>.addEdge ⟨"feed", "out", "drain", "in", 64, .blockProducer⟩

/-- **The host shadows a component**: the source exports an interface of the package
`acme-wasi:io`, and the sink's import of it is resolved to the host. -/
theorem host_shadows_component : duct.validate.isOk = true ∧
    Provides duct ((∅ : KeyMap String (List String)).insert "feed" ["acme-wasi:io/streams"]) "drain"
      "acme-wasi:io/streams" "feed" ∧
    ¬ ExactHost duct ((∅ : KeyMap String (List String)).insert "feed" ["acme-wasi:io/streams"])
      "drain" "acme-wasi:io/streams" := by
  refine ⟨by decide, ⟨⟨_, List.mem_singleton_self _, rfl, rfl⟩, ["acme-wasi:io/streams"], rfl,
    List.mem_singleton_self _⟩, fun h => ?_⟩
  have hhost : HostProvided "acme-wasi:io/streams" :=
    hostProvided_iff.mpr ⟨"wasi:io/streams", by decide, by decide⟩
  obtain ⟨iface, hmem, hname⟩ := h.host.mp (isHost_iff.mpr hhost)
  have hprefix : startsWith "acme-wasi:io/streams" iface = true := by
    refine List.isPrefixOf_iff_prefix.mpr ?_
    rcases hname with heq | ⟨version, heq⟩
    · rw [heq]
    · rw [heq, String.append_assoc, String.toList_append]
      exact List.prefix_append _ _
  have hnone : ∀ iface ∈ hostProvidedWasi ++ hostProvidedTorvyn,
      startsWith "acme-wasi:io/streams" iface = false := by decide
  rw [hnone iface hmem] at hprefix
  cases hprefix

/-! ## The flag and the check -/

/-- The interfaces of the clocks, which need a capability and are not listed as gated. -/
def clockInterfaces : List String := ["wasi:clocks/wall-clock", "wasi:clocks/monotonic-clock"]

/-- The component is recorded to import the interface from the host, behind a gate. -/
def FlagRecorded (resolutions : List ComponentResolution) (nodeName importName : String) : Prop :=
  ∃ resolution ∈ resolutions, resolution.componentName = nodeName ∧
    ∃ iface, resolution.resolvedImports.lookup importName = some (.hostWasi iface true)

/-- The check of the grants denies the import of the component. -/
def Denied (report : List LinkDiagnostic) (nodeName importName : String) : Prop :=
  ∃ capabilityName, capabilityDenied nodeName importName capabilityName ∈ report

/-- A denial says which import of which component is denied, and for want of what. -/
theorem capabilityDenied_inj {node node' name name' capability capability' : String}
    (h : capabilityDenied node name capability = capabilityDenied node' name' capability') :
    node = node' ∧ name = name' ∧ capability = capability' := by
  unfold capabilityDenied at h
  obtain ⟨-, hmessage, hcomponent, -, hcapability⟩ := LinkDiagnostic.mk.inj h
  obtain rfl := Option.some.inj hcomponent
  obtain rfl := Option.some.inj hcapability
  refine ⟨rfl, ?_, rfl⟩
  simpa [toString, String.append_assoc] using hmessage

section Gate

variable {t : PipelineTopology} {topoOrder : List String}
  {componentImports componentExports : KeyMap String (List String)} {nodeName importName : String}

/-- **The flag** is set when the name contains that of a gated interface. -/
theorem flagRecorded_iff (hnode : nodeName ∈ topoOrder)
    (himport : importName ∈ (componentImports.lookup nodeName).getD []) :
    FlagRecorded (resolveImports t topoOrder componentImports componentExports).1 nodeName
        importName ↔
      ∃ gated ∈ capabilityGatedWasi, contains importName gated = true := by
  have hflag : (∃ iface, (resolveSingleImport importName nodeName t.upstreamMap
      componentExports).1 = some (.hostWasi iface true)) ↔
        ∃ gated ∈ capabilityGatedWasi, contains importName gated = true := by
    rw [← any_matchesInterface_iff]
    by_cases hwasi : hostProvidedWasi.any (matchesInterface importName) = true
    · unfold resolveSingleImport
      rw [if_pos hwasi]
      generalize capabilityGatedWasi.any (matchesInterface importName) = gated
      cases gated <;> simp
    · -- the gated interfaces are among those of the host
      refine iff_of_false ?_ fun hgated => ?_
      · rintro ⟨iface, hresult⟩
        unfold resolveSingleImport at hresult
        rw [if_neg hwasi] at hresult
        split at hresult
        · cases hresult
        · split at hresult <;> cases hresult
      · obtain ⟨gated, hmem, hcontains⟩ := any_matchesInterface_iff.mp hgated
        have hsubset : ∀ iface ∈ capabilityGatedWasi, iface ∈ hostProvidedWasi := by decide
        exact hwasi (any_matchesInterface_iff.mpr ⟨gated, hsubset gated hmem, hcontains⟩)
  rw [← hflag]
  constructor
  · rintro ⟨resolution, hresolution, hname, iface, hlookup⟩
    rw [lookup_resolveImports hresolution hname himport] at hlookup
    exact ⟨iface, hlookup⟩
  · rintro ⟨iface, hresult⟩
    obtain ⟨resolution, hresolution, hname⟩ := exists_resolution hnode
    refine ⟨resolution, hresolution, hname, iface, ?_⟩
    rw [lookup_resolveImports hresolution hname himport]
    exact hresult

/-- **The check** denies a component without grants the imports that need a capability. -/
theorem denied_iff {node : TopologyNode} (hnode : t.nodes.lookup nodeName = some node)
    (hgrants : node.capabilityGrants = [])
    (himport : importName ∈ (componentImports.lookup nodeName).getD []) :
    Denied (checkCapabilityGrants t componentImports) nodeName importName ↔
      ∃ capabilityName, Needs importName capabilityName := by
  constructor
  · rintro ⟨capabilityName, hdenied⟩
    unfold checkCapabilityGrants at hdenied
    obtain ⟨⟨node', _⟩, -, hdenied⟩ := List.mem_flatMap.mp hdenied
    obtain ⟨name', -, hdenied⟩ := List.mem_flatMap.mp hdenied
    obtain ⟨⟨iface, capability'⟩, hlisted, hdenied⟩ := List.mem_flatMap.mp hdenied
    simp only at hdenied
    split at hdenied
    · rename_i hcontains
      obtain ⟨-, rfl, rfl⟩ := capabilityDenied_inj (List.mem_singleton.mp hdenied)
      exact ⟨capabilityName, iface, hlisted, hcontains.1⟩
    · cases hdenied
  · rintro ⟨capabilityName, iface, hlisted, hcontains⟩
    refine ⟨capabilityName, ?_⟩
    unfold checkCapabilityGrants
    refine List.mem_flatMap.mpr ⟨⟨nodeName, node⟩, KeyMap.mem_entries_iff.mpr hnode, ?_⟩
    refine List.mem_flatMap.mpr ⟨importName, himport, ?_⟩
    refine List.mem_flatMap.mpr ⟨(iface, capabilityName), hlisted, ?_⟩
    have hnone : capabilityName ∉ node.capabilityGrants.map CapabilityGrant.name := by
      rw [hgrants]
      exact List.not_mem_nil
    simp only [if_pos (And.intro hcontains hnone), List.mem_singleton]

/-- What needs a capability is gated, or one of the clocks. -/
theorem exists_needs_iff : (∃ capabilityName, Needs importName capabilityName) ↔
    ∃ iface ∈ capabilityGatedWasi ++ clockInterfaces, contains importName iface = true := by
  have hlisted : ∀ entry ∈ wasiToCapability, entry.1 ∈ capabilityGatedWasi ++ clockInterfaces := by
    decide
  have hcovered : ∀ iface ∈ capabilityGatedWasi ++ clockInterfaces,
      iface ∈ wasiToCapability.map Prod.fst := by decide
  constructor
  · rintro ⟨capabilityName, iface, hentry, hcontains⟩
    exact ⟨iface, hlisted _ hentry, hcontains⟩
  · rintro ⟨iface, hmem, hcontains⟩
    obtain ⟨⟨_, capabilityName⟩, hentry, rfl⟩ := List.mem_map.mp (hcovered iface hmem)
    exact ⟨capabilityName, _, hentry, hcontains⟩

end Gate

/-- **Where the flag and the check agree**: on the names that contain no name of a clock, or that of
a gated interface beside it. -/
theorem flag_agrees_iff (t : PipelineTopology) (topoOrder : List String)
    (componentImports componentExports : KeyMap String (List String))
    (nodeName importName : String) (node : TopologyNode) (horder : nodeName ∈ topoOrder)
    (hnode : t.nodes.lookup nodeName = some node) (hgrants : node.capabilityGrants = [])
    (himport : importName ∈ (componentImports.lookup nodeName).getD []) :
    (FlagRecorded (resolveImports t topoOrder componentImports componentExports).1 nodeName
        importName ↔ Denied (checkCapabilityGrants t componentImports) nodeName importName) ↔
      ((∃ clock ∈ clockInterfaces, contains importName clock = true) →
        ∃ gated ∈ capabilityGatedWasi, contains importName gated = true) := by
  rw [flagRecorded_iff horder himport, denied_iff hnode hgrants himport, exists_needs_iff]
  constructor
  · rintro hagree ⟨clock, hclock, hcontains⟩
    exact hagree.mpr ⟨clock, List.mem_append_right _ hclock, hcontains⟩
  · intro hgated
    refine ⟨fun ⟨gated, hmem, hcontains⟩ => ⟨gated, List.mem_append_left _ hmem, hcontains⟩, ?_⟩
    rintro ⟨iface, hmem, hcontains⟩
    rcases List.mem_append.mp hmem with hgate | hclock
    · exact ⟨iface, hgate, hcontains⟩
    · exact hgated ⟨iface, hclock, hcontains⟩

/-- The sink imports a clock. -/
def clockImports : KeyMap String (List String) :=
  (∅ : KeyMap String (List String)).insert "drain" ["wasi:clocks/wall-clock@0.2.0"]

theorem flag_agrees_clock :
    (FlagRecorded (resolveImports duct ["feed", "drain"] clockImports ∅).1 "drain"
        "wasi:clocks/wall-clock@0.2.0" ↔
      Denied (checkCapabilityGrants duct clockImports) "drain" "wasi:clocks/wall-clock@0.2.0") ↔
      ((∃ clock ∈ clockInterfaces, contains "wasi:clocks/wall-clock@0.2.0" clock = true) →
        ∃ gated ∈ capabilityGatedWasi, contains "wasi:clocks/wall-clock@0.2.0" gated = true) :=
  flag_agrees_iff duct ["feed", "drain"] clockImports ∅ "drain" "wasi:clocks/wall-clock@0.2.0"
    ⟨"drain", .sink, "", none, []⟩ (by decide) rfl rfl (by decide)

/-- **The clocks are checked, but not flagged.** -/
theorem clock_not_flagged :
    ¬ (FlagRecorded (resolveImports duct ["feed", "drain"] clockImports ∅).1 "drain"
        "wasi:clocks/wall-clock@0.2.0" ↔
      Denied (checkCapabilityGrants duct clockImports) "drain" "wasi:clocks/wall-clock@0.2.0") := by
  have horder : "drain" ∈ ["feed", "drain"] := by decide
  have himport : "wasi:clocks/wall-clock@0.2.0" ∈ (clockImports.lookup "drain").getD [] := by decide
  rw [flagRecorded_iff horder himport,
    @denied_iff duct clockImports "drain" _ ⟨"drain", .sink, "", none, []⟩ rfl rfl himport,
    exists_needs_iff]
  decide

end Torvyn.Linker
