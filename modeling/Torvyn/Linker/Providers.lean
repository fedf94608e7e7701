/-
# Providers of an import

What `resolve_imports` makes of one import among many.  The loops only add to the report, and what
they store for an import depends on nothing but its name: `resolveComponent_spec` reads both off
the single resolutions.

The upstream components of a node are collected edge by edge, so a component that is joined to the
node by several edges is a provider several times over, and is then reported as ambiguous with
itself.  `exactProviders_iff` says which imports are spared.
-/
import Torvyn.Linker.Resolver

namespace Torvyn.Linker

open Torvyn.Graph

/-! ## One import among many -/

section Loop

variable (upstreamMap : String → List String) (componentExports : KeyMap String (List String))
  (nodeName : String)

/-- Everything that is reported of one import. -/
def importReport (importName : String) : List LinkDiagnostic :=
  (resolveSingleImport importName nodeName upstreamMap componentExports).2 ++
    (if (resolveSingleImport importName nodeName upstreamMap componentExports).1 = none then
      [unresolvedImport nodeName importName] else [])

/-- What the loop over the imports has made of those that it has met. -/
structure Traced (met : List String) (s : ComponentResolution × List LinkDiagnostic) : Prop where
  name : s.1.componentName = nodeName
  resolved : ∀ importName, s.1.resolvedImports.lookup importName =
    if importName ∈ met then
      (resolveSingleImport importName nodeName upstreamMap componentExports).1
    else none
  report : s.2 = met.flatMap (importReport upstreamMap componentExports nodeName)

variable {upstreamMap componentExports nodeName}

theorem Traced.resolveImport {met : List String} {s : ComponentResolution × List LinkDiagnostic}
    (h : Traced upstreamMap componentExports nodeName met s) (importName : String) :
    Traced upstreamMap componentExports nodeName (met ++ [importName])
      (resolveImport upstreamMap componentExports s importName) := by
  have hmem : ∀ name, name ∈ met ++ [importName] ↔ name ∈ met ∨ name = importName := by
    intro name
    rw [List.mem_append, List.mem_singleton]
  have hreport : (met ++ [importName]).flatMap
      (importReport upstreamMap componentExports nodeName) =
        s.2 ++ importReport upstreamMap componentExports nodeName importName := by
    rw [List.flatMap_append, ← h.report, List.flatMap_singleton]
  unfold Linker.resolveImport
  rw [h.name]
  split
  · rename_i resolution reported hsingle
    refine ⟨h.name, fun name => ?_, ?_⟩
    · by_cases hname : name = importName
      · subst hname
        rw [AList.lookup_insert, if_pos ((hmem name).mpr (.inr rfl)), hsingle]
      · rw [AList.lookup_insert_ne hname, h.resolved name]
        simp only [hmem, hname, or_false]
    · rw [hreport, importReport, hsingle, if_neg (Option.some_ne_none resolution),
        List.append_nil]
  · rename_i reported hsingle
    refine ⟨h.name, fun name => ?_, ?_⟩
    · rw [h.resolved name]
      by_cases hname : name = importName
      · -- an import without a provider is stored nowhere
        subst hname
        rw [if_pos ((hmem name).mpr (.inr rfl)), hsingle]
        split <;> rfl
      · simp only [hmem, hname, or_false]
    · rw [hreport, importReport, hsingle, if_pos rfl, List.append_assoc]

/-- **A component's imports are resolved one by one**, whatever is imported beside them. -/
theorem resolveComponent_spec (componentImports : KeyMap String (List String)) :
    Traced upstreamMap componentExports nodeName ((componentImports.lookup nodeName).getD [])
      (resolveComponent upstreamMap componentImports componentExports nodeName) := by
  unfold resolveComponent
  generalize (componentImports.lookup nodeName).getD [] = imports
  induction imports using List.reverseRecOn with
  | nil => exact ⟨rfl, fun _ => rfl, rfl⟩
  | append_singleton imports importName ih =>
    rw [List.foldl_append]
    exact ih.resolveImport importName

end Loop

/-- `upstream_map`: the nodes that an edge joins to a node, one for each edge. -/
def PipelineTopology.upstreamMap (t : PipelineTopology) : String → List String :=
  bucket TopologyEdge.toNode TopologyEdge.fromNode t.edges

section Pipeline

variable {t : PipelineTopology} {topoOrder : List String}
  {componentImports componentExports : KeyMap String (List String)} {nodeName importName : String}

/-- What is reported is reported of some import of some component. -/
theorem mem_resolveImports_report {d : LinkDiagnostic} :
    d ∈ (resolveImports t topoOrder componentImports componentExports).2 ↔
      ∃ node ∈ topoOrder, ∃ name ∈ (componentImports.lookup node).getD [],
        d ∈ importReport t.upstreamMap componentExports node name := by
  unfold resolveImports
  rw [List.mem_flatMap]
  constructor
  · rintro ⟨result, hresult, hd⟩
    obtain ⟨node, hnode, rfl⟩ := List.mem_map.mp hresult
    rw [(resolveComponent_spec componentImports).report] at hd
    exact ⟨node, hnode, List.mem_flatMap.mp hd⟩
  · rintro ⟨node, hnode, hd⟩
    refine ⟨_, List.mem_map_of_mem hnode, ?_⟩
    rw [(resolveComponent_spec componentImports).report]
    exact List.mem_flatMap.mpr hd

/-- A component's resolution holds that of each of its imports. -/
theorem lookup_resolveImports {resolution : ComponentResolution}
    (hresolution : resolution ∈ (resolveImports t topoOrder componentImports componentExports).1)
    (hname : resolution.componentName = nodeName)
    (himport : importName ∈ (componentImports.lookup nodeName).getD []) :
    resolution.resolvedImports.lookup importName =
      (resolveSingleImport importName nodeName t.upstreamMap componentExports).1 := by
  obtain ⟨result, hresult, rfl⟩ := List.mem_map.mp hresolution
  obtain ⟨node, -, rfl⟩ := List.mem_map.mp hresult
  have hspec := @resolveComponent_spec t.upstreamMap componentExports node componentImports
  obtain rfl : node = nodeName := hspec.name.symm.trans hname
  exact (hspec.resolved importName).trans (if_pos himport)

/-- Every component of the order gets its resolution. -/
theorem exists_resolution (hnode : nodeName ∈ topoOrder) :
    ∃ resolution ∈ (resolveImports t topoOrder componentImports componentExports).1,
      resolution.componentName = nodeName :=
  ⟨_, List.mem_map_of_mem (List.mem_map_of_mem hnode),
    (resolveComponent_spec componentImports).name⟩

end Pipeline

/-! ## Several providers -/

/-- The host claims the import. -/
def HostProvided (importName : String) : Prop :=
  hostProvidedWasi.any (matchesInterface importName) = true ∨
    hostProvidedTorvyn.any (matchesInterface importName) = true

instance : DecidablePred HostProvided := fun _ => inferInstanceAs (Decidable (_ ∨ _))

/-- Two components provide the interface. -/
def TwoProviders (t : PipelineTopology) (componentExports : KeyMap String (List String))
    (nodeName importName : String) : Prop :=
  ∃ provider other, provider ≠ other ∧ Provides t componentExports nodeName importName provider ∧
    Provides t componentExports nodeName importName other

/-- The component is the one that provides the interface. -/
structure OnlyProvider (t : PipelineTopology) (componentExports : KeyMap String (List String))
    (nodeName importName provider : String) : Prop where
  provides : Provides t componentExports nodeName importName provider
  only : ∀ other, Provides t componentExports nodeName importName other → other = provider

/-- The report calls the providers of the import ambiguous. -/
def ReportsAmbiguity (report : List LinkDiagnostic) (nodeName importName : String) : Prop :=
  ∃ d ∈ report, d.category = .ambiguousProvider ∧ d.component = some nodeName ∧
    d.interfaceName = some importName

/-- The number of edges from one node to another. -/
def PipelineTopology.edgeCount (t : PipelineTopology) (u v : String) : ℕ :=
  t.edges.countP fun e => e.fromNode = u ∧ e.toNode = v

/-- A list with two entries or more has two different ones or one that is there twice. -/
theorem two_le_length_iff {α : Type*} [DecidableEq α] {l : List α} :
    2 ≤ l.length ↔ (∃ a ∈ l, ∃ b ∈ l, a ≠ b) ∨ ∃ a, 2 ≤ l.count a := by
  constructor
  · intro hlength
    cases l with
    | nil => cases hlength
    | cons a rest =>
      by_cases hsame : ∀ b ∈ a :: rest, a = b
      · exact .inr ⟨a, (List.count_eq_length.mpr hsame).symm ▸ hlength⟩
      · push Not at hsame
        obtain ⟨b, hb, hne⟩ := hsame
        exact .inl ⟨a, List.mem_cons_self, b, hb, hne⟩
  · rintro (⟨a, ha, b, hb, hne⟩ | ⟨a, hcount⟩)
    · by_contra hshort
      obtain ⟨c, hc⟩ := List.length_eq_one_iff.mp
        (Nat.le_antisymm (by omega) (List.length_pos_of_mem ha) : l.length = 1)
      rw [hc, List.mem_singleton] at ha hb
      exact hne (ha.trans hb.symm)
    · exact hcount.trans List.count_le_length

section Ambiguity

variable {t : PipelineTopology} {topoOrder : List String}
  {componentImports componentExports : KeyMap String (List String)}
  {nodeName importName provider : String}

/-- A provider is collected once for each edge. -/
theorem count_providersOf
    (hprovides : Provides t componentExports nodeName importName provider) :
    (providersOf importName (t.upstreamMap nodeName) componentExports).count provider =
      t.edgeCount provider nodeName := by
  have hexports : (componentExports.lookup provider).any
      (fun exported => exported.any (· == importName)) = true :=
    (List.mem_filter.mp (mem_providersOf.mpr hprovides)).2
  unfold providersOf PipelineTopology.upstreamMap
  refine (List.count_filter (p := fun upstream => (componentExports.lookup upstream).any
    fun exported => exported.any (· == importName)) hexports).trans ?_
  rw [bucket_apply, List.count, List.countP_map, List.countP_filter]
  unfold PipelineTopology.edgeCount
  refine List.countP_congr fun e _ => ?_
  simp only [Function.comp_apply, beq_iff_eq, Bool.and_eq_true, decide_eq_true_eq]

/-- What is reported of an import says which import, and of which component. -/
theorem importReport_names {d : LinkDiagnostic}
    (hd : d ∈ importReport t.upstreamMap componentExports nodeName importName) :
    d.component = some nodeName ∧ d.interfaceName = some importName := by
  unfold importReport at hd
  rcases List.mem_append.mp hd with hd | hd
  · unfold resolveSingleImport at hd
    split at hd
    · cases hd
    · split at hd
      · cases hd
      · split at hd
        · cases hd
        · cases hd
        · obtain rfl := List.mem_singleton.mp hd
          exact ⟨rfl, rfl⟩
  · split at hd
    · obtain rfl := List.mem_singleton.mp hd
      exact ⟨rfl, rfl⟩
    · cases hd

/-- The whole report calls an import ambiguous when its own report does. -/
theorem reportsAmbiguity_iff (hnode : nodeName ∈ topoOrder)
    (himport : importName ∈ (componentImports.lookup nodeName).getD []) :
    ReportsAmbiguity (resolveImports t topoOrder componentImports componentExports).2 nodeName
        importName ↔
      ∃ d ∈ importReport t.upstreamMap componentExports nodeName importName,
        d.category = .ambiguousProvider := by
  constructor
  · rintro ⟨d, hd, hcategory, hcomponent, hinterface⟩
    obtain ⟨node, -, name, -, hd⟩ := mem_resolveImports_report.mp hd
    obtain ⟨hcomponent', hinterface'⟩ := importReport_names hd
    obtain rfl := Option.some.inj (hcomponent'.symm.trans hcomponent)
    obtain rfl := Option.some.inj (hinterface'.symm.trans hinterface)
    exact ⟨d, hd, hcategory⟩
  · rintro ⟨d, hd, hcategory⟩
    obtain ⟨hcomponent, hinterface⟩ := importReport_names hd
    exact ⟨d, mem_resolveImports_report.mpr ⟨nodeName, hnode, importName, himport, hd⟩, hcategory,
      hcomponent, hinterface⟩

/-- What the host claims is resolved to the host, without a report. -/
theorem resolveSingleImport_host (hhost : HostProvided importName)
    (upstreamMap : String → List String) :
    (resolveSingleImport importName nodeName upstreamMap componentExports).2 = [] ∧
      ∀ provider exportName,
        (resolveSingleImport importName nodeName upstreamMap componentExports).1 ≠
          some (.streamConnection provider exportName) := by
  unfold resolveSingleImport
  split
  · exact ⟨rfl, fun _ _ h => by cases h⟩
  · rename_i hwasi
    rw [if_pos (hhost.resolve_left hwasi)]
    exact ⟨rfl, fun _ _ h => by cases h⟩

/-- **What the host does not claim goes to its providers**: the first one that is collected, and a
second one, be it the same, makes the import ambiguous. -/
theorem resolveSingleImport_providers (hhost : ¬ HostProvided importName)
    (upstreamMap : String → List String) :
    (resolveSingleImport importName nodeName upstreamMap componentExports).1 =
        (providersOf importName (upstreamMap nodeName) componentExports).head?.map
          (ImportResolution.streamConnection · importName) ∧
      ((∃ d ∈ (resolveSingleImport importName nodeName upstreamMap componentExports).2,
          d.category = .ambiguousProvider) ↔
        2 ≤ (providersOf importName (upstreamMap nodeName) componentExports).length) := by
  unfold HostProvided at hhost
  rw [not_or] at hhost
  unfold resolveSingleImport
  rw [if_neg hhost.1, if_neg hhost.2]
  split
  · rename_i hproviders
    rw [hproviders]
    refine ⟨rfl, iff_of_false ?_ (by decide)⟩
    rintro ⟨d, hd, -⟩
    cases hd
  · rename_i provider hproviders
    rw [hproviders]
    refine ⟨rfl, iff_of_false ?_ (by simp)⟩
    rintro ⟨d, hd, -⟩
    cases hd
  · rename_i provider others hne hproviders
    rw [hproviders]
    refine ⟨rfl, iff_of_true ⟨_, List.mem_singleton_self _, rfl⟩ ?_⟩
    -- a single provider is the case before
    cases others with
    | nil => exact (hne rfl).elim
    | cons other rest =>
      rw [List.length_cons, List.length_cons]
      omega

/-- **When an import is ambiguous**: two components provide it, or one by several edges. -/
theorem two_le_providersOf_iff :
    2 ≤ (providersOf importName (t.upstreamMap nodeName) componentExports).length ↔
      TwoProviders t componentExports nodeName importName ∨
        ∃ provider, Provides t componentExports nodeName importName provider ∧
          2 ≤ t.edgeCount provider nodeName := by
  rw [two_le_length_iff]
  refine or_congr ?_ ?_
  · constructor
    · rintro ⟨provider, hprovider, other, hother, hne⟩
      exact ⟨provider, other, hne, mem_providersOf.mp hprovider, mem_providersOf.mp hother⟩
    · rintro ⟨provider, other, hne, hprovider, hother⟩
      exact ⟨provider, mem_providersOf.mpr hprovider, other, mem_providersOf.mpr hother, hne⟩
  · refine exists_congr fun provider => ?_
    constructor
    · intro hcount
      have hprovides : Provides t componentExports nodeName importName provider :=
        mem_providersOf.mp (List.count_pos_iff.mp (Nat.lt_of_lt_of_le Nat.zero_lt_two hcount))
      rw [count_providersOf hprovides] at hcount
      exact ⟨hprovides, hcount⟩
    · rintro ⟨hprovides, hcount⟩
      rw [count_providersOf hprovides]
      exact hcount

end Ambiguity

/-! ## When ambiguity is reported exactly -/

/-- Ambiguity is reported when two components provide the interface, and a component that is the
only one is what the import is resolved to. -/
structure ExactProviders (t : PipelineTopology) (topoOrder : List String)
    (componentImports componentExports : KeyMap String (List String))
    (nodeName importName : String) : Prop where
  ambiguous : ReportsAmbiguity (resolveImports t topoOrder componentImports componentExports).2
    nodeName importName ↔ TwoProviders t componentExports nodeName importName
  resolved : ∀ provider, OnlyProvider t componentExports nodeName importName provider →
    ∀ resolution ∈ (resolveImports t topoOrder componentImports componentExports).1,
      resolution.componentName = nodeName → resolution.resolvedImports.lookup importName =
        some (.streamConnection provider importName)

section Exact

variable {t : PipelineTopology} {topoOrder : List String}
  {componentImports componentExports : KeyMap String (List String)} {nodeName importName : String}

/-- An import's own report adds nothing about ambiguity to that of its resolution. -/
theorem importReport_ambiguous_iff :
    (∃ d ∈ importReport t.upstreamMap componentExports nodeName importName,
        d.category = .ambiguousProvider) ↔
      ∃ d ∈ (resolveSingleImport importName nodeName t.upstreamMap componentExports).2,
        d.category = .ambiguousProvider := by
  constructor
  · rintro ⟨d, hd, hcategory⟩
    rcases List.mem_append.mp hd with hd | hd
    · exact ⟨d, hd, hcategory⟩
    · split at hd
      · obtain rfl := List.mem_singleton.mp hd
        cases hcategory
      · cases hd
  · rintro ⟨d, hd, hcategory⟩
    exact ⟨d, List.mem_append_left _ hd, hcategory⟩

/-- A component that provides the interface is the only one, or there are two. -/
theorem onlyProvider_or_twoProviders {provider : String}
    (h : Provides t componentExports nodeName importName provider) :
    OnlyProvider t componentExports nodeName importName provider ∨
      TwoProviders t componentExports nodeName importName := by
  by_cases honly : ∀ other, Provides t componentExports nodeName importName other →
      other = provider
  · exact .inl ⟨h, honly⟩
  · push Not at honly
    obtain ⟨other, hother, hne⟩ := honly
    exact .inr ⟨other, provider, hne, hother, h⟩

theorem OnlyProvider.not_twoProviders {provider : String}
    (h : OnlyProvider t componentExports nodeName importName provider) :
    ¬ TwoProviders t componentExports nodeName importName := by
  rintro ⟨first, second, hne, hfirst, hsecond⟩
  exact hne ((h.only first hfirst).trans (h.only second hsecond).symm)

/-- **Which imports get exact answers**: one that the host claims must have no provider, and of
another an only provider must be joined to the importer by a single edge. -/
theorem exactProviders_iff (t : PipelineTopology) (topoOrder : List String)
    (componentImports componentExports : KeyMap String (List String))
    (nodeName importName : String) (hnode : nodeName ∈ topoOrder)
    (himport : importName ∈ (componentImports.lookup nodeName).getD []) :
    ExactProviders t topoOrder componentImports componentExports nodeName importName ↔
      (HostProvided importName →
        ∀ provider, ¬ Provides t componentExports nodeName importName provider) ∧
      (¬ HostProvided importName →
        ∀ provider, OnlyProvider t componentExports nodeName importName provider →
          t.edgeCount provider nodeName = 1) := by
  have hreports : ReportsAmbiguity
      (resolveImports t topoOrder componentImports componentExports).2 nodeName importName ↔ _ :=
    (reportsAmbiguity_iff hnode himport).trans importReport_ambiguous_iff
  by_cases hhost : HostProvided importName
  · obtain ⟨hquiet, hnever⟩ := @resolveSingleImport_host componentExports nodeName importName hhost
      t.upstreamMap
    have hnone : ¬ ReportsAmbiguity
        (resolveImports t topoOrder componentImports componentExports).2 nodeName importName := by
      rw [hreports, hquiet]
      rintro ⟨d, hd, -⟩
      cases hd
    constructor
    · refine fun h => ⟨fun _ provider hprovides => ?_, fun hnot => absurd hhost hnot⟩
      rcases onlyProvider_or_twoProviders hprovides with honly | htwo
      · obtain ⟨resolution, hresolution, hname⟩ := exists_resolution hnode
        have hlookup := h.resolved provider honly resolution hresolution hname
        rw [lookup_resolveImports hresolution hname himport] at hlookup
        exact hnever provider importName hlookup
      · exact hnone (h.ambiguous.mpr htwo)
    · intro h
      refine ⟨iff_of_false hnone ?_, fun provider honly => ?_⟩
      · rintro ⟨provider, _, -, hprovides, -⟩
        exact h.1 hhost provider hprovides
      · exact absurd honly.provides (h.1 hhost provider)
  · obtain ⟨hfirst, hambiguous⟩ := @resolveSingleImport_providers componentExports nodeName
      importName hhost t.upstreamMap
    rw [hambiguous, two_le_providersOf_iff] at hreports
    constructor
    · refine fun h => ⟨fun hhost' => absurd hhost' hhost, fun _ provider honly => ?_⟩
      have hquiet : ¬ 2 ≤ t.edgeCount provider nodeName := fun hcount =>
        honly.not_twoProviders (h.ambiguous.mp (hreports.mpr (.inr ⟨provider, honly.provides,
          hcount⟩)))
      have hpos : 0 < t.edgeCount provider nodeName := by
        rw [← count_providersOf honly.provides]
        exact List.count_pos_iff.mpr (mem_providersOf.mpr honly.provides)
      omega
    · intro h
      refine ⟨hreports.trans ⟨fun hmany => ?_, .inl⟩, ?_⟩
      · rcases hmany with htwo | ⟨provider, hprovides, hcount⟩
        · exact htwo
        · rcases onlyProvider_or_twoProviders hprovides with honly | htwo
          · have hone := h.2 hhost provider honly
            omega
          · exact htwo
      · intro provider honly resolution hresolution hname
        rw [lookup_resolveImports hresolution hname himport, hfirst]
        have hmem : provider ∈ providersOf importName (t.upstreamMap nodeName) componentExports :=
          mem_providersOf.mpr honly.provides
        cases hproviders : providersOf importName (t.upstreamMap nodeName) componentExports with
        | nil =>
          rw [hproviders] at hmem
          cases hmem
        | cons first rest =>
          have hsame : first = provider :=
            honly.only first (mem_providersOf.mp (hproviders ▸ List.mem_cons_self))
          rw [List.head?_cons, Option.map_some, hsame]

end Exact

/-- A source with two ports, both joined to one sink. -/
def stereo : PipelineTopology :=
  (((((PipelineTopology.new "stereo").addNode ⟨"mic", .source, "", none, []⟩).addNode
    ⟨"mixer", .sink, "", none, []⟩).addEdge ⟨"mic", "left", "mixer", "left", 64, .blockProducer⟩)
      |>.addEdge ⟨"mic", "right", "mixer", "right", 64, .blockProducer⟩)

/-- The interface that the source exports and the sink imports. -/
def stereoInterfaces (nodeName : String) : KeyMap String (List String) :=
  (∅ : KeyMap String (List String)).insert nodeName ["acme:audio/samples"]

/-- **A component is ambiguous with itself**: it is joined to the importer by two edges. -/
theorem two_edges_ambiguous : stereo.validate.isOk = true ∧
    ¬ ExactProviders stereo ["mic", "mixer"] (stereoInterfaces "mixer") (stereoInterfaces "mic")
      "mixer" "acme:audio/samples" := by
  refine ⟨by decide, fun h => ?_⟩
  have hreported : ReportsAmbiguity (resolveImports stereo ["mic", "mixer"]
      (stereoInterfaces "mixer") (stereoInterfaces "mic")).2 "mixer" "acme:audio/samples" :=
    ⟨⟨.ambiguousProvider, _, some "mixer", none, some "acme:audio/samples"⟩,
      List.mem_singleton.mpr rfl, rfl, rfl, rfl⟩
  obtain ⟨provider, other, hne, hprovider, hother⟩ := h.ambiguous.mp hreported
  have honly : ∀ name, Provides stereo (stereoInterfaces "mic") "mixer" "acme:audio/samples" name →
      name = "mic" := by
    rintro name ⟨⟨e, he, rfl, -⟩, -⟩
    have hall : ∀ e ∈ stereo.edges, e.fromNode = "mic" := by decide
    exact hall e he
  exact hne ((honly provider hprovider).trans (honly other hother).symm)

theorem two_edges_exactProviders_iff :
    ExactProviders stereo ["mic", "mixer"] (stereoInterfaces "mixer") (stereoInterfaces "mic")
        "mixer" "acme:audio/samples" ↔
      (HostProvided "acme:audio/samples" → ∀ provider,
        ¬ Provides stereo (stereoInterfaces "mic") "mixer" "acme:audio/samples" provider) ∧
      (¬ HostProvided "acme:audio/samples" → ∀ provider,
        OnlyProvider stereo (stereoInterfaces "mic") "mixer" "acme:audio/samples" provider →
          stereo.edgeCount provider "mixer" = 1) :=
  exactProviders_iff stereo ["mic", "mixer"] (stereoInterfaces "mixer") (stereoInterfaces "mic")
    "mixer" "acme:audio/samples" (by decide) (by decide)

end Torvyn.Linker
