/-
# Which pipelines link

`link_sound` says what a linked pipeline satisfies; here is the other direction.  `link` fails only
for a reason: the topology, an import that nobody or more than one edge brings, or a capability
that is not granted.  Neither what the linker has linked before nor the order in which a map is
iterated decides anything.
-/
import Torvyn.Linker.Link
import Torvyn.Linker.Providers

namespace Torvyn.Linker

/-- An import can be resolved: the host provides it, or one edge from one component brings it. -/
def Resolvable (input : LinkInput) (nodeName importName : String) : Prop :=
  HostProvided importName ∨ ∃ provider,
    OnlyProvider input.topology input.componentExports nodeName importName provider ∧
      input.topology.edgeCount provider nodeName = 1

/-- What a pipeline must satisfy to be linked. -/
structure Complete (input : LinkInput) : Prop where
  topology : input.topology.Linkable
  imports : ∀ name ∈ input.topology.nodes, ∀ importName ∈ input.importsOf name,
    Resolvable input name importName
  grants : ∀ name node, input.topology.nodes.lookup name = some node →
    ∀ importName ∈ input.importsOf name, ∀ capabilityName, Needs importName capabilityName →
      capabilityName ∈ node.capabilityGrants.map CapabilityGrant.name

section Reports

variable {t : PipelineTopology} {componentImports componentExports : KeyMap String (List String)}
  {nodeName importName : String}

/-- A list with one entry, by what it holds. -/
theorem length_providersOf_eq_one_iff :
    (providersOf importName (t.upstreamMap nodeName) componentExports).length = 1 ↔
      ∃ provider, OnlyProvider t componentExports nodeName importName provider ∧
        t.edgeCount provider nodeName = 1 := by
  constructor
  · intro hlength
    obtain ⟨provider, hproviders⟩ := List.length_eq_one_iff.mp hlength
    have hmem : ∀ other, Provides t componentExports nodeName importName other ↔
        other = provider := fun other => by
      have h := @mem_providersOf t componentExports nodeName importName other
      rw [← h]
      show other ∈ providersOf importName (t.upstreamMap nodeName) componentExports ↔ _
      rw [hproviders, List.mem_singleton]
    have hprovides := (hmem provider).mpr rfl
    refine ⟨provider, ⟨hprovides, fun other hother => (hmem other).mp hother⟩, ?_⟩
    rw [← count_providersOf hprovides, hproviders, List.count_singleton_self]
  · rintro ⟨provider, ⟨hprovides, honly⟩, hcount⟩
    rw [← count_providersOf hprovides] at hcount
    rw [← hcount]
    refine (List.count_eq_length.mpr fun other hother => ?_).symm
    exact (honly other (mem_providersOf.mp hother)).symm

/-- Nothing is reported of an import that the host provides, or that has one provider. -/
theorem importReport_eq_nil_iff :
    importReport t.upstreamMap componentExports nodeName importName = [] ↔
      HostProvided importName ∨
        (providersOf importName (t.upstreamMap nodeName) componentExports).length = 1 := by
  unfold importReport resolveSingleImport HostProvided
  by_cases hwasi : hostProvidedWasi.any (matchesInterface importName) = true
  · simp [hwasi]
  · by_cases htorvyn : hostProvidedTorvyn.any (matchesInterface importName) = true
    · simp [hwasi, htorvyn]
    · simp only [hwasi, htorvyn, if_false, false_or, Bool.false_eq_true]
      rcases providersOf importName (t.upstreamMap nodeName) componentExports with
        _ | ⟨provider, _ | ⟨other, rest⟩⟩
      · simp
      · simp
      · simp

/-- The check of the grants reports nothing when what an import needs is granted. -/
theorem checkCapabilityGrants_eq_nil_iff : checkCapabilityGrants t componentImports = [] ↔
    ∀ name node, t.nodes.lookup name = some node →
      ∀ importName ∈ (componentImports.lookup name).getD [], ∀ capabilityName,
        Needs importName capabilityName →
          capabilityName ∈ node.capabilityGrants.map CapabilityGrant.name := by
  constructor
  · intro hquiet name node hnode importName himport capabilityName hneeds
    exact granted_of_check hquiet hnode himport hneeds
  · intro hgranted
    refine List.flatMap_eq_nil_iff.mpr fun entry hentry => ?_
    refine List.flatMap_eq_nil_iff.mpr fun importName himport => ?_
    refine List.flatMap_eq_nil_iff.mpr fun listed hlisted => ?_
    refine if_neg fun hdenied => hdenied.2 ?_
    exact hgranted entry.1 entry.2 (KeyMap.mem_entries_iff.mp hentry) importName himport listed.2
      ⟨listed.1, hlisted, hdenied.1⟩

end Reports

/-- The reports on the imports are empty when all of them can be resolved. -/
theorem resolveImports_quiet_iff {input : LinkInput} {topoOrder : List String}
    (hperm : topoOrder.Perm input.topology.nodes.keys) :
    (resolveImports input.topology topoOrder input.componentImports input.componentExports).2 = [] ↔
      ∀ name ∈ input.topology.nodes, ∀ importName ∈ input.importsOf name,
        Resolvable input name importName := by
  have hnodes : ∀ name, name ∈ topoOrder ↔ name ∈ input.topology.nodes := fun name => by
    rw [hperm.mem_iff, AList.mem_keys]
  rw [List.eq_nil_iff_forall_not_mem]
  constructor
  · intro hquiet name hname importName himport
    have hreport := importReport_eq_nil_iff.mp (List.eq_nil_iff_forall_not_mem.mpr fun d hd =>
      hquiet d (mem_resolveImports_report.mpr ⟨name, (hnodes name).mpr hname, importName,
        himport, hd⟩))
    rw [length_providersOf_eq_one_iff] at hreport
    exact hreport
  · intro hresolvable d hd
    obtain ⟨name, hname, importName, himport, hd⟩ := mem_resolveImports_report.mp hd
    have h := hresolvable name ((hnodes name).mp hname) importName himport
    rw [Resolvable, ← length_providersOf_eq_one_iff] at h
    rw [importReport_eq_nil_iff.mpr h] at hd
    cases hd

/-- **Linking is exact.**  A linker returns a linked pipeline if and only if the topology can be
linked, each import is provided by the host or brought by one edge from one component, and each
capability that an import needs is granted. -/
theorem link_ok_iff (linker : PipelineLinker) (input : LinkInput) :
    (∃ linked linker', linker.link input = some (.ok linked, linker')) ↔ Complete input := by
  have hvalid := input.topology.validate_isOk_iff
  constructor
  · rintro ⟨linked, linker', hlink⟩
    unfold PipelineLinker.link at hlink
    dsimp only at hlink
    split at hlink
    · rename_i hok
      split at hlink
      · cases hlink
      · rename_i topoOrder horder
        split at hlink
        · rename_i hquiet
          obtain ⟨hresolve, hgrants⟩ := List.append_eq_nil_iff.mp (List.isEmpty_iff.mp hquiet)
          obtain ⟨hperm, -, -⟩ := PipelineLinker.order_spec hok horder
          exact ⟨hvalid.mp hok, (resolveImports_quiet_iff hperm).mp hresolve,
            checkCapabilityGrants_eq_nil_iff.mp hgrants⟩
        · cases hlink
    · cases hlink
  · rintro ⟨htopology, himports, hgrants⟩
    have hok := hvalid.mpr htopology
    obtain ⟨topoOrder, horder⟩ := (PipelineTopology.exists_topologicalOrder_iff
      htopology.known input.perm).mpr htopology.acyclic
    obtain ⟨hperm, -, hnodes⟩ := PipelineLinker.order_spec hok horder
    have hquiet : LinkReport.isOk ⟨(resolveImports input.topology topoOrder input.componentImports
        input.componentExports).2 ++ checkCapabilityGrants input.topology input.componentImports,
        []⟩ = true :=
      List.isEmpty_iff.mpr (List.append_eq_nil_iff.mpr
        ⟨(resolveImports_quiet_iff hperm).mpr himports,
          checkCapabilityGrants_eq_nil_iff.mpr hgrants⟩)
    obtain ⟨linked, linker', hbuild, -⟩ := @PipelineLinker.build_spec linker _
      (resolveImports input.topology topoOrder input.componentImports input.componentExports).1 _
      hnodes
    refine ⟨linked, linker', ?_⟩
    unfold PipelineLinker.link
    simp only [hok, if_true, horder]
    rw [if_pos hquiet, hbuild]
    rfl

end Torvyn.Linker
