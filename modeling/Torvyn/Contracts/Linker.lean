/-
# The composition check

`validate_pipeline` of `torvyn-contracts/src/linker.rs`: the checks of `torvyn link` on a
pipeline whose components come with their parsed WIT packages.  Every error is reported, not only
the first.  `validatePipeline_isOk_iff` says which pipelines pass: the conditions are stated
about the pipeline itself, without the maps, sets and searches of the check.

What no check reads is left out: the path and configuration of a component, its optional
capabilities and limits, the details of a grant, the depth and port of a connection.
-/
import Torvyn.Contracts.Diagnostics
import Torvyn.Contracts.Soundness
import Torvyn.Graph.CycleStart
import Torvyn.Types

namespace Torvyn.Contracts

open Torvyn.Graph Relation

/-! ## Pipelines -/

/-- A component entry in the pipeline topology.  A package stands with its name, the required
capabilities in one order in which the set can be iterated. -/
structure PipelineComponent where
  name : String
  role : ComponentRole
  packages : List (String × ParsedPackage)
  requiredCapabilities : List String

/-- A connection between two components, by their names. -/
structure PipelineConnection where
  fromName : String
  toName : String
  deriving DecidableEq, Repr

/-- A pipeline definition for link validation.  A grant stands for its capability's name. -/
structure PipelineDefinition where
  name : String
  components : List PipelineComponent
  connections : List PipelineConnection
  capabilityGrants : KeyMap String (List String)

/-! ## Diagnostics -/

/-- `DiagnosticBuilder::error`, with the notes and the help that are added. -/
def errorDiagnostic (code : ErrorCode) (message : String) (notes : List String) (help : String) :
    Diagnostic where
  code := code
  severity := .error
  message := message
  locations := []
  notes := notes
  help := some help

namespace ValidationResult

/-- `is_ok`: no diagnostic is an error. -/
def isOk (r : ValidationResult) : Bool := !r.diagnostics.any fun d => d.severity = .error

/-- How `sort` compares two diagnostics: by their first locations, where there are any. -/
def compareDiagnostics (compareFiles : List UInt8 → List UInt8 → Ordering) (a b : Diagnostic) :
    Ordering :=
  match a.locations.head?, b.locations.head? with
  | some a, some b => (compareFiles a.location.file b.location.file).then
      ((compare a.location.line b.location.line).then (compare a.location.column b.location.column))
  | some _, none => .lt
  | none, some _ => .gt
  | none, none => .eq

/-- `sort`, which is stable. -/
def sort (compareFiles : List UInt8 → List UInt8 → Ordering) (r : ValidationResult) :
    ValidationResult :=
  ⟨r.diagnostics.mergeSort fun a b => compareDiagnostics compareFiles a b ≠ .gt⟩

end ValidationResult

/-- The text of a version. -/
def Version.display (v : Version) : String :=
  s!"{v.major}.{v.minor}.{v.patch}" ++ (if v.pre = "" then "" else s!"-{v.pre}") ++
    if v.build = "" then "" else s!"+{v.build}"

/-! ## The topology -/

namespace PipelineDefinition

variable (p : PipelineDefinition)

/-- The components by their names; of two with one name the later one stays. -/
def componentMap : KeyMap String PipelineComponent :=
  KeyMap.collect (p.components.map fun c => (c.name, c))

/-- The diagnostic about an endpoint that no component is named by. -/
def unknownEndpoint (name side : String) : Diagnostic :=
  errorDiagnostic .invalidTopology s!"connection references unknown component '{name}'" []
    s!"check that all connection '{side}' values match a defined component name"

/-- The connections whose endpoints are not components. -/
def checkEndpoints : List Diagnostic :=
  p.connections.flatMap fun conn =>
    (if conn.fromName ∈ p.componentMap then [] else [unknownEndpoint conn.fromName "from"]) ++
      if conn.toName ∈ p.componentMap then [] else [unknownEndpoint conn.toName "to"]

/-- The components without a connection. -/
def checkConnected : List Diagnostic :=
  let connected := p.connections.flatMap fun c => [c.fromName, c.toName]
  p.components.flatMap fun comp =>
    if comp.name ∈ connected then []
    else [errorDiagnostic .disconnectedComponent s!"component '{comp.name}' has no connections" []
      "connect this component to the pipeline or remove it"]

/-- The number of connections into a component. -/
def incoming (name : String) : ℕ := p.connections.countP fun c => c.toName = name

/-- The number of connections out of a component. -/
def outgoing (name : String) : ℕ := p.connections.countP fun c => c.fromName = name

/-- The sources with incoming and the sinks with outgoing connections. -/
def checkRoles : List Diagnostic :=
  p.components.flatMap fun comp =>
    (if comp.role = .source ∧ p.incoming comp.name > 0 then
      [errorDiagnostic .sourceHasIncoming
        s!"source component '{comp.name}' has incoming connections" []
        "sources produce data and should not have incoming connections"]
    else []) ++
    if comp.role = .sink ∧ p.outgoing comp.name > 0 then
      [errorDiagnostic .sinkHasOutgoing s!"sink component '{comp.name}' has outgoing connections" []
        "sinks consume data and should not have outgoing connections"]
    else []

/-- The components that a name is connected to. -/
def adj (name : String) : List String :=
  (p.connections.filter fun c => c.fromName = name).map PipelineConnection.toName

/-- The names that a search can meet. -/
def names : List String :=
  p.components.map PipelineComponent.name ++
    p.connections.flatMap fun c => [c.fromName, c.toName]

/-- `has_cycle_dfs`: the search below a component, `none` when it finds a cycle. -/
def hasCycleDfs (node : String) (seen : Seen String) : Option (Seen String) :=
  cycleBelow p.adj p.names.length node seen

/-- The component from which `detect_cycles` finds a cycle. -/
def cycleStart : Option String :=
  firstCycleStart p.adj p.names.length (p.components.map PipelineComponent.name) ⟨∅, ∅⟩

/-- The diagnostic about a cycle. -/
def cycleDiagnostic (name : String) : Diagnostic :=
  errorDiagnostic .invalidTopology "pipeline topology contains a cycle"
    [s!"cycle detected starting from component '{name}'"]
    "pipeline must be a directed acyclic graph (DAG)"

/-- `detect_cycles`: one cycle error is enough. -/
def detectCycles : List Diagnostic := p.cycleStart.toList.map cycleDiagnostic

/-- `validate_topology`. -/
def validateTopology : List Diagnostic :=
  p.checkEndpoints ++ p.checkConnected ++ p.checkRoles ++ p.detectCycles

/-! ## Interfaces, capabilities and versions -/

/-- A package with its interfaces only. -/
def interfacesOnly (pkg : ParsedPackage) : ParsedPackage := { pkg with worlds := ∅ }

/-- The text of an optional version. -/
def versionText (pkg : ParsedPackage) : String := (pkg.version.map Version.display).getD "?"

/-- `validate_interface_compatibility`. -/
def validateInterfaceCompatibility : List Diagnostic :=
  p.connections.flatMap fun conn =>
    match p.componentMap.lookup conn.fromName, p.componentMap.lookup conn.toName with
    | some upstream, some downstream =>
        upstream.packages.flatMap fun (upName, upPkg) =>
          downstream.packages.flatMap fun (downName, downPkg) =>
            if upName = downName then
              if (checkCompatibility (interfacesOnly upPkg) (interfacesOnly downPkg)).verdict =
                  .breaking then
                [errorDiagnostic .incompatibleMajorVersion
                  (s!"incompatible contract versions between '{conn.fromName}' and " ++
                    s!"'{conn.toName}'")
                  [s!"'{conn.fromName}' uses {upName}@{versionText upPkg}, " ++
                    s!"'{conn.toName}' uses {downName}@{versionText downPkg}"]
                  "ensure both components are compiled against compatible contract versions"]
              else []
            else []
    | _, _ => []

/-- `validate_capabilities`. -/
def validateCapabilities : List Diagnostic :=
  p.components.flatMap fun comp =>
    let grants := (p.capabilityGrants.lookup comp.name).getD []
    comp.requiredCapabilities.flatMap fun required =>
      if required ∈ grants then []
      else [errorDiagnostic .unmetCapability
        (s!"component '{comp.name}' requires capability '{required}' which is not granted") []
        (s!"add a grant for '{required}' in the pipeline configuration under component " ++
          s!"'{comp.name}'")]

/-- Every version of a package, with the component that brings it. -/
def versionUses : List (String × String × Version) :=
  p.components.flatMap fun comp => comp.packages.filterMap fun (pkgName, pkg) =>
    pkg.version.map fun ver => (pkgName, comp.name, ver)

/-- `version_map`: the versions of each package, in the order in which they are met. -/
def versionMap : KeyMap String (List (String × Version)) :=
  p.versionUses.foldl (fun m (pkgName, use) =>
    m.insert pkgName ((m.lookup pkgName).getD [] ++ [use])) ∅

/-- The versions of one package that differ in their major number from the first. -/
def checkMajors (pkgName : String) (versions : List (String × Version)) : List Diagnostic :=
  match versions with
  | [] => []
  | (firstName, first) :: rest =>
      rest.flatMap fun (compName, ver) =>
        if ver.major ≠ first.major then
          [errorDiagnostic .versionRangeUnsatisfiable
            s!"incompatible major versions for package '{pkgName}'"
            [s!"'{firstName}' uses version {first.display}, " ++
              s!"'{compName}' uses version {ver.display}"]
            "all components must use the same major version of each shared package"]
        else []

/-- `validate_version_ranges`. -/
def validateVersionRanges : List Diagnostic :=
  p.versionMap.entries.flatMap fun e => checkMajors e.1 e.2

end PipelineDefinition

/-- `validate_pipeline`. -/
def validatePipeline (compareFiles : List UInt8 → List UInt8 → Ordering) (p : PipelineDefinition) :
    ValidationResult :=
  ValidationResult.sort compareFiles
    ⟨p.validateTopology ++ p.validateInterfaceCompatibility ++ p.validateCapabilities ++
      p.validateVersionRanges⟩

/-! ## Pipelines that pass -/

namespace PipelineDefinition

variable {p : PipelineDefinition}

/-- The component that a name stands for: the last one of that name. -/
def component (p : PipelineDefinition) (name : String) : Option PipelineComponent :=
  p.components.reverse.find? fun c => c.name = name

/-- There is a connection between two names. -/
def Connected (p : PipelineDefinition) (a b : String) : Prop :=
  ∃ c ∈ p.connections, c.fromName = a ∧ c.toName = b

/-- What a pipeline has to satisfy. -/
structure Valid (p : PipelineDefinition) : Prop where
  /-- a connection joins components of the pipeline -/
  known : ∀ conn ∈ p.connections,
    (∃ c ∈ p.components, c.name = conn.fromName) ∧ ∃ c ∈ p.components, c.name = conn.toName
  connected : ∀ c ∈ p.components, ∃ conn ∈ p.connections,
    c.name = conn.fromName ∨ c.name = conn.toName
  sources : ∀ c ∈ p.components, c.role = .source → ∀ conn ∈ p.connections, conn.toName ≠ c.name
  sinks : ∀ c ∈ p.components, c.role = .sink → ∀ conn ∈ p.connections, conn.fromName ≠ c.name
  acyclic : Acyclic p.Connected
  /-- connected components agree on the interfaces of a package that both have -/
  interfaces : ∀ conn ∈ p.connections, ∀ up down, p.component conn.fromName = some up →
    p.component conn.toName = some down → ∀ name upPkg downPkg, (name, upPkg) ∈ up.packages →
      (name, downPkg) ∈ down.packages → PackageSeen (interfacesOnly upPkg) (interfacesOnly downPkg)
  capabilities : ∀ c ∈ p.components, ∀ required ∈ c.requiredCapabilities,
    ∃ grants, p.capabilityGrants.lookup c.name = some grants ∧ required ∈ grants
  /-- no package is used in two major versions -/
  versions : ∀ c ∈ p.components, ∀ c' ∈ p.components, ∀ name pkg pkg' v v',
    (name, pkg) ∈ c.packages → (name, pkg') ∈ c'.packages → pkg.version = some v →
      pkg'.version = some v' → v.major = v'.major

/-! ### Names -/

theorem lookup_componentMap (p : PipelineDefinition) (name : String) :
    p.componentMap.lookup name = p.component name := by
  rw [componentMap, KeyMap.lookup_collect, component]
  rw [← List.map_reverse, List.map_map]
  induction p.components.reverse with
  | nil => rfl
  | cons c l ih =>
    by_cases h : c.name = name
    · subst h
      simp
    · simp [h, ← ih, List.dlookup_cons_ne, Ne.symm h]

theorem mem_componentMap {name : String} :
    name ∈ p.componentMap ↔ ∃ c ∈ p.components, c.name = name := by
  rw [componentMap, KeyMap.mem_collect]
  simp only [List.mem_map, Prod.mk.injEq]
  constructor
  · rintro ⟨v, c, hc, rfl, -⟩
    exact ⟨c, hc, rfl⟩
  · rintro ⟨c, hc, rfl⟩
    exact ⟨c, c, hc, rfl, rfl⟩

/-! ### The topology -/

theorem checkEndpoints_eq_nil : p.checkEndpoints = [] ↔ ∀ conn ∈ p.connections,
    (∃ c ∈ p.components, c.name = conn.fromName) ∧ ∃ c ∈ p.components, c.name = conn.toName := by
  simp only [checkEndpoints, List.flatMap_eq_nil_iff, List.append_eq_nil_iff, ite_eq_left_iff,
    reduceCtorEq, imp_false, not_not, mem_componentMap]

theorem checkConnected_eq_nil : p.checkConnected = [] ↔ ∀ c ∈ p.components,
    ∃ conn ∈ p.connections, c.name = conn.fromName ∨ c.name = conn.toName := by
  simp only [checkConnected, List.flatMap_eq_nil_iff, ite_eq_left_iff, reduceCtorEq, imp_false,
    not_not, List.mem_flatMap, List.mem_cons, List.not_mem_nil, or_false]

theorem checkRoles_eq_nil : p.checkRoles = [] ↔
    (∀ c ∈ p.components, c.role = .source → ∀ conn ∈ p.connections, conn.toName ≠ c.name) ∧
      ∀ c ∈ p.components, c.role = .sink → ∀ conn ∈ p.connections, conn.fromName ≠ c.name := by
  simp only [checkRoles, List.flatMap_eq_nil_iff, List.append_eq_nil_iff, ite_eq_right_iff,
    reduceCtorEq, imp_false, not_and, not_lt, Nat.le_zero, incoming, outgoing,
    List.countP_eq_zero, decide_eq_true_eq, gt_iff_lt, forall_and]

theorem edge_adj {a b : String} : Edge p.adj a b ↔ p.Connected a b := by
  simp only [Edge, adj, List.mem_map, List.mem_filter, decide_eq_true_eq, Connected]
  constructor
  · rintro ⟨c, ⟨hc, hfrom⟩, hto⟩
    exact ⟨c, hc, hfrom, hto⟩
  · rintro ⟨c, hc, hfrom, hto⟩
    exact ⟨c, ⟨hc, hfrom⟩, hto⟩

/-- All names that a search can meet are among the names of the pipeline. -/
theorem adj_closed : ∀ u ∈ p.names.toFinset, ∀ w ∈ p.adj u, w ∈ p.names.toFinset := by
  intro u _ w hw
  obtain ⟨c, hc, -, rfl⟩ := edge_adj.mp (show Edge p.adj u w from hw)
  rw [List.mem_toFinset, names, List.mem_append]
  exact Or.inr (List.mem_flatMap.mpr ⟨c, hc, by simp⟩)

theorem edge_adj_eq (p : PipelineDefinition) : Edge p.adj = p.Connected :=
  funext fun _ => funext fun _ => propext edge_adj

theorem component_mem_names : ∀ name ∈ p.components.map PipelineComponent.name,
    name ∈ p.names.toFinset := by
  intro name hname
  rw [List.mem_toFinset, names, List.mem_append]
  exact Or.inl hname

theorem card_names_le (p : PipelineDefinition) : p.names.toFinset.card ≤ p.names.length :=
  p.names.toFinset_card_le

/-- Every vertex of a cycle is the name of a component, when the connections join components. -/
theorem exists_component_of_cycle
    (hknown : ∀ conn ∈ p.connections,
      (∃ c ∈ p.components, c.name = conn.fromName) ∧ ∃ c ∈ p.components, c.name = conn.toName)
    {v : String} (hcycle : TransGen p.Connected v v) : ∃ c ∈ p.components, c.name = v := by
  obtain ⟨w, ⟨conn, hconn, rfl, -⟩, -⟩ := TransGen.head'_iff.mp hcycle
  exact (hknown conn hconn).1

/-- **The cycle check is exact** when the connections join components. -/
theorem detectCycles_eq_nil
    (hknown : ∀ conn ∈ p.connections,
      (∃ c ∈ p.components, c.name = conn.fromName) ∧ ∃ c ∈ p.components, c.name = conn.toName) :
    p.detectCycles = [] ↔ Acyclic p.Connected := by
  rw [detectCycles, List.map_eq_nil_iff, Option.toList_eq_nil_iff, cycleStart,
    firstCycleStart_eq_none_iff adj_closed p.card_names_le component_mem_names]
  simp only [List.forall_mem_map, ReachesCycle, edge_adj_eq]
  constructor
  · intro h v hcycle
    obtain ⟨c, hc, rfl⟩ := exists_component_of_cycle hknown hcycle
    exact h c hc ⟨c.name, .refl, hcycle⟩
  · rintro h c - ⟨x, -, hcycle⟩
    exact h x hcycle

/-! ### Interfaces and capabilities -/

theorem validateInterfaceCompatibility_eq_nil : p.validateInterfaceCompatibility = [] ↔
    ∀ conn ∈ p.connections, ∀ up down, p.component conn.fromName = some up →
      p.component conn.toName = some down → ∀ name upPkg downPkg, (name, upPkg) ∈ up.packages →
        (name, downPkg) ∈ down.packages →
          PackageSeen (interfacesOnly upPkg) (interfacesOnly downPkg) := by
  rw [validateInterfaceCompatibility, List.flatMap_eq_nil_iff]
  refine forall₂_congr fun conn _ => ?_
  simp only [lookup_componentMap]
  cases p.component conn.fromName with
  | none => simp
  | some up =>
    cases p.component conn.toName with
    | none => simp
    | some down =>
      simp only [List.flatMap_eq_nil_iff, Prod.forall, ite_eq_right_iff, reduceCtorEq, imp_false,
        Option.some.injEq]
      constructor
      · rintro h _ _ rfl rfl name upPkg downPkg hup hdown
        exact verdict_ne_breaking_iff.mp (h name upPkg hup name downPkg hdown rfl)
      · rintro h name upPkg hup _ downPkg hdown rfl
        exact verdict_ne_breaking_iff.mpr (h up down rfl rfl name upPkg downPkg hup hdown)

theorem validateCapabilities_eq_nil : p.validateCapabilities = [] ↔
    ∀ c ∈ p.components, ∀ required ∈ c.requiredCapabilities,
      ∃ grants, p.capabilityGrants.lookup c.name = some grants ∧ required ∈ grants := by
  simp only [validateCapabilities, List.flatMap_eq_nil_iff, ite_eq_left_iff, reduceCtorEq,
    imp_false, not_not]
  refine forall₂_congr fun c _ => forall₂_congr fun required _ => ?_
  cases p.capabilityGrants.lookup c.name with
  | none => simp
  | some grants => simp

/-! ### Versions -/

/-- What the map of versions holds for a package: its uses, in order. -/
theorem getD_lookup_foldl (uses : List (String × String × Version))
    (m : KeyMap String (List (String × Version))) (name : String) :
    ((uses.foldl (fun m (pkgName, use) =>
      m.insert pkgName ((m.lookup pkgName).getD [] ++ [use])) m).lookup name).getD [] =
      (m.lookup name).getD [] ++ (uses.filter fun u => u.1 = name).map Prod.snd := by
  induction uses generalizing m with
  | nil => simp
  | cons u uses ih =>
    obtain ⟨pkgName, use⟩ := u
    rw [List.foldl_cons, ih]
    by_cases h : pkgName = name
    · subst h
      simp [AList.lookup_insert]
    · simp [AList.lookup_insert_ne (Ne.symm h), h]

theorem getD_lookup_versionMap (p : PipelineDefinition) (name : String) :
    (p.versionMap.lookup name).getD [] =
      (p.versionUses.filter fun u => u.1 = name).map Prod.snd := by
  rw [versionMap, getD_lookup_foldl]
  simp

theorem mem_versionUses {name compName : String} {v : Version} :
    (name, compName, v) ∈ p.versionUses ↔ ∃ c ∈ p.components, c.name = compName ∧
      ∃ pkg, (name, pkg) ∈ c.packages ∧ pkg.version = some v := by
  simp only [versionUses, List.mem_flatMap, List.mem_filterMap, Prod.exists,
    Option.map_eq_some_iff, Prod.mk.injEq]
  constructor
  · rintro ⟨c, hc, _, pkg, hpkg, _, hv, rfl, rfl, rfl⟩
    exact ⟨c, hc, rfl, pkg, hpkg, hv⟩
  · rintro ⟨c, hc, rfl, pkg, hpkg, hv⟩
    exact ⟨c, hc, name, pkg, hpkg, v, hv, rfl, rfl, rfl⟩

/-- The first version is compared with all others. -/
theorem checkMajors_eq_nil {name : String} {versions : List (String × Version)} :
    checkMajors name versions = [] ↔
      ∀ u ∈ versions, ∀ u' ∈ versions, u.2.major = u'.2.major := by
  cases versions with
  | nil => simp [checkMajors]
  | cons first rest =>
    simp only [checkMajors, List.flatMap_eq_nil_iff, ite_eq_right_iff, reduceCtorEq, imp_false,
      ne_eq, not_not, Prod.forall]
    constructor
    · intro h
      have hfirst : ∀ u ∈ first :: rest, u.2.major = first.2.major := by
        intro u hu
        rcases List.mem_cons.mp hu with rfl | hu
        · rfl
        · exact h u.1 u.2 hu
      exact fun _ _ hu _ _ hu' => (hfirst _ hu).trans (hfirst _ hu').symm
    · intro h compName ver hmem
      exact h compName ver (List.mem_cons_of_mem _ hmem) first.1 first.2 List.mem_cons_self

theorem validateVersionRanges_eq_nil : p.validateVersionRanges = [] ↔
    ∀ c ∈ p.components, ∀ c' ∈ p.components, ∀ name pkg pkg' v v',
      (name, pkg) ∈ c.packages → (name, pkg') ∈ c'.packages → pkg.version = some v →
        pkg'.version = some v' → v.major = v'.major := by
  have hall : p.validateVersionRanges = [] ↔
      ∀ name, checkMajors name ((p.versionMap.lookup name).getD []) = [] := by
    rw [validateVersionRanges, List.flatMap_eq_nil_iff]
    constructor
    · intro h name
      cases hlookup : p.versionMap.lookup name with
      | none => rfl
      | some versions => exact h ⟨name, versions⟩ (KeyMap.mem_entries_iff.mpr hlookup)
    · rintro h ⟨name, versions⟩ hmem
      have := h name
      rwa [KeyMap.mem_entries_iff.mp hmem] at this
  rw [hall]
  simp only [getD_lookup_versionMap, checkMajors_eq_nil, List.forall_mem_map, List.mem_filter,
    decide_eq_true_eq, Prod.forall]
  constructor
  · intro h c hc c' hc' name pkg pkg' v v' hpkg hpkg' hv hv'
    exact h name name c.name v ⟨mem_versionUses.mpr ⟨c, hc, rfl, pkg, hpkg, hv⟩, rfl⟩ name c'.name
      v' ⟨mem_versionUses.mpr ⟨c', hc', rfl, pkg', hpkg', hv'⟩, rfl⟩
  · rintro h name _ compName v ⟨hu, rfl⟩ _ compName' v' ⟨hu', rfl⟩
    obtain ⟨c, hc, -, pkg, hpkg, hv⟩ := mem_versionUses.mp hu
    obtain ⟨c', hc', -, pkg', hpkg', hv'⟩ := mem_versionUses.mp hu'
    exact h c hc c' hc' _ pkg pkg' v v' hpkg hpkg' hv hv'

end PipelineDefinition

/-! ## The whole check -/

section Check

variable {compareFiles : List UInt8 → List UInt8 → Ordering} {p : PipelineDefinition}

/-- Diagnostics without locations stay in their order. -/
theorem ValidationResult.sort_eq {r : ValidationResult}
    (h : ∀ d ∈ r.diagnostics, d.locations = []) : r.sort compareFiles = r := by
  rw [sort, List.mergeSort_of_pairwise]
  refine List.pairwise_of_forall_mem_list fun a ha b hb => ?_
  simp [compareDiagnostics, h a ha, h b hb]

/-- All diagnostics of the check, in the order in which they are pushed. -/
def PipelineDefinition.diagnostics (p : PipelineDefinition) : List Diagnostic :=
  p.validateTopology ++ p.validateInterfaceCompatibility ++ p.validateCapabilities ++
    p.validateVersionRanges

/-- Every diagnostic of a list has the property. -/
def Every (P : Diagnostic → Prop) (ds : List Diagnostic) : Prop := ∀ d ∈ ds, P d

section Every

variable {P : Diagnostic → Prop} {ds ds' : List Diagnostic} {d : Diagnostic}

@[simp] theorem every_nil : Every P [] := by simp [Every]

@[simp] theorem every_append : Every P (ds ++ ds') ↔ Every P ds ∧ Every P ds' :=
  List.forall_mem_append

@[simp] theorem every_singleton : Every P [d] ↔ P d := List.forall_mem_singleton

@[simp] theorem every_flatMap {α : Type*} {l : List α} {f : α → List Diagnostic} :
    Every P (l.flatMap f) ↔ ∀ a ∈ l, Every P (f a) := by
  simp only [Every, List.mem_flatMap]
  constructor
  · intro h a ha d hd
    exact h d ⟨a, ha, hd⟩
  · rintro h d ⟨a, ha, hd⟩
    exact h a ha d hd

@[simp] theorem every_ite {c : Prop} [Decidable c] :
    Every P (if c then ds else ds') ↔ (c → Every P ds) ∧ (¬ c → Every P ds') := by
  split <;> simp [*]

end Every

/-- What holds of every diagnostic about interfaces. -/
theorem PipelineDefinition.every_interfaces {P : Diagnostic → Prop}
    (h : ∀ message notes help,
      P (errorDiagnostic .incompatibleMajorVersion message notes help)) :
    Every P p.validateInterfaceCompatibility := by
  rw [validateInterfaceCompatibility, every_flatMap]
  intro conn _
  split <;> simp [h]

/-- What holds of every diagnostic about versions. -/
theorem PipelineDefinition.every_versions {P : Diagnostic → Prop}
    (h : ∀ message notes help,
      P (errorDiagnostic .versionRangeUnsatisfiable message notes help)) :
    Every P p.validateVersionRanges := by
  have hmajors : ∀ name versions, Every P (checkMajors name versions) := by
    intro name versions
    cases versions <;> simp [checkMajors, h]
  simp [validateVersionRanges, hmajors]

/-- The check reports errors without locations only. -/
theorem PipelineDefinition.every_plain (p : PipelineDefinition) :
    Every (fun d => d.severity = .error ∧ d.locations = []) p.diagnostics := by
  have herror : ∀ code message notes help,
      (errorDiagnostic code message notes help).severity = .error ∧
        (errorDiagnostic code message notes help).locations = [] := fun _ _ _ _ => ⟨rfl, rfl⟩
  have hcycle : Every (fun d => d.severity = .error ∧ d.locations = []) p.detectCycles := by
    rw [detectCycles]
    cases p.cycleStart <;> simp [cycleDiagnostic, herror]
  simp [diagnostics, validateTopology, checkEndpoints, unknownEndpoint, checkConnected, checkRoles,
    validateCapabilities, hcycle, herror, every_interfaces, every_versions]

theorem validatePipeline_diagnostics (compareFiles : List UInt8 → List UInt8 → Ordering)
    (p : PipelineDefinition) : (validatePipeline compareFiles p).diagnostics = p.diagnostics := by
  rw [validatePipeline, ValidationResult.sort_eq]
  · rfl
  · exact fun d hd => (p.every_plain d hd).2

theorem isOk_iff_nil : (validatePipeline compareFiles p).isOk = true ↔ p.diagnostics = [] := by
  rw [ValidationResult.isOk, validatePipeline_diagnostics, Bool.not_eq_true', List.any_eq_false]
  constructor
  · intro h
    by_contra hne
    obtain ⟨d, hd⟩ := List.exists_mem_of_ne_nil _ hne
    exact h d hd (decide_eq_true (p.every_plain d hd).1)
  · intro h d hd
    rw [h] at hd
    cases hd

/-- **The composition check is exact.**  A pipeline passes if and only if its connections join
its components, every component is connected, no source has incoming and no sink outgoing
connections, there is no cycle, connected components agree on the interfaces of the packages that
both have, every required capability is granted, and no package is used in two major versions. -/
theorem validatePipeline_isOk_iff (compareFiles : List UInt8 → List UInt8 → Ordering)
    (p : PipelineDefinition) : (validatePipeline compareFiles p).isOk = true ↔ p.Valid := by
  rw [isOk_iff_nil, PipelineDefinition.diagnostics, PipelineDefinition.validateTopology]
  simp only [List.append_eq_nil_iff, PipelineDefinition.checkEndpoints_eq_nil,
    PipelineDefinition.checkConnected_eq_nil, PipelineDefinition.checkRoles_eq_nil,
    PipelineDefinition.validateInterfaceCompatibility_eq_nil,
    PipelineDefinition.validateCapabilities_eq_nil,
    PipelineDefinition.validateVersionRanges_eq_nil]
  constructor
  · rintro ⟨⟨⟨⟨⟨⟨hknown, hconnected⟩, hsources, hsinks⟩, hcycles⟩, hinterfaces⟩, hgranted⟩,
      hversions⟩
    exact ⟨hknown, hconnected, hsources, hsinks,
      (PipelineDefinition.detectCycles_eq_nil hknown).mp hcycles, hinterfaces, hgranted, hversions⟩
  · intro h
    exact ⟨⟨⟨⟨⟨⟨h.known, h.connected⟩, h.sources, h.sinks⟩,
      (PipelineDefinition.detectCycles_eq_nil h.known).mpr h.acyclic⟩, h.interfaces⟩,
      h.capabilities⟩, h.versions⟩

/-- A diagnostic about a cycle names its component. -/
theorem PipelineDefinition.cycleDiagnostic_inj {a b : String}
    (h : cycleDiagnostic a = cycleDiagnostic b) : a = b := by
  simp only [cycleDiagnostic, errorDiagnostic, Diagnostic.mk.injEq, true_and, and_true,
    List.cons.injEq] at h
  have htext := congrArg String.toList h
  simp only [String.toList_append, List.append_cancel_right_eq, List.append_cancel_left_eq] at htext
  exact String.toList_inj.mp htext

/-- Only the cycle check reports a cycle. -/
theorem PipelineDefinition.cycleDiagnostic_mem {name : String} :
    cycleDiagnostic name ∈ p.diagnostics ↔ p.cycleStart = some name := by
  -- of the others only those about endpoints have its code, and they have no note
  have hendpoints : Every (fun d => d.notes = []) p.checkEndpoints := by
    simp [checkEndpoints, unknownEndpoint, errorDiagnostic]
  have hothers : Every (fun d => d.code ≠ .invalidTopology)
      (p.checkConnected ++ p.checkRoles ++ p.validateInterfaceCompatibility ++
        p.validateCapabilities ++ p.validateVersionRanges) := by
    have hinterfaces : Every (fun d => d.code ≠ .invalidTopology)
        p.validateInterfaceCompatibility := every_interfaces (by simp [errorDiagnostic])
    have hversions : Every (fun d => d.code ≠ .invalidTopology) p.validateVersionRanges :=
      every_versions (by simp [errorDiagnostic])
    simp [checkConnected, checkRoles, validateCapabilities, errorDiagnostic, hinterfaces, hversions]
  have hstart : cycleDiagnostic name ∈ p.detectCycles ↔ p.cycleStart = some name := by
    rw [detectCycles, List.mem_map]
    constructor
    · rintro ⟨start, hstart, heq⟩
      obtain rfl := cycleDiagnostic_inj heq
      exact Option.mem_toList.mp hstart
    · intro hstart
      exact ⟨name, Option.mem_toList.mpr hstart, rfl⟩
  rw [← hstart]
  simp only [diagnostics, validateTopology, List.mem_append]
  constructor
  · intro h
    by_contra hnot
    have hother : cycleDiagnostic name ∈ p.checkConnected ++ p.checkRoles ++
        p.validateInterfaceCompatibility ++ p.validateCapabilities ++ p.validateVersionRanges := by
      have hno : cycleDiagnostic name ∉ p.checkEndpoints := fun hmem => by
        cases hendpoints _ hmem
      simp only [List.mem_append]
      tauto
    exact hothers _ hother rfl
  · tauto

/-- **The cycle report is exact.**  The check reports a cycle from a component if and only if the
component is the first, in the order of the definition, from which a cycle can be reached along
connections; so at most one cycle is reported. -/
theorem cycle_reported_iff (compareFiles : List UInt8 → List UInt8 → Ordering)
    (p : PipelineDefinition) (name : String) :
    PipelineDefinition.cycleDiagnostic name ∈ (validatePipeline compareFiles p).diagnostics ↔
      ∃ before c after, p.components = before ++ c :: after ∧ c.name = name ∧
        (∃ x, ReflTransGen p.Connected name x ∧ TransGen p.Connected x x) ∧
        ∀ b ∈ before, ¬ ∃ x, ReflTransGen p.Connected b.name x ∧ TransGen p.Connected x x := by
  rw [validatePipeline_diagnostics, PipelineDefinition.cycleDiagnostic_mem,
    PipelineDefinition.cycleStart, firstCycleStart_eq_some_iff PipelineDefinition.adj_closed
      p.card_names_le PipelineDefinition.component_mem_names]
  simp only [ReachesCycle, PipelineDefinition.edge_adj_eq]
  constructor
  · rintro ⟨before, after, hsplit, hreach, hbefore⟩
    obtain ⟨l, l', hl, rfl, hl'⟩ := List.map_eq_append_iff.mp hsplit
    obtain ⟨c, l'', rfl, hname, rfl⟩ := List.map_eq_cons_iff.mp hl'
    exact ⟨l, c, l'', hl, hname, hreach,
      fun b hb => hbefore b.name (List.mem_map_of_mem hb)⟩
  · rintro ⟨before, c, after, hsplit, rfl, hreach, hbefore⟩
    refine ⟨before.map PipelineComponent.name, after.map PipelineComponent.name, ?_, hreach, ?_⟩
    · rw [hsplit, List.map_append, List.map_cons]
    · intro u hu
      obtain ⟨b, hb, rfl⟩ := List.mem_map.mp hu
      exact hbefore b hb

end Check

end Torvyn.Contracts
