/-
# The check of a component

`parse_manifest` and `validate_component` of `torvyn-contracts/src/validator.rs`: what
`torvyn check` requires of the project of one component.  Everything that is wrong is reported; only
a project without WIT packages is not looked at any further.  `validateComponent_isOk_iff` says
which projects pass, in terms of the manifest and of the worlds alone.

The parser of WIT and the parsers of TOML and of versions are outside; what they make of a project
is part of it.
-/
import Torvyn.Contracts.ByteSize
import Torvyn.Contracts.Linker

namespace Torvyn.Contracts

/-! ## Manifests -/

/-- A value in a TOML document. -/
inductive TomlValue where
  | string (text : String)
  | boolean (value : Bool)
  | array (values : List TomlValue)
  | table (entries : List (String × TomlValue))
  | other

/-- A table, with its entries in one order in which it can be iterated. -/
abbrev TomlTable := List (String × TomlValue)

/-- `Table::get`. -/
def TomlTable.get (table : TomlTable) (key : String) : Option TomlValue := table.lookup key

/-- What comes of reading the manifest and parsing it: a text that is not TOML, with the part before
the error where the parser says where that is, or a table. -/
inductive ManifestFile where
  | unreadable (error : String)
  | malformed (before : Option String) (message : String)
  | parsed (table : TomlTable)

/-- `ResourceLimits`. -/
structure ResourceLimits where
  maxBufferSize : UInt64
  maxMemory : UInt64
  bufferPool : String

/-- `ComponentManifest`. -/
structure ComponentManifest where
  name : String
  version : Version
  requiredCapabilities : List String
  optionalCapabilities : List String
  resourceLimits : ResourceLimits

/-- A diagnostic about a place in a file. -/
def located (code : ErrorCode) (severity : Severity) (message : String)
    (locations : List LocationContext) (notes : List String) (help : Option String) : Diagnostic :=
  ⟨code, severity, message, locations, notes, help⟩

/-- The beginning of a line of a file. -/
def lineOf (file : List UInt8) (line : UInt32) (label : String) : LocationContext :=
  ⟨⟨file, line, 0⟩, label⟩

/-- An error at the first line of the manifest. -/
def manifestError (path : List UInt8) (code : ErrorCode) (message label help : String) :
    Diagnostic :=
  located code .error message [lineOf path 1 label] [] (some help)

section ParseManifest

variable (overflow : Overflow) (parseVersion : String → Except String Version) (path : List UInt8)

/-- The section that names the component.  In the format of a workspace the table `torvyn` comes
before the first component. -/
def componentSection (table : TomlTable) : Except Diagnostic TomlTable :=
  match table.get "component" with
  | some (.table t) => .ok t
  | some (.array arr) =>
      match table.get "torvyn" with
      | some (.table torvyn) => .ok torvyn
      | _ =>
          match arr.head? with
          | some (.table first) => .ok first
          | _ => .error (manifestError path .manifestMissingField "[[component]] array is empty"
              "expected at least one [[component]] entry"
              "add a [[component]] entry with name, path, and language fields")
  | some _ => .error (manifestError path .manifestMissingField "[component] must be a table"
      "expected [component] table" "add a [component] section with name and version fields")
  | none =>
      match table.get "torvyn" with
      | some (.table torvyn) => .ok torvyn
      | _ => .error (manifestError path .manifestMissingField "missing [component] section"
          "Torvyn.toml must have a [component] or [torvyn] section"
          "add:\n[component]\nname = \"my-component\"\nversion = \"0.1.0\"")

/-- The name, and what is wrong with it. -/
def componentName (component : TomlTable) : String × List Diagnostic :=
  match component.get "name" with
  | some (.string s) =>
      if s ≠ "" then (s, [])
      else ("", [manifestError path .manifestMissingField "component name must not be empty"
        "[component].name is empty" "provide a non-empty component name"])
  | _ => ("", [manifestError path .manifestMissingField "missing [component].name"
      "Torvyn.toml must specify component name" "add: name = \"my-component\" under [component]"])

/-- The version, and what is wrong with it. -/
def componentVersion (component : TomlTable) : Version × List Diagnostic :=
  match component.get "version" with
  | some (.string s) =>
      match parseVersion s with
      | .ok v => (v, [])
      | .error e => (.new 0 0 0, [manifestError path .manifestVersionError
          s!"invalid semver version '{s}': {e}" "version must be valid semver"
          "use format like \"0.1.0\" or \"1.2.3\""])
  | _ => (.new 0 0 0, [manifestError path .manifestMissingField "missing [component].version"
      "Torvyn.toml must specify component version"
      "add: version = \"0.1.0\" under [component]"])

/-- A table in the section `capabilities`. -/
def capabilityTable (table : TomlTable) (key : String) : TomlTable :=
  match table.get "capabilities" with
  | some (.table caps) =>
      match TomlTable.get caps key with
      | some (.table entries) => entries
      | _ => []
  | _ => []

/-- The entry grants its key. -/
def isTrue : TomlValue → Bool
  | .boolean true => true
  | _ => false

/-- The capabilities that a table declares. -/
def declaredIn (table : TomlTable) (key : String) : List String :=
  ((capabilityTable table key).filter fun entry => isTrue entry.2).map Prod.fst

/-- The text of a limit. -/
def limitText (table : TomlTable) (key : String) : Option String :=
  match (capabilityTable table "torvyn").get key with
  | some (.string s) => some s
  | _ => none

/-- A limit in bytes, zero where there is none; or no answer where `parse_byte_size` panics. -/
def byteLimit (table : TomlTable) (key : String) : Option UInt64 :=
  match limitText table key with
  | some s => (parseByteSize overflow s).map fun size => size.getD 0
  | none => some 0

/-- The rest of `parse_manifest`, from the table that names the component. -/
def readComponent (table component : TomlTable) :
    Option (Except (List Diagnostic) ComponentManifest) :=
  let name := componentName path component
  let version := componentVersion parseVersion path component
  let errors : ValidationResult := ⟨name.2 ++ version.2⟩
  if errors.isOk then
    (byteLimit overflow table "max-buffer-size").bind fun maxBufferSize =>
      (byteLimit overflow table "max-memory").map fun maxMemory =>
        .ok {
          name := name.1
          version := version.1
          requiredCapabilities := declaredIn table "required"
          optionalCapabilities := declaredIn table "optional"
          resourceLimits := ⟨maxBufferSize, maxMemory,
            (limitText table "buffer-pool-access").getD ""⟩ }
  else some (.error errors.diagnostics)

/-- `parse_manifest`, or no answer where it panics. -/
def parseManifest : ManifestFile → Option (Except (List Diagnostic) ComponentManifest)
  | .unreadable e => some (.error [manifestError path .manifestParseError
      s!"cannot read manifest: {e}" "file could not be read"
      "ensure the file exists and is readable"])
  | .malformed before message =>
      let line := (before.map fun text => UInt32.ofNat (text.toList.count '\n') + 1).getD 1
      some (.error [located .manifestParseError .error s!"invalid TOML: {message}"
        [lineOf path line "TOML parse error here"] []
        (some "check TOML syntax at https://toml.io")])
  | .parsed table =>
      match componentSection path table with
      | .error e => some (.error [e])
      | .ok component => readComponent overflow parseVersion path table component

end ParseManifest

/-! ## Components -/

/-- `TORVYN_PROCESSING_INTERFACES`. -/
def torvynProcessingInterfaces : List String :=
  ["processor", "source", "sink", "filter", "router", "aggregator"]

/-- `WASI_CAPABILITY_MAP`. -/
def wasiCapabilityMap : List (String × String) := [
  ("wasi:filesystem/preopens", "wasi-filesystem-read"),
  ("wasi:filesystem/types", "wasi-filesystem-read"),
  ("wasi:sockets/tcp", "wasi-network-egress"),
  ("wasi:sockets/udp", "wasi-network-egress"),
  ("wasi:sockets/ip-name-lookup", "wasi-network-egress"),
  ("wasi:clocks/wall-clock", "wasi-clocks"),
  ("wasi:clocks/monotonic-clock", "wasi-clocks"),
  ("wasi:random/random", "wasi-random"),
  ("wasi:random/insecure", "wasi-random"),
  ("wasi:random/insecure-seed", "wasi-random")]

/-- The project of a component: its manifest, and what the WIT parser makes of the directory `wit`
and of the directories in it. -/
structure ComponentProject where
  manifestPath : List UInt8
  witDir : List UInt8
  manifest : ManifestFile
  topLevel : Option (List ParsedPackage)
  subdirectories : List (Option (List ParsedPackage))

namespace ComponentProject

/-- The packages: those of the directory itself, or else those of the directories in it. -/
def packages (p : ComponentProject) : List ParsedPackage :=
  match p.topLevel with
  | some (pkg :: pkgs) => pkg :: pkgs
  | _ => p.subdirectories.flatMap fun pkgs => pkgs.getD []

/-- The worlds of the packages, with their names. -/
def worlds (p : ComponentProject) : List (String × ParsedWorld) :=
  p.packages.flatMap fun pkg => pkg.worlds.entries.map fun e => (e.1, e.2)

end ComponentProject

/-- The last segment of a path. -/
def lastSegment (key : String) : String := ((split key '/').getLast?).getD key

/-- The world exports a processing interface. -/
def exportsProcessing (world : ParsedWorld) : Bool :=
  world.exports.keys.any fun key => lastSegment key ∈ torvynProcessingInterfaces

/-- The diagnostic about a capability that an import needs. -/
def undeclared (project : ComponentProject) (worldName importKey capabilityName : String) :
    Diagnostic :=
  located .capabilityMismatch .error
    (s!"world '{worldName}' imports '{importKey}' but manifest does not declare " ++
      s!"'{capabilityName}'")
    [lineOf project.witDir 1 s!"import of '{importKey}' here",
      lineOf project.manifestPath 1 s!"'{capabilityName}' not declared in [capabilities.required]"]
    [] (some s!"add `{capabilityName} = true` to [capabilities.required] in Torvyn.toml")

/-- `validate_capability_consistency`. -/
def validateCapabilityConsistency (project : ComponentProject) (manifest : ComponentManifest)
    (worldName : String) (world : ParsedWorld) : List Diagnostic :=
  let allDeclared := manifest.requiredCapabilities ++ manifest.optionalCapabilities
  world.imports.keys.flatMap fun importKey =>
    wasiCapabilityMap.flatMap fun need =>
      if contains importKey need.1 ∧ need.2 ∉ allDeclared then
        [undeclared project worldName importKey need.2]
      else []

/-- The packages whose version is not that of the manifest. -/
def versionWarnings (project : ComponentProject) (manifest : ComponentManifest) :
    List Diagnostic :=
  project.packages.flatMap fun pkg =>
    match pkg.version with
    | some pkgVer =>
        if pkgVer ≠ manifest.version then
          [located .unsatisfiableVersion .warning
            (s!"WIT package version ({pkgVer.display}) differs from manifest version " ++
              s!"({manifest.version.display})")
            [lineOf project.manifestPath 1 "manifest version here"]
            ["WIT package version and manifest version should typically agree"] none]
        else []
    | none => []

/-- What is said of a project without a processing interface. -/
def noExport (project : ComponentProject) : Diagnostic :=
  located .noExportedInterface .error "no world exports a Torvyn processing interface"
    [lineOf project.witDir 1
      "no world found exporting processor, source, sink, filter, router, or aggregator"]
    [] (some "add `export processor;` (or source, sink, etc.) to your world definition")

/-- What is said of a project without packages. -/
def noPackages (project : ComponentProject) : Diagnostic :=
  located .witPackageDeclaration .error "no WIT packages found"
    [lineOf project.witDir 1 "wit/ directory contains no parseable packages"] []
    (some "ensure your wit/ directory contains .wit files with a package declaration")

/-- The rest of `validate_component`, from what comes of the manifest. -/
def checkProject (compareFiles : List UInt8 → List UInt8 → Ordering) (project : ComponentProject)
    (parsed : Except (List Diagnostic) ComponentManifest) : ValidationResult :=
  let manifestErrors := match parsed with
    | .ok _ => []
    | .error errors => errors
  if project.packages = [] then ⟨manifestErrors ++ [noPackages project]⟩
  else
    let exportErrors :=
      if project.worlds.any fun world => exportsProcessing world.2 then []
      else [noExport project]
    let againstManifest := match parsed with
      | .ok manifest =>
          (project.worlds.flatMap fun world =>
            validateCapabilityConsistency project manifest world.1 world.2) ++
              versionWarnings project manifest
      | .error _ => []
    ValidationResult.sort compareFiles ⟨manifestErrors ++ exportErrors ++ againstManifest⟩

/-- `validate_component`, or no answer where it panics. -/
def validateComponent (overflow : Overflow) (parseVersion : String → Except String Version)
    (compareFiles : List UInt8 → List UInt8 → Ordering) (project : ComponentProject) :
    Option ValidationResult :=
  (parseManifest overflow parseVersion project.manifestPath project.manifest).map
    (checkProject compareFiles project)

/-! ## Components that pass -/

/-- The table of a manifest that names the component. -/
inductive NamedBy (table : TomlTable) : TomlTable → Prop
  | component {named : TomlTable} (h : table.get "component" = some (.table named)) :
      NamedBy table named
  | workspace {named : TomlTable} (h : table.get "torvyn" = some (.table named))
      (hcomponent : ∀ value, table.get "component" = some value → ∃ arr, value = .array arr) :
      NamedBy table named
  | first {named : TomlTable} {rest : List TomlValue}
      (h : table.get "component" = some (.array (.table named :: rest)))
      (hnone : ∀ torvyn, table.get "torvyn" ≠ some (.table torvyn)) : NamedBy table named

/-- A manifest that names its component and the version of it, and whose limits are in range. -/
structure Complete (overflow : Overflow) (parseVersion : String → Except String Version)
    (file : ManifestFile) (table : TomlTable) : Prop where
  parsed : file = .parsed table
  named : ∃ component, NamedBy table component ∧
    (∃ name, component.get "name" = some (.string name) ∧ name ≠ "") ∧
      ∃ text version, component.get "version" = some (.string text) ∧
        parseVersion text = .ok version
  limits : ∀ key ∈ ["max-buffer-size", "max-memory"], ∀ text, limitText table key = some text →
    parseByteSize overflow text ≠ none

/-- What a component project has to satisfy. -/
structure ComponentProject.Valid (overflow : Overflow)
    (parseVersion : String → Except String Version) (project : ComponentProject) : Prop where
  packages : project.packages ≠ []
  /-- some world exports a processing interface -/
  exports : ∃ world ∈ project.worlds, ∃ key ∈ world.2.exports,
    lastSegment key ∈ torvynProcessingInterfaces
  /-- every WASI interface that a world imports is declared -/
  manifest : ∃ table, Complete overflow parseVersion project.manifest table ∧
    ∀ world ∈ project.worlds, ∀ importKey ∈ world.2.imports, ∀ need ∈ wasiCapabilityMap,
      contains importKey need.1 = true →
        need.2 ∈ declaredIn table "required" ++ declaredIn table "optional"

section Passing

variable {overflow : Overflow} {parseVersion : String → Except String Version}
  {path : List UInt8}

theorem componentSection_eq_ok {table component : TomlTable} :
    componentSection path table = .ok component ↔ NamedBy table component := by
  unfold componentSection
  constructor
  · intro h
    split at h
    · rename_i t ht
      cases h
      exact .component ht
    · rename_i arr harr
      split at h
      · rename_i torvyn htorvyn
        cases h
        exact .workspace htorvyn fun value hvalue =>
          ⟨arr, Option.some.inj (hvalue.symm.trans harr)⟩
      · rename_i htorvyn
        split at h
        · rename_i first hfirst
          cases h
          obtain ⟨rest, rfl⟩ := List.head?_eq_some_iff.mp hfirst
          exact .first harr fun torvyn => htorvyn torvyn
        · cases h
    · cases h
    · rename_i hnone
      split at h
      · rename_i torvyn htorvyn
        cases h
        exact .workspace htorvyn fun value hvalue => by
          rw [hnone] at hvalue
          cases hvalue
      · cases h
  · intro h
    cases h with
    | component h => simp only [h]
    | workspace h hcomponent =>
        cases hc : table.get "component" with
        | none => simp only [h]
        | some value =>
            obtain ⟨arr, rfl⟩ := hcomponent value hc
            simp only [h]
    | first h hnone =>
        simp only [h, List.head?_cons]

theorem isOk_iff {ds : List Diagnostic} :
    ValidationResult.isOk ⟨ds⟩ = true ↔ ∀ d ∈ ds, d.severity ≠ .error := by
  simp [ValidationResult.isOk]

theorem isOk_append {ds ds' : List Diagnostic} : ValidationResult.isOk ⟨ds ++ ds'⟩ = true ↔
    ValidationResult.isOk ⟨ds⟩ = true ∧ ValidationResult.isOk ⟨ds'⟩ = true := by
  simp only [isOk_iff, List.mem_append, or_imp, forall_and]

theorem isOk_sort (compareFiles : List UInt8 → List UInt8 → Ordering) (r : ValidationResult) :
    (ValidationResult.sort compareFiles r).isOk = r.isOk := by
  unfold ValidationResult.isOk ValidationResult.sort
  rw [(List.mergeSort_perm _ _).any_eq]

theorem isOk_componentName {component : TomlTable} :
    ValidationResult.isOk ⟨(componentName path component).2⟩ = true ↔
      ∃ name, component.get "name" = some (.string name) ∧ name ≠ "" := by
  unfold componentName
  split
  · rename_i s hs
    split_ifs with hne
    · simp [ValidationResult.isOk, hs, hne]
    · simp [ValidationResult.isOk, hs, manifestError, located, hne]
  · rename_i hnone
    simp only [ValidationResult.isOk, manifestError, located, List.any_cons, decide_true,
      Bool.true_or, Bool.not_true, Bool.false_eq_true, false_iff]
    rintro ⟨name, hname, -⟩
    exact hnone name hname

theorem isOk_componentVersion {component : TomlTable} :
    ValidationResult.isOk ⟨(componentVersion parseVersion path component).2⟩ = true ↔
      ∃ text version, component.get "version" = some (.string text) ∧
        parseVersion text = .ok version := by
  unfold componentVersion
  split
  · rename_i s hs
    cases hv : parseVersion s with
    | ok v => simp [ValidationResult.isOk, hs, hv]
    | error e => simp [ValidationResult.isOk, hs, hv, manifestError, located]
  · rename_i hnone
    simp only [ValidationResult.isOk, manifestError, located, List.any_cons, decide_true,
      Bool.true_or, Bool.not_true, Bool.false_eq_true, false_iff]
    rintro ⟨text, version, htext, -⟩
    exact hnone text htext

theorem byteLimit_ne_none {table : TomlTable} {key : String} :
    byteLimit overflow table key ≠ none ↔
      ∀ text, limitText table key = some text → parseByteSize overflow text ≠ none := by
  unfold byteLimit
  cases limitText table key with
  | none => simp
  | some s => simp

/-- A manifest that is read as one is complete, and a complete one is read. -/
theorem parseManifest_eq_ok {file : ManifestFile} {P : List String → Prop} :
    (∃ manifest, parseManifest overflow parseVersion path file = some (.ok manifest) ∧
      P (manifest.requiredCapabilities ++ manifest.optionalCapabilities)) ↔
    ∃ table, Complete overflow parseVersion file table ∧
      P (declaredIn table "required" ++ declaredIn table "optional") := by
  constructor
  · rintro ⟨manifest, h, hP⟩
    cases file with
    | unreadable e => cases h
    | malformed before message => cases h
    | parsed table =>
        simp only [parseManifest] at h
        cases hsection : componentSection path table with
        | error e =>
            simp only [hsection] at h
            cases h
        | ok component =>
            simp only [hsection, readComponent] at h
            split_ifs at h with hok
            · obtain ⟨hname, hversion⟩ := isOk_append.mp hok
              obtain ⟨maxBufferSize, hbuffer, h⟩ := Option.bind_eq_some_iff.mp h
              obtain ⟨maxMemory, hmemory, h⟩ := Option.map_eq_some_iff.mp h
              cases h
              refine ⟨table, ⟨rfl, ⟨component, componentSection_eq_ok.mp hsection,
                isOk_componentName.mp hname, isOk_componentVersion.mp hversion⟩, ?_⟩, hP⟩
              intro key hkey
              apply byteLimit_ne_none.mp
              rcases List.mem_cons.mp hkey with rfl | hkey
              · rw [hbuffer]
                exact Option.some_ne_none _
              · rw [List.mem_singleton.mp hkey, hmemory]
                exact Option.some_ne_none _
            · cases h
  · rintro ⟨table, ⟨rfl, ⟨component, hnamed, hname, hversion⟩, hlimits⟩, hP⟩
    obtain ⟨maxBufferSize, hbuffer⟩ := Option.ne_none_iff_exists'.mp
      (byteLimit_ne_none.mpr (hlimits "max-buffer-size" (by simp)))
    obtain ⟨maxMemory, hmemory⟩ := Option.ne_none_iff_exists'.mp
      (byteLimit_ne_none.mpr (hlimits "max-memory" (by simp)))
    have hok : ValidationResult.isOk ⟨(componentName path component).2 ++
        (componentVersion parseVersion path component).2⟩ = true :=
      isOk_append.mpr ⟨isOk_componentName.mpr hname, isOk_componentVersion.mpr hversion⟩
    have hread : parseManifest overflow parseVersion path (.parsed table) =
        readComponent overflow parseVersion path table component := by
      simp only [parseManifest, componentSection_eq_ok.mpr hnamed]
    simp only [hread, readComponent, if_pos hok, hbuffer, hmemory, Option.bind_some,
      Option.map_some]
    exact ⟨_, rfl, hP⟩

/-- What is reported about a manifest is an error. -/
theorem not_isOk_of_parseManifest {file : ManifestFile} {errors : List Diagnostic}
    (h : parseManifest overflow parseVersion path file = some (.error errors)) :
    ¬ValidationResult.isOk ⟨errors⟩ = true := by
  have hone : ∀ d : Diagnostic, d.severity = .error → ¬ValidationResult.isOk ⟨[d]⟩ = true := by
    intro d hd hok
    exact isOk_iff.mp hok d List.mem_cons_self hd
  cases file with
  | unreadable e =>
      cases h
      exact hone _ rfl
  | malformed before message =>
      cases h
      exact hone _ rfl
  | parsed table =>
      simp only [parseManifest] at h
      cases hsection : componentSection path table with
      | error e =>
          simp only [hsection] at h
          cases h
          refine hone _ ?_
          unfold componentSection at hsection
          split at hsection
          · cases hsection
          · split at hsection
            · cases hsection
            · split at hsection
              · cases hsection
              · cases hsection
                rfl
          · cases hsection
            rfl
          · split at hsection
            · cases hsection
            · cases hsection
              rfl
      | ok component =>
          simp only [hsection, readComponent] at h
          split_ifs at h with hok
          · obtain ⟨maxBufferSize, -, h⟩ := Option.bind_eq_some_iff.mp h
            obtain ⟨maxMemory, -, h⟩ := Option.map_eq_some_iff.mp h
            cases h
          · cases h
            exact hok

end Passing

section Check

variable {overflow : Overflow} {parseVersion : String → Except String Version}
  {project : ComponentProject} {manifest : ComponentManifest}

theorem any_exportsProcessing :
    (project.worlds.any fun world => exportsProcessing world.2) = true ↔
      ∃ world ∈ project.worlds, ∃ key ∈ world.2.exports,
        lastSegment key ∈ torvynProcessingInterfaces := by
  simp only [List.any_eq_true, exportsProcessing, decide_eq_true_eq, AList.mem_keys]

theorem isOk_validateCapabilityConsistency : ValidationResult.isOk ⟨project.worlds.flatMap
      fun world => validateCapabilityConsistency project manifest world.1 world.2⟩ = true ↔
    ∀ world ∈ project.worlds, ∀ importKey ∈ world.2.imports, ∀ need ∈ wasiCapabilityMap,
      contains importKey need.1 = true →
        need.2 ∈ manifest.requiredCapabilities ++ manifest.optionalCapabilities := by
  have herror : ∀ name key capability,
      (undeclared project name key capability).severity = .error := fun _ _ _ => rfl
  rw [isOk_iff]
  constructor
  · intro h world hworld importKey himport need hneed hcontains
    by_contra hmissing
    refine h (undeclared project world.1 importKey need.2) ?_ (herror _ _ _)
    refine List.mem_flatMap.mpr ⟨world, hworld, List.mem_flatMap.mpr ⟨importKey,
      AList.mem_keys.mp himport, List.mem_flatMap.mpr ⟨need, hneed, ?_⟩⟩⟩
    rw [if_pos ⟨hcontains, hmissing⟩]
    exact List.mem_singleton_self _
  · intro h d hd
    obtain ⟨world, hworld, hd⟩ := List.mem_flatMap.mp hd
    obtain ⟨importKey, himport, hd⟩ := List.mem_flatMap.mp hd
    obtain ⟨need, hneed, hd⟩ := List.mem_flatMap.mp hd
    split_ifs at hd with hmissing
    · exact absurd (h world hworld importKey (AList.mem_keys.mpr himport) need hneed hmissing.1)
        hmissing.2
    · cases hd

/-- A version that differs is no error. -/
theorem isOk_versionWarnings : ValidationResult.isOk ⟨versionWarnings project manifest⟩ = true := by
  rw [isOk_iff]
  intro d hd
  obtain ⟨pkg, -, hd⟩ := List.mem_flatMap.mp hd
  split at hd
  · split_ifs at hd
    · rw [List.mem_singleton.mp hd]
      show Severity.warning ≠ .error
      decide
    · cases hd
  · cases hd

/-- A project whose manifest is read passes under these conditions. -/
theorem isOk_checkProject_ok {compareFiles : List UInt8 → List UInt8 → Ordering} :
    (checkProject compareFiles project (.ok manifest)).isOk = true ↔ project.packages ≠ [] ∧
      (∃ world ∈ project.worlds, ∃ key ∈ world.2.exports,
        lastSegment key ∈ torvynProcessingInterfaces) ∧
      ∀ world ∈ project.worlds, ∀ importKey ∈ world.2.imports, ∀ need ∈ wasiCapabilityMap,
        contains importKey need.1 = true →
          need.2 ∈ manifest.requiredCapabilities ++ manifest.optionalCapabilities := by
  have herror : ∀ d : Diagnostic, d.severity = .error → ¬ValidationResult.isOk ⟨[d]⟩ = true := by
    intro d hd hok
    exact isOk_iff.mp hok d List.mem_cons_self hd
  unfold checkProject
  by_cases hpackages : project.packages = []
  · simp only [hpackages, if_true, List.nil_append, ne_eq, not_true_eq_false, false_and, iff_false]
    exact herror _ rfl
  · rw [if_neg hpackages, and_iff_right hpackages, isOk_sort, List.nil_append, isOk_append,
      isOk_append, isOk_validateCapabilityConsistency, and_iff_left isOk_versionWarnings,
      ← any_exportsProcessing]
    apply and_congr_left
    intro _
    by_cases hexports : (project.worlds.any fun world => exportsProcessing world.2) = true
    · simp only [hexports, if_true, iff_true]
      rfl
    · rw [if_neg hexports]
      exact iff_of_false (herror _ rfl) hexports

/-- A project whose manifest is not read does not pass. -/
theorem not_isOk_checkProject_error {compareFiles : List UInt8 → List UInt8 → Ordering}
    {errors : List Diagnostic} (h : ¬ValidationResult.isOk ⟨errors⟩ = true) :
    ¬(checkProject compareFiles project (.error errors)).isOk = true := by
  unfold checkProject
  intro hok
  simp only at hok
  split_ifs at hok
  · exact h (isOk_append.mp hok).1
  all_goals
    rw [isOk_sort] at hok
    exact h (isOk_append.mp (isOk_append.mp hok).1).1

end Check

/-- **The check of a component is exact.**  A project passes if and only if its manifest names the
component and a version that can be read, with limits in range; there are WIT packages; some world
exports a processing interface; and the manifest declares what the WASI interfaces need that the
worlds import.  Versions that differ do not matter, nor does the order of the maps. -/
theorem validateComponent_isOk_iff (overflow : Overflow)
    (parseVersion : String → Except String Version)
    (compareFiles : List UInt8 → List UInt8 → Ordering) (project : ComponentProject) :
    (∃ r, validateComponent overflow parseVersion compareFiles project = some r ∧
      r.isOk = true) ↔ project.Valid overflow parseVersion := by
  have hread := @parseManifest_eq_ok overflow parseVersion project.manifestPath project.manifest
    fun declared => ∀ world ∈ project.worlds, ∀ importKey ∈ world.2.imports,
      ∀ need ∈ wasiCapabilityMap, contains importKey need.1 = true → need.2 ∈ declared
  constructor
  · rintro ⟨r, hr, hok⟩
    obtain ⟨parsed, hparsed, rfl⟩ := Option.map_eq_some_iff.mp hr
    cases parsed with
    | error errors =>
        exact absurd hok (not_isOk_checkProject_error (not_isOk_of_parseManifest hparsed))
    | ok manifest =>
        obtain ⟨hpackages, hexports, hdeclared⟩ := isOk_checkProject_ok.mp hok
        exact ⟨hpackages, hexports, hread.mp ⟨manifest, hparsed, hdeclared⟩⟩
  · rintro ⟨hpackages, hexports, hmanifest⟩
    obtain ⟨manifest, hparsed, hdeclared⟩ := hread.mpr hmanifest
    exact ⟨checkProject compareFiles project (.ok manifest),
      Option.map_eq_some_iff.mpr ⟨_, hparsed, rfl⟩,
      isOk_checkProject_ok.mpr ⟨hpackages, hexports, hdeclared⟩⟩

end Torvyn.Contracts
