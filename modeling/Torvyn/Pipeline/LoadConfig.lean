/-
# Loading a project

`load_config` of `torvyn-config/src/loader.rs`: a manifest is read and validated, the flows that
it has inline are taken from it, and those of a `pipeline.toml` beside it are put over them.  The
two kinds of flows do not go the same way.  Inline flows are read one table at a time and validated
by `validate_flow`; a `pipeline.toml` must have a flow, and goes through `validate_pipeline` as
well.  `loaded_alike_iff` says for which flow tables that makes no difference.

What the TOML library makes of a text is read from outside.
-/
import Torvyn.Pipeline.Manifest

namespace Torvyn.Pipeline

/-! ## Manifests -/

namespace ConfigParseError

/-- `file_not_found`. -/
def fileNotFound (file : String) : ConfigParseError :=
  ⟨"E0700", file, "", s!"Configuration file not found: '{file}'", "a readable TOML file",
    "file does not exist or is not readable",
    "Create a Torvyn.toml or specify a path with --manifest."⟩

/-- `duplicate_key`. -/
def duplicateKey (file keyPath : String) : ConfigParseError :=
  ⟨"E0706", file, keyPath, s!"Duplicate key '{keyPath}'", "each key to appear at most once",
    "key appears more than once", "Remove the duplicate entry."⟩

end ConfigParseError

/-- The metadata of a project. -/
structure ProjectMetadata where
  name : String
  version : String
  contractVersion : String
  deriving DecidableEq, Repr

/-- A component with the language it is written in. -/
structure ManifestComponent extends ComponentDecl where
  language : String
  deriving DecidableEq, Repr

/-- A manifest.  Its flows are kept as they were read, in the order of their names. -/
structure ComponentManifest (Value : Type) where
  torvyn : ProjectMetadata
  components : List ManifestComponent
  runtime : RuntimeConfig
  observability : ObservabilityConfig
  security : SecurityConfig
  flow : KeyMap String Value

/-- `is_valid_name`. -/
def isValidName (name : String) : Bool :=
  name ≠ "" && name.toList.all fun c => c.isAlphanum || c == '-' || c == '_'

/-- Whether `str::parse::<u64>` succeeds. -/
def parsesU64 (s : String) : Bool :=
  let digits := match s.toList with
    | '+' :: digits => digits
    | digits => digits
  digits ≠ [] && digits.all Char.isDigit && Nat.ofDigitChars 10 digits 0 < 2 ^ 64

/-- `is_valid_semver`. -/
def isValidSemver (version : String) : Bool :=
  let parts := split version '.'
  parts.length == 3 && parts.all parsesU64

/-- `is_valid_language`. -/
def isValidLanguage (lang : String) : Bool := lang ∈ ["rust", "go", "python", "zig"]

section Validation

variable (file : String)

/-- A text that must be there and be valid. -/
def fieldErrors (keyPath context : String) (valid : String → Bool) (expected suggestion : String)
    (found : String) : List ConfigParseError :=
  if found = "" then [.missingField file keyPath context]
  else if valid found then []
  else [.invalidValue file keyPath found expected suggestion]

/-- A name that must be there and be valid. -/
def validNameErrors (keyPath context : String) : String → List ConfigParseError :=
  fieldErrors file keyPath context isValidName "a string matching [a-zA-Z0-9_-]+"
    "Use only alphanumeric characters, hyphens, and underscores."

/-- A version that must be there and be valid. -/
def versionErrors (keyPath context : String) : String → List ConfigParseError :=
  fieldErrors file keyPath context isValidSemver "a semver string (e.g., \"0.1.0\")"
    "Use a valid semantic version."

/-- What is wrong with a declared component. -/
def componentErrors (i : ℕ) (comp : ManifestComponent) : List ConfigParseError :=
  let context := s!"component[{i}]"
  validNameErrors file s!"{context}.name" context comp.name ++
  (if comp.path = "" then [.missingField file s!"{context}.path" context] else []) ++
  (if isValidLanguage comp.language then []
    else [.invalidValue file s!"{context}.language" comp.language "one of: rust, go, python, zig"
      "Use a supported language identifier."])

/-- The loop over the names, with those that have been seen. -/
def duplicateErrors : List String → List String → List ConfigParseError
  | _, [] => []
  | seen, name :: names =>
      if name = "" then duplicateErrors seen names
      else if name ∈ seen then
        .duplicateKey file s!"component.name={name}" :: duplicateErrors seen names
      else duplicateErrors (name :: seen) names

variable {Value : Type} (manifest : ComponentManifest Value)

/-- `validate_required_fields`. -/
def validateRequiredFields : List ConfigParseError :=
  validNameErrors file "torvyn.name" "torvyn" manifest.torvyn.name ++
  versionErrors file "torvyn.version" "torvyn" manifest.torvyn.version ++
  versionErrors file "torvyn.contract_version" "torvyn" manifest.torvyn.contractVersion ++
  manifest.components.zipIdx.flatMap (fun p => componentErrors file p.2 p.1) ++
  duplicateErrors file [] (manifest.components.map fun comp => comp.name)

/-- `validate_manifest`. -/
def validateManifest : List ConfigParseError :=
  validateRuntimeConfig file manifest.runtime ++
  validateObservabilityConfig file manifest.observability ++
  validateSecurityConfig file manifest.security

end Validation

/-! ## Loading -/

/-- What is made of texts: a manifest, a pipeline definition, and a flow of a table that has been
read. -/
structure TomlLibrary (Value : Type) where
  manifest : String → String → Except ConfigParseError (ComponentManifest Value)
  pipeline : TomlReader
  flow : Value → Except String FlowDef

/-- What is at a path. -/
inductive FileText where
  | missing
  | unreadable (reason : String)
  | text (contents : String)
  deriving DecidableEq, Repr

/-- `read_file`. -/
def readFile (files : String → FileText) (path : String) :
    Except (List ConfigParseError) String :=
  match files path with
  | .text contents => .ok contents
  | .missing => .error [.fileNotFound path]
  | .unreadable reason =>
      .error [.invalidValue path "" reason "a readable file"
        s!"Check file permissions and path: {path}"]

/-- Separators and dots at the end of a path that is read from its end. -/
def trimEnd : List Char → List Char
  | '/' :: c :: rest => trimEnd (c :: rest)
  | '.' :: '/' :: rest => trimEnd ('/' :: rest)
  | path => path

/-- `Path::parent` on the text of a path. -/
def parentPath (path : String) : Option String :=
  let last := trimEnd path.toList.reverse
  if last = [] ∨ last = ['/'] then none
  else some (String.ofList (trimEnd (last.dropWhile (· ≠ '/'))).reverse)

/-- The path of the `pipeline.toml` beside a manifest. -/
def pipelinePath (manifestPath : String) : String :=
  joinPath ((parentPath manifestPath).getD ".") "pipeline.toml"

example : pipelinePath "./Torvyn.toml" = "./pipeline.toml" ∧
    pipelinePath "Torvyn.toml" = "pipeline.toml" := by decide

section Loading

variable {Value : Type} (lib : TomlLibrary Value)

/-- `ComponentManifest::from_toml_str`. -/
def ComponentManifest.fromTomlStr (toml file : String) :
    Except (List ConfigParseError) (ComponentManifest Value) :=
  match lib.manifest toml file with
  | .error e => .error [e]
  | .ok manifest =>
      let errors := validateRequiredFields file manifest
      if errors = [] then .ok manifest else .error errors

/-- What is wrong with a flow that has been read, or that could not be. -/
def inlineErrors (file name : String) : Except String FlowDef → List ConfigParseError
  | .ok flow => validateFlow file name flow
  | .error e =>
      [.invalidValue file s!"flow.{name}" e "a valid flow definition"
        "Check the flow table structure: [flow.<name>.nodes.*] and [[flow.<name>.edges]]."]

/-- The flows of a table that could be read, by their names. -/
def readFlows (flowMap : KeyMap String Value) : List (String × FlowDef) :=
  flowMap.entries.filterMap fun e => (lib.flow e.2).toOption.map fun flow => (e.1, flow)

/-- Flows put over others, those of the same names in their place. -/
def insertFlows (flows : KeyMap String FlowDef) (more : List (String × FlowDef)) :
    KeyMap String FlowDef :=
  more.foldl (fun flows f => flows.insert f.1 f.2) flows

/-- `from_manifest_flows`. -/
def fromManifestFlows (flowMap : KeyMap String Value) (file : String) :
    Except (List ConfigParseError) (KeyMap String FlowDef) :=
  let errors := flowMap.entries.flatMap fun e => inlineErrors file e.1 (lib.flow e.2)
  if errors = [] then .ok (insertFlows ∅ (readFlows lib flowMap)) else .error errors

/-- The flows that a manifest has inline. -/
def inlineFlows (manifest : ComponentManifest Value) (file : String) :
    Except (List ConfigParseError) (KeyMap String FlowDef) :=
  if manifest.flow.entries = [] then .ok ∅ else fromManifestFlows lib manifest.flow file

/-- The flows of a `pipeline.toml`, if there is one. -/
def separateFlows (files : String → FileText) (path : String) :
    Except (List ConfigParseError) (List (String × FlowDef)) :=
  if files path = .missing then .ok []
  else
    match readFile files path with
    | .error errors => .error errors
    | .ok contents =>
        match PipelineDefinition.fromTomlStr lib.pipeline contents path with
        | .error errors => .error errors
        | .ok pipeline =>
            let errors := validatePipeline path pipeline
            if errors = [] then .ok (pipeline.flows.entries.map fun f => (f.1, f.2))
            else .error errors

/-- A project that has been loaded. -/
structure ResolvedConfig (Value : Type) where
  manifest : ComponentManifest Value
  flows : KeyMap String FlowDef
  sourceFile : String

/-- `load_config`. -/
def loadConfig (files : String → FileText) (manifestPath : String) :
    Except (List ConfigParseError) (ResolvedConfig Value) :=
  match readFile files manifestPath with
  | .error errors => .error errors
  | .ok contents =>
      match ComponentManifest.fromTomlStr lib contents manifestPath with
      | .error errors => .error errors
      | .ok manifest =>
          let errors := validateManifest manifestPath manifest
          if errors = [] then
            match inlineFlows lib manifest manifestPath,
                separateFlows lib files (pipelinePath manifestPath) with
            | .ok flows, .ok more => .ok ⟨manifest, insertFlows flows more, manifestPath⟩
            | .ok _, .error separate => .error separate
            | .error inline, .ok _ => .error inline
            | .error inline, .error separate => .error (inline ++ separate)
          else .error errors

end Loading

/-! ## The two validations -/

section Validated

variable {file file' name : String} {flow : FlowDef}

/-- An error about another file. -/
def ConfigParseError.inFile (file : String) (error : ConfigParseError) : ConfigParseError :=
  { error with file := file }

theorem sizeErrors_inFile :
    (sizeErrors file name flow).map (.inFile file') = sizeErrors file' name flow := by
  simp only [sizeErrors, List.map_append, apply_ite (List.map _), List.map_cons, List.map_nil]
  rfl

theorem nodeErrors_inFile {nodeName : String} {node : NodeDef} :
    (nodeErrors file name nodeName node).map (.inFile file') =
      nodeErrors file' name nodeName node := by
  rcases hpriority : node.priority with _ | priority <;>
  · simp only [nodeErrors, hpriority, List.map_append, apply_ite (List.map _), List.map_cons,
      List.map_nil]
    rfl

theorem edgeErrors_inFile {i : ℕ} {edge : EdgeDef} :
    (edgeErrors file name flow i edge).map (.inFile file') =
      edgeErrors file' name flow i edge := by
  simp only [edgeErrors, endpointErrors, List.map_append, apply_ite (List.map _), List.map_cons,
    List.map_nil]
  rfl

/-- What is wrong with a flow does not depend on the file it is in. -/
theorem validateFlow_inFile (file file' : String) :
    (validateFlow file name flow).map (.inFile file') = validateFlow file' name flow := by
  simp only [validateFlow, List.map_append, List.map_flatMap, sizeErrors_inFile,
    nodeErrors_inFile, edgeErrors_inFile]

theorem validateFlow_eq_nil_congr (file file' : String) :
    validateFlow file name flow = [] ↔ validateFlow file' name flow = [] := by
  rw [← validateFlow_inFile file file', List.map_eq_nil_iff]

/-- The memory limits of a flow can be read, and its scheduling policy is one of the known ones. -/
structure FlowDef.LimitsValid (flow : FlowDef) : Prop where
  memory : ∀ x node raw, flow.nodes.lookup x = some node → node.maxMemory = some raw →
    ∃ bytes, parseMemorySize raw = .ok bytes
  policy : ∀ policy, flow.schedulingPolicy = some policy → policy ∈ validSchedulingPolicies

theorem memoryErrors_eq_nil_iff {keyPath expected raw : String} :
    memoryErrors file keyPath expected raw = [] ↔ ∃ bytes, parseMemorySize raw = .ok bytes := by
  rw [memoryErrors]
  cases parseMemorySize raw <;> simp

theorem nodeMemoryErrors_eq_nil_iff {nodeName : String} {node : NodeDef} :
    nodeMemoryErrors file name nodeName node = [] ↔
      ∀ raw, node.maxMemory = some raw → ∃ bytes, parseMemorySize raw = .ok bytes := by
  rw [nodeMemoryErrors]
  cases node.maxMemory with
  | none => simp
  | some raw =>
    refine memoryErrors_eq_nil_iff.trans ?_
    simp

theorem flowPolicyErrors_eq_nil_iff : flowPolicyErrors file name flow = [] ↔
    ∀ policy, flow.schedulingPolicy = some policy → policy ∈ validSchedulingPolicies := by
  rw [flowPolicyErrors]
  cases flow.schedulingPolicy with
  | none => simp
  | some policy => simp [nameErrors]

/-- `validate_pipeline` of flows alone looks at their limits. -/
theorem validatePipeline_eq_nil_iff {flows : KeyMap String FlowDef} {file : String} :
    validatePipeline file ⟨flows, [], none, none, none⟩ = [] ↔
      ∀ name flow, flows.lookup name = some flow → flow.LimitsValid := by
  simp only [validatePipeline, Option.map_none, Option.getD_none, List.nil_append,
    List.append_eq_nil_iff, List.flatMap_eq_nil_iff]
  constructor
  · rintro ⟨hmemory, hpolicy⟩ name flow hflow
    have hmem := KeyMap.mem_entries_iff.mpr hflow
    constructor
    · intro x node raw hnode hraw
      have hnone := hmemory _ hmem _ (KeyMap.mem_entries_iff.mpr hnode)
      exact nodeMemoryErrors_eq_nil_iff.mp hnone raw hraw
    · exact flowPolicyErrors_eq_nil_iff.mp (hpolicy _ hmem)
  · intro h
    constructor
    · intro f hf e he
      apply nodeMemoryErrors_eq_nil_iff.mpr
      intro raw hraw
      exact (h f.1 f.2 (KeyMap.mem_entries_iff.mp hf)).memory e.1 e.2 raw
        (KeyMap.mem_entries_iff.mp he) hraw
    · intro f hf
      exact flowPolicyErrors_eq_nil_iff.mpr (h f.1 f.2 (KeyMap.mem_entries_iff.mp hf)).policy

end Validated

/-! ## The two ways -/

section Ways

variable {Value : Type} {lib : TomlLibrary Value} {table : KeyMap String Value}
  {manifest : ComponentManifest Value} {files : String → FileText} {file path : String}

/-- Every table can be read as a flow, and nothing is wrong with the flow. -/
def FlowsValid (lib : TomlLibrary Value) (file : String) (table : KeyMap String Value) : Prop :=
  ∀ name value, table.lookup name = some value →
    ∃ flow, lib.flow value = .ok flow ∧ validateFlow file name flow = []

/-- The limits of every flow that can be read are valid. -/
def LimitsValid (lib : TomlLibrary Value) (table : KeyMap String Value) : Prop :=
  ∀ name value flow, table.lookup name = some value → lib.flow value = .ok flow →
    flow.LimitsValid

/-- The flow of a name in a table, if it can be read. -/
def flowNamed (lib : TomlLibrary Value) (table : KeyMap String Value) (name : String) :
    Option FlowDef :=
  (table.lookup name).bind fun value => (lib.flow value).toOption

theorem mem_readFlows {f : String × FlowDef} :
    f ∈ readFlows lib table ↔ flowNamed lib table f.1 = some f.2 := by
  rw [readFlows, List.mem_filterMap, flowNamed, Option.bind_eq_some_iff]
  constructor
  · rintro ⟨e, he, hf⟩
    obtain ⟨flow, hflow, rfl⟩ := Option.map_eq_some_iff.mp hf
    exact ⟨e.2, KeyMap.mem_entries_iff.mp he, hflow⟩
  · rintro ⟨value, hvalue, hflow⟩
    exact ⟨⟨f.1, value⟩, KeyMap.mem_entries_iff.mpr hvalue, Option.map_eq_some_iff.mpr
      ⟨f.2, hflow, rfl⟩⟩

theorem nodup_readFlows : ((readFlows lib table).map Prod.fst).Nodup := by
  have hsub : ((readFlows lib table).map Prod.fst).Sublist (table.entries.map Sigma.fst) := by
    rw [readFlows]
    induction table.entries with
    | nil => exact List.Sublist.slnil
    | cons e entries ih =>
      rw [List.filterMap_cons, List.map_cons]
      rcases lib.flow e.2 with error | flow
      · exact ih.cons _
      · exact ih.cons_cons _
  exact List.Nodup.sublist hsub table.nodupKeys

/-- The flows of a table, put where there were none. -/
theorem lookup_insert_readFlows (name : String) :
    (insertFlows ∅ (readFlows lib table)).lookup name = flowNamed lib table name := by
  apply Option.ext
  intro flow
  rw [insertFlows, KeyMap.lookup_foldl_insert nodup_readFlows, mem_readFlows]
  simp

/-- All entries of a map, put where there were none. -/
theorem lookup_insert_entries (flows : KeyMap String FlowDef) (name : String) :
    (insertFlows ∅ (flows.entries.map fun f => (f.1, f.2))).lookup name = flows.lookup name := by
  apply Option.ext
  intro flow
  have hnodup : ((flows.entries.map fun f => (f.1, f.2)).map Prod.fst).Nodup := by
    rw [List.map_map]
    exact flows.nodupKeys
  rw [insertFlows, KeyMap.lookup_foldl_insert hnodup]
  simp [Sigma.exists, KeyMap.mem_entries_iff]

/-- Inline flows are accepted when they are valid. -/
theorem inlineFlows_ok_iff :
    (∃ flows, inlineFlows lib manifest file = .ok flows) ↔
      FlowsValid lib file manifest.flow := by
  have herrors : (manifest.flow.entries.flatMap fun e => inlineErrors file e.1 (lib.flow e.2)) = []
      ↔ FlowsValid lib file manifest.flow := by
    rw [List.flatMap_eq_nil_iff]
    constructor
    · intro h name value hvalue
      have hnone := h _ (KeyMap.mem_entries_iff.mpr hvalue)
      rcases hflow : lib.flow value with error | flow
      · rw [hflow] at hnone
        cases hnone
      · rw [hflow] at hnone
        exact ⟨flow, rfl, hnone⟩
    · intro h e he
      obtain ⟨flow, hflow, hvalid⟩ := h e.1 e.2 (KeyMap.mem_entries_iff.mp he)
      rw [hflow]
      exact hvalid
  rw [← herrors, inlineFlows, fromManifestFlows]
  split_ifs with hempty hnone
  · rw [hempty]
    exact iff_of_true ⟨∅, rfl⟩ rfl
  · exact iff_of_true ⟨_, rfl⟩ hnone
  · exact iff_of_false (fun ⟨_, h⟩ => by cases h) hnone

/-- What inline flows become. -/
theorem lookup_inlineFlows {flows : KeyMap String FlowDef}
    (h : inlineFlows lib manifest file = .ok flows) (name : String) :
    flows.lookup name = flowNamed lib manifest.flow name := by
  rw [inlineFlows, fromManifestFlows] at h
  split_ifs at h with hempty hnone
  · obtain rfl := Except.ok.inj h
    have hnone : manifest.flow.lookup name = none := by
      rw [AList.lookup_eq_none, AList.mem_keys, AList.keys, hempty]
      exact List.not_mem_nil
    rw [flowNamed, hnone]
    rfl
  · obtain rfl := Except.ok.inj h
    exact lookup_insert_readFlows name

/-- How the library reads a `pipeline.toml` that holds a flow table: each flow the way it is read
alone, and no other settings. -/
structure ReadsTable (lib : TomlLibrary Value) (table : KeyMap String Value)
    (contents file : String) : Prop where
  reads : (∀ name value, table.lookup name = some value → ∃ flow, lib.flow value = .ok flow) →
    ∃ flows : KeyMap String FlowDef, (∀ name, flows.lookup name = flowNamed lib table name) ∧
      lib.pipeline contents file = .ok ⟨flows, [], none, none, none⟩
  refuses : ∀ name value e, table.lookup name = some value → lib.flow value = .error e →
    ∃ error, lib.pipeline contents file = .error error

theorem fromTomlStr_ok_iff {read : TomlReader} {toml : String} {pipeline : PipelineDefinition} :
    PipelineDefinition.fromTomlStr read toml file = .ok pipeline ↔
      read toml file = .ok pipeline ∧ pipeline.validate file = [] := by
  rw [PipelineDefinition.fromTomlStr]
  rcases read toml file with error | other
  · simp
  · dsimp only
    split_ifs with hnone
    · constructor
      · intro h
        obtain rfl := Except.ok.inj h
        exact ⟨rfl, hnone⟩
      · rintro ⟨h, -⟩
        obtain rfl := Except.ok.inj h
        rfl
    · refine iff_of_false (fun h => by cases h) ?_
      rintro ⟨h, hother⟩
      obtain rfl := Except.ok.inj h
      exact hnone hother

/-- A file goes through both validations. -/
theorem separateFlows_eq_ok_iff {contents : String} (hfile : files path = .text contents)
    {more : List (String × FlowDef)} : separateFlows lib files path = .ok more ↔
      ∃ pipeline, lib.pipeline contents path = .ok pipeline ∧ pipeline.validate path = [] ∧
        validatePipeline path pipeline = [] ∧
        pipeline.flows.entries.map (fun f => (f.1, f.2)) = more := by
  rw [separateFlows, readFile, hfile, if_neg (by simp)]
  dsimp only
  rcases hread : PipelineDefinition.fromTomlStr lib.pipeline contents path with errors | other
  · refine iff_of_false (fun h => by cases h) ?_
    rintro ⟨pipeline, hpipeline, hvalid, -⟩
    rw [fromTomlStr_ok_iff.mpr ⟨hpipeline, hvalid⟩] at hread
    cases hread
  · obtain ⟨hother, hvalid⟩ := fromTomlStr_ok_iff.mp hread
    dsimp only
    split_ifs with hnone
    · constructor
      · intro h
        exact ⟨other, hother, hvalid, hnone, Except.ok.inj h⟩
      · rintro ⟨pipeline, hpipeline, -, -, hmore⟩
        obtain rfl := Except.ok.inj (hother.symm.trans hpipeline)
        rw [hmore]
    · refine iff_of_false (fun h => by cases h) ?_
      rintro ⟨pipeline, hpipeline, -, hpassed, -⟩
      obtain rfl := Except.ok.inj (hother.symm.trans hpipeline)
      exact hnone hpassed

theorem validate_eq_nil_iff {pipeline : PipelineDefinition} :
    pipeline.validate file = [] ↔ pipeline.flows.entries ≠ [] ∧
      ∀ name flow, pipeline.flows.lookup name = some flow → validateFlow file name flow = [] := by
  rw [PipelineDefinition.validate]
  by_cases hempty : pipeline.flows.entries = []
  · rw [if_pos hempty]
    exact iff_of_false (List.cons_ne_nil _ _) fun h => h.1 hempty
  · rw [if_neg hempty, List.flatMap_eq_nil_iff]
    constructor
    · intro h
      exact ⟨hempty, fun name flow hflow => h _ (KeyMap.mem_entries_iff.mpr hflow)⟩
    · rintro ⟨-, h⟩ f hf
      exact h f.1 f.2 (KeyMap.mem_entries_iff.mp hf)

/-- A `pipeline.toml` that is read has been read flow by flow. -/
theorem ReadsTable.flows_of_ok {contents : String} (hreads : ReadsTable lib table contents path)
    {pipeline : PipelineDefinition} (h : lib.pipeline contents path = .ok pipeline) :
    (∀ name value, table.lookup name = some value → ∃ flow, lib.flow value = .ok flow) ∧
      (∀ name, pipeline.flows.lookup name = flowNamed lib table name) ∧
      pipeline = ⟨pipeline.flows, [], none, none, none⟩ := by
  have hread : ∀ name value, table.lookup name = some value →
      ∃ flow, lib.flow value = .ok flow := by
    intro name value hvalue
    rcases hflow : lib.flow value with error | flow
    · obtain ⟨e, he⟩ := hreads.refuses name value error hvalue hflow
      rw [he] at h
      cases h
    · exact ⟨flow, rfl⟩
  obtain ⟨flows, hflows, hpipeline⟩ := hreads.reads hread
  obtain rfl := Except.ok.inj (hpipeline.symm.trans h)
  exact ⟨hread, hflows, rfl⟩

theorem flowNamed_of_ok {name : String} {value : Value} {flow : FlowDef}
    (hvalue : table.lookup name = some value) (hflow : lib.flow value = .ok flow) :
    flowNamed lib table name = some flow := by
  rw [flowNamed, hvalue, Option.bind_some, hflow]
  rfl

theorem exists_of_flowNamed {name : String} {flow : FlowDef}
    (h : flowNamed lib table name = some flow) :
    ∃ value, table.lookup name = some value ∧ lib.flow value = .ok flow := by
  obtain ⟨value, hvalue, hflow⟩ := Option.bind_eq_some_iff.mp h
  refine ⟨value, hvalue, ?_⟩
  rcases hread : lib.flow value with error | other
  · rw [hread] at hflow
    cases hflow
  · rw [hread] at hflow
    obtain rfl := Option.some.inj hflow
    rfl

/-- The flows of a `pipeline.toml` are accepted when there is one, they are valid and so are their
limits. -/
theorem separateFlows_ok_iff {contents : String} (hfile : files path = .text contents)
    (hreads : ReadsTable lib table contents path) :
    (∃ more, separateFlows lib files path = .ok more) ↔
      table.entries ≠ [] ∧ FlowsValid lib path table ∧ LimitsValid lib table := by
  constructor
  · rintro ⟨more, h⟩
    obtain ⟨pipeline, hpipeline, hvalid, hlimits, -⟩ := (separateFlows_eq_ok_iff hfile).mp h
    obtain ⟨hread, hflows, heq⟩ := hreads.flows_of_ok hpipeline
    obtain ⟨hone, hvalid⟩ := validate_eq_nil_iff.mp hvalid
    rw [heq, validatePipeline_eq_nil_iff] at hlimits
    refine ⟨?_, ?_, ?_⟩
    · obtain ⟨f, hf⟩ := List.exists_mem_of_ne_nil _ hone
      have hnamed := (hflows f.1).symm.trans (KeyMap.mem_entries_iff.mp hf)
      obtain ⟨value, hvalue, -⟩ := exists_of_flowNamed hnamed
      exact List.ne_nil_of_mem (KeyMap.mem_entries_iff.mpr hvalue)
    · intro name value hvalue
      obtain ⟨flow, hflow⟩ := hread name value hvalue
      exact ⟨flow, hflow, hvalid name flow ((hflows name).trans (flowNamed_of_ok hvalue hflow))⟩
    · intro name value flow hvalue hflow
      exact hlimits name flow ((hflows name).trans (flowNamed_of_ok hvalue hflow))
  · rintro ⟨hone, hvalid, hlimits⟩
    obtain ⟨flows, hflows, hpipeline⟩ := hreads.reads fun name value hvalue =>
      (hvalid name value hvalue).imp fun flow h => h.1
    refine ⟨_, (separateFlows_eq_ok_iff hfile).mpr ⟨_, hpipeline, ?_, ?_, rfl⟩⟩
    · refine validate_eq_nil_iff.mpr ⟨?_, fun name flow hflow => ?_⟩
      · obtain ⟨e, he⟩ := List.exists_mem_of_ne_nil _ hone
        obtain ⟨flow, hflow, -⟩ := hvalid e.1 e.2 (KeyMap.mem_entries_iff.mp he)
        have hnamed := flowNamed_of_ok (KeyMap.mem_entries_iff.mp he) hflow
        exact List.ne_nil_of_mem (KeyMap.mem_entries_iff.mpr ((hflows e.1).trans hnamed))
      · obtain ⟨value, hvalue, hread⟩ := exists_of_flowNamed ((hflows name).symm.trans hflow)
        obtain ⟨other, hother, hnone⟩ := hvalid name value hvalue
        obtain rfl := Except.ok.inj (hother.symm.trans hread)
        exact hnone
    · refine validatePipeline_eq_nil_iff.mpr fun name flow hflow => ?_
      obtain ⟨value, hvalue, hread⟩ := exists_of_flowNamed ((hflows name).symm.trans hflow)
      exact hlimits name value flow hvalue hread

/-- What the flows of a `pipeline.toml` become. -/
theorem lookup_separateFlows {contents : String} (hfile : files path = .text contents)
    (hreads : ReadsTable lib table contents path) {more : List (String × FlowDef)}
    (h : separateFlows lib files path = .ok more) (name : String) :
    (insertFlows ∅ more).lookup name = flowNamed lib table name := by
  obtain ⟨pipeline, hpipeline, -, -, rfl⟩ := (separateFlows_eq_ok_iff hfile).mp h
  rw [lookup_insert_entries, (hreads.flows_of_ok hpipeline).2.1]

/-- The manifest is valid, apart from its flows. -/
def ManifestValid (file : String) (manifest : ComponentManifest Value) : Prop :=
  validateRequiredFields file manifest = [] ∧ validateManifest file manifest = []

/-- A project is loaded when its manifest is valid and both kinds of flows are accepted. -/
theorem loadConfig_ok_iff {contents : String} (hfile : files path = .text contents)
    (hread : lib.manifest contents path = .ok manifest) {config : ResolvedConfig Value} :
    loadConfig lib files path = .ok config ↔ ManifestValid path manifest ∧
      ∃ flows more, inlineFlows lib manifest path = .ok flows ∧
        separateFlows lib files (pipelinePath path) = .ok more ∧
        ⟨manifest, insertFlows flows more, path⟩ = config := by
  rw [loadConfig, readFile, hfile]
  dsimp only
  rw [ComponentManifest.fromTomlStr, hread, ManifestValid]
  dsimp only
  by_cases hrequired : validateRequiredFields path manifest = []
  · rw [if_pos hrequired]
    dsimp only
    by_cases hmanifest : validateManifest path manifest = []
    · rw [if_pos hmanifest]
      rcases inlineFlows lib manifest path with errors | flows <;>
      rcases separateFlows lib files (pipelinePath path) with errors | more <;>
      simp [hrequired, hmanifest]
    · rw [if_neg hmanifest]
      exact iff_of_false (fun h => by cases h) fun h => hmanifest h.1.2
  · rw [if_neg hrequired]
    exact iff_of_false (fun h => by cases h) fun h => hrequired h.1.1

/-- One manifest in two projects: with a flow table inline and nothing beside it, and without
flows but with a `pipeline.toml` that holds the table. -/
structure SameTable (lib : TomlLibrary Value) (path : String) (manifest : ComponentManifest Value)
    (table : KeyMap String Value) (inline separate : String → FileText) : Prop where
  inline_manifest : ∃ contents, inline path = .text contents ∧
    lib.manifest contents path = .ok { manifest with flow := table }
  inline_alone : inline (pipelinePath path) = .missing
  separate_manifest : ∃ contents, separate path = .text contents ∧
    lib.manifest contents path = .ok { manifest with flow := ∅ }
  separate_pipeline : ∃ contents, separate (pipelinePath path) = .text contents ∧
    ReadsTable lib table contents (pipelinePath path)

variable {inline separate : String → FileText}

/-- An inline table is loaded when its flows are valid. -/
theorem SameTable.inline_ok_iff (h : SameTable lib path manifest table inline separate) :
    (∃ config, loadConfig lib inline path = .ok config) ↔
      ManifestValid path manifest ∧ FlowsValid lib path table := by
  obtain ⟨contents, hfile, hread⟩ := h.inline_manifest
  have hnone : separateFlows lib inline (pipelinePath path) = .ok [] := if_pos h.inline_alone
  simp only [loadConfig_ok_iff hfile hread, hnone]
  constructor
  · rintro ⟨config, hvalid, flows, more, hflows, -⟩
    exact ⟨hvalid, inlineFlows_ok_iff.mp ⟨flows, hflows⟩⟩
  · rintro ⟨hvalid, hflows⟩
    have hok : ∃ flows, inlineFlows lib { manifest with flow := table } path = .ok flows :=
      inlineFlows_ok_iff.mpr hflows
    obtain ⟨flows, hflows⟩ := hok
    exact ⟨_, hvalid, flows, [], hflows, rfl, rfl⟩

theorem SameTable.lookup_inline (h : SameTable lib path manifest table inline separate)
    {config : ResolvedConfig Value} (hload : loadConfig lib inline path = .ok config)
    (name : String) : config.flows.lookup name = flowNamed lib table name := by
  obtain ⟨contents, hfile, hread⟩ := h.inline_manifest
  have hnone : separateFlows lib inline (pipelinePath path) = .ok [] := if_pos h.inline_alone
  obtain ⟨-, flows, more, hflows, hmore, rfl⟩ := (loadConfig_ok_iff hfile hread).mp hload
  obtain rfl := Except.ok.inj (hnone.symm.trans hmore)
  exact lookup_inlineFlows hflows name

/-- A separate table is loaded when it has a flow, its flows are valid and so are their limits. -/
theorem SameTable.separate_ok_iff (h : SameTable lib path manifest table inline separate) :
    (∃ config, loadConfig lib separate path = .ok config) ↔ ManifestValid path manifest ∧
      table.entries ≠ [] ∧ FlowsValid lib path table ∧ LimitsValid lib table := by
  obtain ⟨contents, hfile, hread⟩ := h.separate_manifest
  obtain ⟨text, htext, hreads⟩ := h.separate_pipeline
  have hvalid : FlowsValid lib (pipelinePath path) table ↔ FlowsValid lib path table := by
    simp only [FlowsValid, validateFlow_eq_nil_congr (pipelinePath path) path]
  have hnone : inlineFlows lib { manifest with flow := ∅ } path = .ok ∅ := if_pos rfl
  simp only [loadConfig_ok_iff hfile hread, hnone]
  rw [← hvalid, ← separateFlows_ok_iff htext hreads]
  constructor
  · rintro ⟨config, hmanifest, flows, more, -, hmore, -⟩
    exact ⟨hmanifest, more, hmore⟩
  · rintro ⟨hmanifest, more, hmore⟩
    exact ⟨_, hmanifest, ∅, more, rfl, hmore, rfl⟩

theorem SameTable.lookup_separate (h : SameTable lib path manifest table inline separate)
    {config : ResolvedConfig Value} (hload : loadConfig lib separate path = .ok config)
    (name : String) : config.flows.lookup name = flowNamed lib table name := by
  obtain ⟨contents, hfile, hread⟩ := h.separate_manifest
  obtain ⟨text, htext, hreads⟩ := h.separate_pipeline
  have hnone : inlineFlows lib { manifest with flow := ∅ } path = .ok ∅ := if_pos rfl
  obtain ⟨-, flows, more, hflows, hmore, rfl⟩ := (loadConfig_ok_iff hfile hread).mp hload
  obtain rfl := Except.ok.inj (hnone.symm.trans hflows)
  exact lookup_separateFlows htext hreads hmore name

/-- Both projects are loaded or neither, and with the same flows. -/
def LoadedAlike (lib : TomlLibrary Value) (path : String) (inline separate : String → FileText) :
    Prop :=
  ((∃ config, loadConfig lib inline path = .ok config) ↔
    ∃ config, loadConfig lib separate path = .ok config) ∧
  ∀ config config', loadConfig lib inline path = .ok config →
    loadConfig lib separate path = .ok config' →
      ∀ name, config.flows.lookup name = config'.flows.lookup name

/-- **A flow table is treated alike, inline and in a file of its own, exactly when** the manifest
is refused anyway, or there is a flow in the table and the flows are invalid or have valid memory
limits and scheduling policies: inline nobody looks at these. -/
theorem loaded_alike_iff (h : SameTable lib path manifest table inline separate) :
    LoadedAlike lib path inline separate ↔ (ManifestValid path manifest →
      table.entries ≠ [] ∧ (FlowsValid lib path table → LimitsValid lib table)) := by
  have hflows : ∀ config config', loadConfig lib inline path = .ok config →
      loadConfig lib separate path = .ok config' →
      ∀ name, config.flows.lookup name = config'.flows.lookup name :=
    fun config config' hload hload' name =>
      (h.lookup_inline hload name).trans (h.lookup_separate hload' name).symm
  rw [LoadedAlike, and_iff_left hflows, h.inline_ok_iff, h.separate_ok_iff]
  -- an empty table is valid, and has valid limits
  have hempty : table.entries = [] → FlowsValid lib path table := by
    intro hnone name value hvalue
    rw [← KeyMap.mem_entries_iff, hnone] at hvalue
    cases hvalue
  tauto

end Ways

/-! ## A limit that nobody reads -/

section Sample

/-- The text of a flow whose source has a memory limit. -/
def sampleTable (memory : String) : String :=
  "[flow.main.nodes.source]\ncomponent = \"read\"\ninterface = \"torvyn:streaming/source\"\n" ++
    s!"max_memory = \"{memory}\"\n" ++
    "[flow.main.nodes.sink]\ncomponent = \"write\"\ninterface = \"torvyn:streaming/sink\"\n" ++
    "[[flow.main.edges]]\nfrom.node = \"source\"\nfrom.port = \"output\"\n" ++
    "to.node = \"sink\"\nto.port = \"input\"\n"

/-- The flow that the text stands for. -/
def sampleFlow (memory : String) : FlowDef where
  description := ""
  nodes := KeyMap.collect
    [("sink", ⟨"write", "torvyn:streaming/sink", none, none, none, none⟩),
     ("source", ⟨"read", "torvyn:streaming/source", none, none, some memory, none⟩)]
  edges := [⟨⟨"source", "output"⟩, ⟨"sink", "input"⟩, none, none⟩]
  schedulingPolicy := none
  defaultQueueDepth := none
  backpressure := none

/-- The text of a manifest. -/
def sampleHeader : String :=
  "[torvyn]\nname = \"copy\"\nversion = \"0.1.0\"\ncontract_version = \"0.1.0\"\n"

/-- The manifest, with the defaults of the sections it does not have. -/
def sampleManifest : ComponentManifest FlowDef where
  torvyn := ⟨"copy", "0.1.0", "0.1.0"⟩
  components := []
  runtime := ⟨"16MiB", ⟨"weighted-fair", 5⟩, ⟨64, "block-producer"⟩⟩
  observability := ⟨"stdout", ⟨"1", some 1⟩, "none"⟩
  security := .default
  flow := ∅

/-- A reader of these texts. -/
def sampleLibrary (memory : String) : TomlLibrary FlowDef where
  manifest text file :=
    if text = sampleHeader then .ok sampleManifest
    else if text = sampleHeader ++ sampleTable memory then
      .ok { sampleManifest with flow := KeyMap.collect [("main", sampleFlow memory)] }
    else .error (.fileNotFound file)
  pipeline text file :=
    if text = sampleTable memory then
      .ok ⟨KeyMap.collect [("main", sampleFlow memory)], [], none, none, none⟩
    else .error (.fileNotFound file)
  flow := .ok

/-- A project with the flow in its manifest. -/
def sampleInline (memory path : String) : FileText :=
  if path = "Torvyn.toml" then .text (sampleHeader ++ sampleTable memory) else .missing

/-- A project with the flow in a file of its own. -/
def sampleSeparate (memory path : String) : FileText :=
  if path = "Torvyn.toml" then .text sampleHeader
  else if path = "pipeline.toml" then .text (sampleTable memory)
  else .missing

theorem sample_same {memory : String} (h : sampleHeader ++ sampleTable memory ≠ sampleHeader) :
    SameTable (sampleLibrary memory) "Torvyn.toml" sampleManifest
      (KeyMap.collect [("main", sampleFlow memory)]) (sampleInline memory)
      (sampleSeparate memory) := by
  have hpath : pipelinePath "Torvyn.toml" = "pipeline.toml" := by decide
  constructor
  · refine ⟨sampleHeader ++ sampleTable memory, if_pos rfl, ?_⟩
    simp only [sampleLibrary, if_neg h, if_true]
  · rw [hpath]
    exact if_neg (by decide)
  · refine ⟨sampleHeader, if_pos rfl, ?_⟩
    simp only [sampleLibrary, if_true]
    rfl
  · rw [hpath]
    refine ⟨sampleTable memory, (if_neg (by decide)).trans (if_pos rfl), ?_, ?_⟩
    · intro _
      refine ⟨KeyMap.collect [("main", sampleFlow memory)], fun name => ?_, ?_⟩
      · rw [flowNamed]
        exact (Option.bind_fun_some _).symm
      · simp only [sampleLibrary, if_true]
    · intro name value e _ herror
      cases herror

theorem exists_ok_iff {ε α : Type*} {result : Except ε α} :
    (∃ a, result = .ok a) ↔ result.toBool = true := by
  cases result <;> simp [Except.toBool]

/-- A limit that is no memory size is accepted inline, and refused in a `pipeline.toml`. -/
theorem unread_limit_accepted :
    SameTable (sampleLibrary "plenty") "Torvyn.toml" sampleManifest
        (KeyMap.collect [("main", sampleFlow "plenty")]) (sampleInline "plenty")
        (sampleSeparate "plenty") ∧
      ¬ LoadedAlike (sampleLibrary "plenty") "Torvyn.toml" (sampleInline "plenty")
        (sampleSeparate "plenty") := by
  refine ⟨sample_same (by decide +kernel), fun h => ?_⟩
  have hload := h.1
  rw [exists_ok_iff, exists_ok_iff] at hload
  have hinline : (loadConfig (sampleLibrary "plenty") (sampleInline "plenty")
      "Torvyn.toml").toBool = true := by decide +kernel
  have hseparate : (loadConfig (sampleLibrary "plenty") (sampleSeparate "plenty")
      "Torvyn.toml").toBool = false := by decide +kernel
  rw [hinline, hseparate] at hload
  simp at hload

/-- A limit that is one is accepted both ways. -/
theorem read_limit_alike :
    LoadedAlike (sampleLibrary "16MiB") "Torvyn.toml" (sampleInline "16MiB")
      (sampleSeparate "16MiB") := by
  refine (loaded_alike_iff (sample_same (by decide +kernel))).mpr fun _ => ⟨by decide, ?_⟩
  intro _ name value flow hvalue hflow
  obtain rfl := Except.ok.inj hflow
  have hmain := KeyMap.mem_of_lookup_collect hvalue
  rw [List.mem_singleton, Prod.mk.injEq] at hmain
  obtain ⟨-, rfl⟩ := hmain
  constructor
  · intro x node raw hnode hraw
    have hmem := KeyMap.mem_of_lookup_collect hnode
    rw [List.mem_pair, Prod.mk.injEq, Prod.mk.injEq] at hmem
    rcases hmem with ⟨-, rfl⟩ | ⟨-, rfl⟩
    · cases hraw
    · obtain rfl := Option.some.inj hraw
      exact exists_ok_iff.mpr (by decide +kernel)
  · intro policy hpolicy
    cases hpolicy

end Sample

end Torvyn.Pipeline
