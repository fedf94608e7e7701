/-
# Manifests

The pipeline definitions of `torvyn-config` with their two validations, `from_toml_str` of
`pipeline.rs` and `validate_pipeline` of `validate.rs`, as the check command runs them one
after the other.  What a node of a flow is configured with when the flow is translated, by
`torvyn-pipeline/src/convert.rs` and `resolve.rs`, comes from the same manifest: its limits,
its capability grants and the component that it names.

The TOML parser is read from outside: the definition that a text stands for, or the error.
-/
import Mathlib.Algebra.Order.Field.Rat
import Torvyn.Pipeline.Convert
import Torvyn.Security.Sandbox

namespace Torvyn.Pipeline

open Security

/-! ## The sections of a manifest -/

/-- The settings of the scheduler. -/
structure SchedulingConfig where
  policy : String
  defaultPriority : UInt32
  deriving DecidableEq, Repr

/-- The settings of the runtime. -/
structure RuntimeConfig where
  maxMemoryPerComponent : String
  scheduling : SchedulingConfig
  backpressure : BackpressureConfig
  deriving DecidableEq, Repr

/-- A floating-point number as it is displayed, with its value if it has one. -/
structure SampleRate where
  text : String
  value : Option ℚ

/-- The settings of the observability collector. -/
structure ObservabilityConfig where
  tracingExporter : String
  tracingSampleRate : SampleRate
  metricsExporter : String

/-- The capability texts granted to one component. -/
structure CapabilityGrant where
  capabilities : List String
  deriving DecidableEq, Repr

/-- The capability policy and the grants. -/
structure SecurityConfig where
  defaultCapabilityPolicy : String
  grants : KeyMap String CapabilityGrant

/-- `SecurityConfig::default`. -/
def SecurityConfig.default : SecurityConfig := ⟨"deny-all", ∅⟩

/-- A declared component. -/
structure ComponentDecl where
  name : String
  path : String
  deriving DecidableEq, Repr

/-- What a manifest says about pipelines.  The flows are in the order of their names. -/
structure PipelineDefinition where
  flows : KeyMap String FlowDef
  components : List ComponentDecl
  runtime : Option RuntimeConfig
  observability : Option ObservabilityConfig
  security : Option SecurityConfig

/-! ## Memory sizes -/

/-- The factor that a suffix stands for. -/
def memoryMultiplier (suffix : String) : Option ℕ :=
  if suffix = "" ∨ suffix = "b" then some 1
  else if suffix = "kib" ∨ suffix = "k" then some 1024
  else if suffix = "mib" ∨ suffix = "m" then some (1024 * 1024)
  else if suffix = "gib" ∨ suffix = "g" then some (1024 * 1024 * 1024)
  else none

/-- `parse_memory_size`. -/
def parseMemorySize (s : String) : Except String UInt64 :=
  let s := trim s
  let digits := s.toList.takeWhile Char.isDigit
  let rest := String.ofList (s.toList.dropWhile Char.isDigit)
  if s = "" then .error "empty memory size string"
  else if digits = [] then .error s!"no numeric value in '{s}'"
  else
    let num := Nat.ofDigitChars 10 digits 0
    if 2 ^ 64 ≤ num then
      .error s!"invalid number in '{s}': number too large to fit in target type"
    else
      let suffix := (trim rest).toLower
      match memoryMultiplier suffix with
      | none => .error s!"unknown memory size suffix '{suffix}'. Use B, KiB, MiB, or GiB."
      | some multiplier =>
          if num * multiplier < 2 ^ 64 then .ok (UInt64.ofNat (num * multiplier))
          else .error s!"memory size overflow: {num} * {multiplier}"

/-! ## Validation -/

/-- `VALID_SCHEDULING_POLICIES`. -/
def validSchedulingPolicies : List String := ["round-robin", "weighted-fair", "priority"]

/-- `VALID_BACKPRESSURE_POLICIES`. -/
def validBackpressurePolicies : List String :=
  ["block-producer", "drop-oldest", "drop-newest", "error"]

/-- `VALID_TRACING_EXPORTERS`. -/
def validTracingExporters : List String := ["otlp-grpc", "otlp-http", "stdout", "none"]

/-- `VALID_METRICS_EXPORTERS`. -/
def validMetricsExporters : List String := ["prometheus", "otlp", "none"]

/-- `VALID_CAPABILITY_POLICIES`. -/
def validCapabilityPolicies : List String := ["deny-all", "allow-all"]

section Validation

variable (file : String)

/-- A setting must be one of the valid names. -/
def nameErrors (keyPath : String) (valid : List String) (suggestion name : String) :
    List ConfigParseError :=
  let names := ", ".intercalate valid
  if name ∈ valid then []
  else [.invalidValue file keyPath name s!"one of: {names}" suggestion]

/-- A setting must be a readable memory size. -/
def memoryErrors (keyPath expected raw : String) : List ConfigParseError :=
  match parseMemorySize raw with
  | .ok _ => []
  | .error reason =>
      [.invalidValue file keyPath raw expected s!"{reason}. Use B, KiB, MiB, or GiB suffixes."]

/-- `validate_runtime_config`. -/
def validateRuntimeConfig (config : RuntimeConfig) : List ConfigParseError :=
  nameErrors file "runtime.scheduling.policy" validSchedulingPolicies
    "Use a supported scheduling policy." config.scheduling.policy ++
  (if config.scheduling.defaultPriority = 0 ∨ config.scheduling.defaultPriority > 10 then
    [.invalidValue file "runtime.scheduling.default_priority"
      (toString config.scheduling.defaultPriority) "an integer between 1 and 10"
      "Set priority to a value from 1 (lowest) to 10 (highest)."]
    else []) ++
  nameErrors file "runtime.backpressure.backpressure_policy" validBackpressurePolicies
    "Use a supported backpressure policy." config.backpressure.backpressurePolicy ++
  (if config.backpressure.defaultQueueDepth = 0 then
    [.invalidValue file "runtime.backpressure.default_queue_depth" "0" "a positive integer"
      "Queue depth must be at least 1."]
    else []) ++
  memoryErrors file "runtime.max_memory_per_component"
    "a valid memory size (e.g., \"16MiB\", \"64MiB\")" config.maxMemoryPerComponent

/-- `validate_observability_config`. -/
def validateObservabilityConfig (config : ObservabilityConfig) : List ConfigParseError :=
  nameErrors file "observability.tracing_exporter" validTracingExporters
    "Use a supported tracing exporter." config.tracingExporter ++
  (if config.tracingSampleRate.value.any fun rate => 0 ≤ rate ∧ rate ≤ 1 then []
    else
      [.invalidValue file "observability.tracing_sample_rate" config.tracingSampleRate.text
        "a float between 0.0 and 1.0" "Set sample rate to a value from 0.0 (none) to 1.0 (all)."]) ++
  nameErrors file "observability.metrics_exporter" validMetricsExporters
    "Use a supported metrics exporter." config.metricsExporter

/-- `validate_security_config`. -/
def validateSecurityConfig (config : SecurityConfig) : List ConfigParseError :=
  nameErrors file "security.default_capability_policy" validCapabilityPolicies
    "Use 'deny-all' (recommended) or 'allow-all' (development only)."
    config.defaultCapabilityPolicy

/-- What is wrong with the memory limit of a node. -/
def nodeMemoryErrors (flowName nodeName : String) (node : NodeDef) : List ConfigParseError :=
  match node.maxMemory with
  | none => []
  | some raw =>
      memoryErrors file s!"flow.{flowName}.nodes.{nodeName}.max_memory"
        "a valid memory size (e.g., \"16MiB\", \"512KiB\")" raw

/-- What is wrong with the scheduling policy of a flow. -/
def flowPolicyErrors (name : String) (flow : FlowDef) : List ConfigParseError :=
  match flow.schedulingPolicy with
  | none => []
  | some policy =>
      nameErrors file s!"flow.{name}.scheduling_policy" validSchedulingPolicies
        "Use a supported scheduling policy." policy

/-- `validate_pipeline`. -/
def validatePipeline (pipeline : PipelineDefinition) : List ConfigParseError :=
  ((pipeline.runtime.map (validateRuntimeConfig file)).getD []) ++
  ((pipeline.observability.map (validateObservabilityConfig file)).getD []) ++
  ((pipeline.security.map (validateSecurityConfig file)).getD []) ++
  (pipeline.flows.entries.flatMap fun f =>
    f.2.nodes.entries.flatMap fun e => nodeMemoryErrors file f.1 e.1 e.2) ++
  pipeline.flows.entries.flatMap fun f => flowPolicyErrors file f.1 f.2

/-- `PipelineDefinition::validate`. -/
def PipelineDefinition.validate (pipeline : PipelineDefinition) : List ConfigParseError :=
  if pipeline.flows.entries = [] then [.missingField file "flow" "pipeline definition"]
  else pipeline.flows.entries.flatMap fun f => validateFlow file f.1 f.2

end Validation

/-! ## The check command -/

/-- The reader of TOML texts: the definition, or the error, which names the file. -/
abbrev TomlReader := String → String → Except ConfigParseError PipelineDefinition

/-- `PipelineDefinition::from_toml_str`. -/
def PipelineDefinition.fromTomlStr (read : TomlReader) (toml file : String) :
    Except (List ConfigParseError) PipelineDefinition :=
  match read toml file with
  | .error e => .error [e]
  | .ok pipeline =>
      let errors := pipeline.validate file
      if errors = [] then .ok pipeline else .error errors

/-- A finding of the check command. -/
structure CheckDiagnostic where
  severity : String
  code : String
  message : String
  location : Option String
  help : Option String
  deriving DecidableEq, Repr

/-- `flow_diagnostic`. -/
def flowDiagnostic (file : String) (error : ConfigParseError) : CheckDiagnostic where
  severity := "error"
  code := error.code
  message := if error.keyPath = "" then error.message
    else error.message ++ " (" ++ error.keyPath ++ ")"
  location := some file
  help := if error.suggestion = "" then none else some error.suggestion

/-- `check_flow_section`. -/
def checkFlowSection (read : TomlReader) (toml file : String) : List CheckDiagnostic :=
  match PipelineDefinition.fromTomlStr read toml file with
  | .error errors => errors.map (flowDiagnostic file)
  | .ok pipeline => (validatePipeline file pipeline).map (flowDiagnostic file)

/-! ## Components -/

/-- `Path::join` on the texts of paths. -/
def joinPath (base name : String) : String :=
  if startsWith name "/" then name
  else if base = "" ∨ endsWith base "/" then base ++ name
  else base ++ "/" ++ name

/-- Why a component reference has no artifact. -/
inductive ResolveError where
  | unknownComponent (requested : String) (declared : List String)
  | notBuilt (name expected : String)
  | unsupportedScheme (value : String)
  deriving DecidableEq, Repr

/-- How the error is displayed. -/
def ResolveError.display : ResolveError → String
  | .unknownComponent requested declared =>
      let names := ", ".intercalate declared
      s!"no component named '{requested}' is declared in the manifest" ++
        if declared = [] then
          s!". Add a [[component]] entry with name = \"{requested}\" and the path to " ++
            "its source, or reference the component directly as \"file://<path-to-.wasm>\""
        else s!". Declared components: {names}"
  | .notBuilt name expected =>
      s!"component '{name}' has not been built — no artifact at {expected}. " ++
        "Run `torvyn build` first"
  | .unsupportedScheme value =>
      s!"unsupported component reference scheme in '{value}'. Supported schemes are " ++
        "'file://<path>' and 'mock://<name>'; a bare name must match a [[component]] declaration"

/-- The declared components of a project. -/
structure ComponentIndex where
  projectRoot : String
  declared : KeyMap String String

namespace ComponentIndex

/-- `ComponentIndex::new`. -/
def new (projectRoot : String) (declarations : List ComponentDecl) : ComponentIndex :=
  ⟨projectRoot, KeyMap.collect (declarations.map fun decl => (decl.name, decl.path))⟩

/-- `declared_names`. -/
def declaredNames (index : ComponentIndex) : List String := index.declared.keys.mergeSort

/-- `artifact_path`. -/
def artifactPath (projectRoot componentName : String) : String :=
  joinPath (joinPath projectRoot ".torvyn/build") (componentName ++ ".wasm")

/-- `resolve`: which paths are files is read from outside. -/
def resolve (isFile : String → Bool) (index : ComponentIndex) (value : String) :
    Except ResolveError String :=
  if startsWith value "file://" ∨ startsWith value "mock://" then .ok value
  else if contains value "://" then .error (.unsupportedScheme value)
  else if value ∉ index.declared then .error (.unknownComponent value index.declaredNames)
  else
    let artifact := artifactPath index.projectRoot value
    if isFile artifact then .ok ("file://" ++ artifact) else .error (.notBuilt value artifact)

end ComponentIndex

/-! ## Configuring a node -/

/-- What a node runs with.  No definition sets a timeout or an error policy. -/
structure NodeConfig where
  fuelBudget : Option UInt64
  memoryLimit : Option UInt64
  priority : Option UInt8
  initConfig : Option String
  wasi : WasiConfiguration
  deriving DecidableEq, Repr

/-- `node_def_to_config`.  Sizes are those of a 64-bit platform, so that every size fits. -/
def nodeDefToConfig (node : NodeDef) : Except String NodeConfig :=
  let priority := node.priority.map fun p => (min p 10).toUInt8
  match node.maxMemory with
  | none => .ok ⟨node.fuelBudget, none, priority, node.config, .denyAll⟩
  | some raw =>
      match parseMemorySize raw with
      | .error reason => .error s!"max_memory: {reason}"
      | .ok bytes => .ok ⟨node.fuelBudget, some bytes, priority, node.config, .denyAll⟩

/-- The sandbox of a node: that of its grants, else the one it has. -/
def grantedWasi (lc : Lowercase) (security : SecurityConfig) (nodeName : String)
    (config : NodeConfig) : Except CapabilityParseError WasiConfiguration :=
  match security.grants.lookup nodeName with
  | none => .ok config.wasi
  | some grant => WasiConfiguration.fromGrantStrings lc grant.capabilities

/-- The body of the loop of `flow_def_to_topology` over the nodes, up to the builder. -/
def configureNode (lc : Lowercase) (isFile : String → Bool) (security : SecurityConfig)
    (components : ComponentIndex) (flowName nodeName : String) (node : NodeDef) :
    Except (List PipelineError) (NodeConfig × String) :=
  match nodeDefToConfig node with
  | .error reason =>
      .error [.subsystem "config" s!"flow '{flowName}', node '{nodeName}': {reason}"]
  | .ok config =>
      match grantedWasi lc security nodeName config with
      | .error e => .error [.sandboxConfigFailed flowName nodeName e.display]
      | .ok wasi =>
          match components.resolve isFile node.component with
          | .error e =>
              let reason := e.display
              .error [.subsystem "config" s!"flow '{flowName}', node '{nodeName}': {reason}"]
          | .ok componentRef => .ok ({ config with wasi := wasi }, componentRef)

/-- The grants that the host runs a manifest with. -/
def PipelineDefinition.grants (pipeline : PipelineDefinition) : SecurityConfig :=
  pipeline.security.getD .default

/-- The translation of a flow of a manifest, as the host starts it. -/
def PipelineDefinition.topologyOf (lc : Lowercase) (isFile : String → Bool) (root : String)
    (order : PortOrder) (pipeline : PipelineDefinition) (flowName : String) (flow : FlowDef) :
    Except (List PipelineError) PipelineTopology :=
  flowDefToTopology (fun nodeName node =>
    (configureNode lc isFile pipeline.grants (.new root pipeline.components) flowName nodeName
      node).map Prod.snd) order flowName flow

end Torvyn.Pipeline
