/-
# Provenance records

`torvyn-packaging/src/provenance.rs`.  A record is kept in an artifact as an in-toto statement, whose
parameters are JSON values.  `ofStatement_toStatement_iff` says which records come back from
their statements.
-/
import Torvyn.Text

namespace Torvyn.Packaging

/-! ## Records and statements -/

/-- Source code information. -/
structure SourceInfo where
  repo : Option String
  gitRef : Option String
  commitDigest : Option String
  deriving DecidableEq, Repr

/-- Builder identity. -/
structure BuilderInfo where
  id : String
  deriving DecidableEq, Repr

/-- Internal build parameters. -/
structure BuildInternalParams where
  torvynCliVersion : String
  buildTool : String
  buildToolVersion : String
  languageVersion : Option String
  witPackages : List String
  deriving DecidableEq, Repr

/-- SLSA-compatible build provenance record. -/
structure ProvenanceRecord where
  subjectName : String
  subjectDigest : String
  buildType : String
  source : SourceInfo
  builder : BuilderInfo
  buildStarted : String
  buildFinished : String
  internalParams : BuildInternalParams
  deriving DecidableEq, Repr

/-- A JSON value; numbers and truth values are kept as their texts. -/
inductive Value where
  | null
  | scalar (text : String)
  | string (text : String)
  | array (items : List Value)
  | object (fields : List (String × Value))
  deriving Repr

namespace Value

/-- `as_str`. -/
def asStr : Value → Option String
  | string text => some text
  | _ => none

/-- `as_array`. -/
def asArray : Value → Option (List Value)
  | array items => some items
  | _ => none

/-- `get`: the field of an object. -/
def get (value : Value) (key : String) : Option Value :=
  match value with
  | object fields => fields.lookup key
  | _ => none

/-- A text that may be missing, as a value. -/
def ofOption : Option String → Value
  | some text => string text
  | none => null

/-- Texts as a value. -/
def ofTexts (texts : List String) : Value := array (texts.map string)

end Value

/-- An in-toto subject, with its digests by algorithm. -/
structure InTotoSubject where
  name : String
  digest : List (String × String)
  deriving DecidableEq, Repr

/-- SLSA build definition. -/
structure SlsaBuildDefinition where
  buildType : String
  externalParameters : Value
  internalParameters : Value

/-- SLSA build metadata. -/
structure SlsaMetadata where
  invocationId : Option String
  startedOn : String
  finishedOn : String

/-- SLSA run details; the builder is known by its identifier. -/
structure SlsaRunDetails where
  builder : String
  metadata : SlsaMetadata

/-- Full SLSA in-toto statement. -/
structure InTotoStatement where
  statementType : String
  subject : List InTotoSubject
  predicateType : String
  buildDefinition : SlsaBuildDefinition
  runDetails : SlsaRunDetails

namespace ProvenanceRecord

/-- The statement of a record, as `to_intoto_json` makes it. -/
def toStatement (record : ProvenanceRecord) : InTotoStatement where
  statementType := "https://in-toto.io/Statement/v1"
  subject := [⟨record.subjectName,
    [("sha256", (stripPrefix record.subjectDigest "sha256:").getD record.subjectDigest)]⟩]
  predicateType := "https://slsa.dev/provenance/v1"
  buildDefinition :=
    { buildType := record.buildType
      externalParameters := .object
        [("source_digest", .ofOption record.source.commitDigest),
          ("source_ref", .ofOption record.source.gitRef),
          ("source_repo", .ofOption record.source.repo)]
      internalParameters := .object
        [("build_tool", .string record.internalParams.buildTool),
          ("build_tool_version", .string record.internalParams.buildToolVersion),
          ("language_version", .ofOption record.internalParams.languageVersion),
          ("torvyn_cli_version", .string record.internalParams.torvynCliVersion),
          ("wit_packages", .ofTexts record.internalParams.witPackages)] }
  runDetails := ⟨record.builder.id, ⟨none, record.buildStarted, record.buildFinished⟩⟩

/-- The record of a statement, as `from_intoto_json` reads it. -/
def ofStatement (statement : InTotoStatement) : ProvenanceRecord :=
  let subject := statement.subject.head?
  let parameters := statement.buildDefinition.internalParameters
  let source := statement.buildDefinition.externalParameters
  { subjectName := (subject.map (·.name)).getD ""
    subjectDigest :=
      ((subject.bind (·.digest.lookup "sha256")).map ("sha256:" ++ ·)).getD ""
    buildType := statement.buildDefinition.buildType
    source :=
      { repo := (source.get "source_repo").bind Value.asStr
        gitRef := (source.get "source_ref").bind Value.asStr
        commitDigest := (source.get "source_digest").bind Value.asStr }
    builder := ⟨statement.runDetails.builder⟩
    buildStarted := statement.runDetails.metadata.startedOn
    buildFinished := statement.runDetails.metadata.finishedOn
    internalParams :=
      { torvynCliVersion := ((parameters.get "torvyn_cli_version").bind Value.asStr).getD ""
        buildTool := ((parameters.get "build_tool").bind Value.asStr).getD ""
        buildToolVersion := ((parameters.get "build_tool_version").bind Value.asStr).getD ""
        languageVersion := (parameters.get "language_version").bind Value.asStr
        witPackages := (((parameters.get "wit_packages").bind Value.asArray).map
          (·.filterMap Value.asStr)).getD [] } }

/-! ## The round trip -/

theorem asStr_ofOption (text : Option String) : (Value.ofOption text).asStr = text := by
  cases text <;> rfl

theorem filterMap_asStr (texts : List String) :
    (texts.map Value.string).filterMap Value.asStr = texts := by
  induction texts with
  | nil => rfl
  | cons text texts ih => exact congrArg (text :: ·) ih

/-- Everything comes back but the digest, which comes back with the prefix. -/
theorem ofStatement_toStatement (record : ProvenanceRecord) :
    ofStatement record.toStatement = { record with
      subjectDigest :=
        "sha256:" ++ (stripPrefix record.subjectDigest "sha256:").getD record.subjectDigest } := by
  have hsource : (ofStatement record.toStatement).source = record.source := by
    show SourceInfo.mk (Value.ofOption _).asStr (Value.ofOption _).asStr
      (Value.ofOption _).asStr = _
    rw [asStr_ofOption, asStr_ofOption, asStr_ofOption]
  have hparams : (ofStatement record.toStatement).internalParams = record.internalParams := by
    show BuildInternalParams.mk _ _ _ (Value.ofOption _).asStr
      ((List.map Value.string _).filterMap Value.asStr) = _
    rw [asStr_ofOption, filterMap_asStr]
    rfl
  calc ofStatement record.toStatement
      = { record with
          subjectDigest :=
            "sha256:" ++ (stripPrefix record.subjectDigest "sha256:").getD record.subjectDigest
          source := (ofStatement record.toStatement).source
          internalParams := (ofStatement record.toStatement).internalParams } := rfl
    _ = _ := by rw [hsource, hparams]

/-- **A record comes back** exactly when its digest names its algorithm. -/
theorem ofStatement_toStatement_iff {record : ProvenanceRecord} :
    ofStatement record.toStatement = record ↔ startsWith record.subjectDigest "sha256:" := by
  have hdigest : ofStatement record.toStatement = record ↔
      "sha256:" ++ (stripPrefix record.subjectDigest "sha256:").getD record.subjectDigest =
        record.subjectDigest := by
    rw [ofStatement_toStatement]
    constructor
    · intro h
      exact congrArg subjectDigest h
    · intro h
      rw [h]
  rw [hdigest]
  constructor
  · intro h
    rw [← h]
    simp [startsWith]
  · intro h
    obtain ⟨rest, hrest⟩ : ∃ rest, stripPrefix record.subjectDigest "sha256:" = some rest := by
      rw [stripPrefix, if_pos h]
      exact ⟨_, rfl⟩
    rw [hrest]
    exact (stripPrefix_eq_some_iff.mp hrest).symm

end ProvenanceRecord

end Torvyn.Packaging
