/-
# Resolving components

`resolve` of `torvyn-packaging/src/resolution.rs`: a component reference is taken for a file, looked
for among the artifacts that the project has built, and then in the cache.  Artifacts are built
under the name `{name}-{version}.torvyn`, and the first one whose file name begins with the
reference is taken.  `resolved_exact_iff` says when that is an artifact of the component asked for.

What the file system holds is read from outside, and so is what the `semver` crate accepts.
-/
import Torvyn.Packaging.Cache
import Torvyn.Packaging.Pack

namespace Torvyn.Packaging

open PathBuf

/-! ## Names and versions -/

/-- `semver::Version::parse`, as far as it is relied on: a version begins with a number and a full
stop, and is made of letters, digits and three marks. -/
structure SemverParser where
  accepts : String → Bool
  core : ∀ v, accepts v = true → ∃ major rest : String,
    v = major ++ "." ++ rest ∧ ∀ c ∈ major.toList, c.isDigit = true
  marks : ∀ v, accepts v = true → ∀ c ∈ v.toList, c.isAlphanum = true ∨ c ∈ ['.', '-', '+']

/-- `ManifestError`, as far as the validation constructs it. -/
inductive ManifestError where
  | missingField (path : PathBuf) (field : String)
  | invalidComponentName (name : String)
  | invalidVersion (path : PathBuf) (field value reason : String)
  deriving DecidableEq, Repr

/-- `ArtifactManifest`, as far as it is validated. -/
structure ArtifactManifest where
  name : String
  version : String
  minTorvynVersion : String
  packages : List String
  deriving DecidableEq, Repr

/-- A character of a component name. -/
def isNameChar (c : Char) : Bool := c.isAlphanum || c == '-' || c == '_'

/-- Whether `WitPackageRef::parse` succeeds. -/
def isWitPackageRef (s : String) : Bool :=
  match rsplitOnce s '@' with
  | none => false
  | some (nsName, version) =>
      match splitOnce nsName ':' with
      | none => false
      | some (ns, name) => ns ≠ "" && name ≠ "" && version ≠ ""

/-- `validate_with_path`. -/
def ArtifactManifest.validateWithPath (semver : SemverParser) (path : PathBuf)
    (manifest : ArtifactManifest) : Except ManifestError Unit :=
  if manifest.name = "" then .error (.missingField path "component.name")
  else if !manifest.name.toList.all isNameChar then .error (.invalidComponentName manifest.name)
  else if manifest.version = "" then .error (.missingField path "component.version")
  else if !semver.accepts manifest.version then
    .error (.invalidVersion path "component.version" manifest.version "not a valid semver string")
  else if !semver.accepts manifest.minTorvynVersion then
    .error (.invalidVersion path "compatibility.min-torvyn-version" manifest.minTorvynVersion
      "not a valid semver string")
  else
    match manifest.packages.find? fun package => !isWitPackageRef package with
    | some package =>
        .error (.invalidVersion path "contracts.packages" package
          "expected format: namespace:name@version")
    | none => .ok ()

/-- The name of an artifact without its extension. -/
def artifactStem (name version : String) : String := name ++ "-" ++ version

/-- The name that an artifact is packed under. -/
def artifactName (name version : String) : String := artifactStem name version ++ ".torvyn"

/-- `pack` writes an artifact under that name. -/
theorem artifactPath_of_packed {Manifest Archive : Type} {c : Codecs Manifest Archive}
    {input : PackInput} {sources : PackSources} {manifestToml : String} {outputDir : PathBuf}
    {output : PackOutput Archive}
    (h : packWithManifest c input sources manifestToml outputDir = .ok output) :
    ∃ manifest, c.manifestFromToml manifestToml = .ok manifest ∧ output.artifactPath =
      outputDir.join (fileName (artifactName (c.name manifest) (c.version manifest))) := by
  unfold packWithManifest at h
  obtain ⟨-, -, h⟩ := bind_eq_ok.mp h
  obtain ⟨manifest, hmanifest, h⟩ := bind_eq_ok.mp h
  obtain ⟨wasmBytes, -, h⟩ := bind_eq_ok.mp h
  obtain ⟨-, -, h⟩ := bind_eq_ok.mp h
  obtain ⟨witFiles, -, h⟩ := bind_eq_ok.mp h
  dsimp only at h
  split at h
  · cases h
  obtain ⟨json, -, h⟩ := bind_eq_ok.mp h
  obtain ⟨entries, -, h⟩ := bind_eq_ok.mp h
  obtain rfl := Except.ok.inj h
  exact ⟨manifest, mapError_eq_ok.mp hmanifest, rfl⟩

/-! ## References -/

/-- `split_registry_repo`. -/
def splitRegistryRepo (s : String) : Option (String × String) :=
  match splitOnce s '/' with
  | none => none
  | some (registry, repo) => if registry = "" ∨ repo = "" then none else some (registry, repo)

/-- `OciReference::parse`. -/
def OciReference.parse (s : String) : Option OciReference :=
  let s := (stripPrefix s "oci://").getD s
  match splitOnce s '@' with
  | some (path, digest) =>
      (splitRegistryRepo path).map fun (registry, repository) =>
        ⟨registry, repository, none, some digest⟩
  | none =>
      match (rsplitOnce s ':').filter fun (_, tag) => '/' ∉ tag.toList with
      | some (path, tag) =>
          (splitRegistryRepo path).map fun (registry, repository) =>
            ⟨registry, repository, some tag, none⟩
      | none =>
          (splitRegistryRepo s).map fun (registry, repository) =>
            ⟨registry, repository, none, none⟩

/-! ## Resolution -/

/-- What the file system tells: whether there is something at a path, and what a directory holds,
in the order in which it is listed.  An entry that cannot be read is `none`. -/
structure LocalFiles where
  exist : PathBuf → Bool
  readDir : PathBuf → Option (List (Option OsString))

/-- Where a resolved artifact came from. -/
inductive ResolutionSource where
  | filePath
  | localBuild
  | cache
  | registry
  deriving DecidableEq, Repr

/-- A resolved artifact with its source. -/
structure ResolvedArtifact where
  source : ResolutionSource
  path : PathBuf
  deriving DecidableEq, Repr

/-- `ResolutionError`, as far as it is constructed here. -/
inductive ResolutionError where
  | notFound (reference : String)
  deriving DecidableEq, Repr

/-- The directory of the artifacts that a project has built. -/
def buildDir (project : PathBuf) : PathBuf :=
  (project.join (fileName "target")).join (fileName "torvyn")

/-- The file is an artifact whose name begins with the reference. -/
def matchesReference (reference : String) (name : OsString) : Bool :=
  extensionOf name = some (fileName "torvyn") &&
    startsWith (Utf8.decodeLossy (stemOf name)) reference

/-- The local build output: the first file that matches. -/
def resolveLocal (files : LocalFiles) (project : PathBuf) (reference : String) : Option PathBuf :=
  if files.exist (buildDir project) then
    ((((files.readDir (buildDir project)).getD []).filterMap id).find?
      (matchesReference reference)).map (buildDir project).join
  else none

/-- `is_cached`. -/
def isCached (files : LocalFiles) (root : PathBuf) (reference : OciReference) : Bool :=
  files.exist ((artifactDir root reference).join (fileName "Torvyn.toml"))

/-- `resolve`, with the root of the cache. -/
def resolve (files : LocalFiles) (reference : String) (projectDir : Option PathBuf)
    (root : PathBuf) : Except ResolutionError ResolvedArtifact :=
  match stripPrefix reference "file://" with
  | some pathStr =>
      let path := PathBuf.parse (fileName pathStr)
      if files.exist path then .ok ⟨.filePath, path⟩ else .error (.notFound reference)
  | none =>
      match projectDir.bind fun project => resolveLocal files project reference with
      | some path => .ok ⟨.localBuild, path⟩
      | none =>
          match (OciReference.parse reference).filter (isCached files root) with
          | some oci => .ok ⟨.cache, artifactDir root oci⟩
          | none => .error (.notFound reference)

/-! ## The names of artifacts -/

/-- A manifest that is packed: it has passed the validation. -/
structure Artifact (semver : SemverParser) where
  manifest : ArtifactManifest
  source : PathBuf
  valid : manifest.validateWithPath semver source = .ok ()

namespace Artifact

variable {semver : SemverParser} {a b : Artifact semver}

/-- The component that the artifact is packed for. -/
def name (a : Artifact semver) : String := a.manifest.name

/-- The name of the artifact file without its extension. -/
def stem (a : Artifact semver) : String := artifactStem a.manifest.name a.manifest.version

/-- The name of the artifact file. -/
def fileName (a : Artifact semver) : OsString :=
  Packaging.fileName (artifactName a.manifest.name a.manifest.version)

/-- What the validation leaves of names and versions. -/
theorem accepted (a : Artifact semver) :
    a.name ≠ "" ∧ (∀ c ∈ a.name.toList, isNameChar c = true) ∧
      semver.accepts a.manifest.version = true := by
  have h := a.valid
  rw [ArtifactManifest.validateWithPath] at h
  split_ifs at h with hempty hchars hversion hsemver
  simp only [Bool.not_eq_true, Bool.not_eq_false', List.all_eq_true] at hchars hsemver
  exact ⟨hempty, hchars, hsemver⟩

theorem not_mem_name {c : Char} (hc : isNameChar c = false) : c ∉ a.name.toList := by
  intro hmem
  rw [a.accepted.2.1 c hmem] at hc
  cases hc

/-- The file name tells for which component the artifact is packed: the version begins behind the
last hyphen before the first full stop. -/
theorem name_eq_of_stem_eq (h : a.stem = b.stem) : a.name = b.name := by
  have hsplit : ∀ x : Artifact semver, ((splitOnce x.stem '.').bind fun parts =>
      (rsplitOnce parts.1 '-').map Prod.fst) = some x.name := by
    intro x
    obtain ⟨major, rest, hversion, hdigits⟩ := semver.core _ x.accepted.2.2
    have hmajor : ∀ {c : Char}, c.isDigit = false → c ∉ major.toList := by
      intro c hc hmem
      rw [hdigits c hmem] at hc
      cases hc
    have hdot : splitOnce x.stem '.' = some (x.name ++ "-" ++ major, rest) := by
      apply splitOnce_eq
      · rw [stem, artifactStem, hversion]
        simp [name]
      · simp [x.not_mem_name (c := '.') (by decide), hmajor (c := '.') (by decide)]
    rw [hdot, Option.bind_some, rsplitOnce_eq (a := x.name) (b := major) (by simp)
      (hmajor (by decide)), Option.map_some]
  have hsame := hsplit a
  rw [h, hsplit b] at hsame
  exact (Option.some.inj hsame).symm

theorem stem_ne_nil (a : Artifact semver) : Packaging.fileName a.stem ≠ [] := by
  have hhyphen : Utf8.encode "-" ≠ [] := by decide
  rw [Packaging.fileName, stem, artifactStem, Utf8.encode_append, Utf8.encode_append]
  simp [hhyphen]

theorem fileName_eq (a : Artifact semver) :
    a.fileName = Packaging.fileName a.stem ++ dot :: Packaging.fileName "torvyn" := by
  rw [fileName, Packaging.fileName, artifactName, Utf8.encode_append]
  rfl

theorem stem_eq_of_fileName_eq (h : a.fileName = b.fileName) : a.stem = b.stem := by
  rw [a.fileName_eq, b.fileName_eq] at h
  exact Utf8.encode_injective (List.append_cancel_right h)

/-- The name of an artifact file is one component. -/
theorem plain_fileName (a : Artifact semver) : Plain a.fileName := by
  have hsep : separator ∉ a.fileName := by
    intro hmem
    have hslash := Utf8.mem_of_mem_encode (c := '/') (by decide) hmem
    simp only [artifactName, artifactStem, String.toList_append, List.mem_append] at hslash
    rcases hslash with ((hname | hhyphen) | hversion) | hextension
    · exact a.not_mem_name (by decide) hname
    · exact absurd hhyphen (by decide)
    · have hmark := semver.marks _ a.accepted.2.2 _ hversion
      exact absurd hmark (by decide)
    · exact absurd hextension (by decide)
  have hlength : 7 < a.fileName.length := by
    have hpos := List.length_pos_of_ne_nil a.stem_ne_nil
    have htorvyn : (Packaging.fileName "torvyn").length = 6 := by decide
    rw [a.fileName_eq, List.length_append, List.length_cons, htorvyn]
    omega
  refine ⟨LexicalPath.components_eq_singleton hsep ?_ ?_, ?_⟩
  · rintro h
    simp [h] at hlength
  · rintro h
    simp [h] at hlength
  · rintro h
    simp [h, up] at hlength

/-- An artifact matches a reference when its name and version begin with it. -/
theorem matches_fileName (a : Artifact semver) (reference : String) :
    matchesReference reference a.fileName = startsWith a.stem reference := by
  have hdot : dot ∉ Packaging.fileName "torvyn" := by decide
  rw [matchesReference, a.fileName_eq, extensionOf_append a.stem_ne_nil hdot,
    stemOf_append a.stem_ne_nil hdot]
  simp [Packaging.fileName, Utf8.decodeLossy_encode]

/-- An artifact matches the name of its component. -/
theorem startsWith_name (a : Artifact semver) : startsWith a.stem a.name = true := by
  rw [startsWith, stem, artifactStem, List.isPrefixOf_iff_prefix, String.append_assoc,
    String.toList_append]
  exact List.prefix_append _ _

end Artifact

/-! ## The first match -/

section Resolved

variable {semver : SemverParser} {files : LocalFiles} {project root : PathBuf}
  {artifacts : List (Artifact semver)} {reference : String}

/-- The project has built the artifacts, which are listed in this order. -/
structure Built (files : LocalFiles) (project : PathBuf) (artifacts : List (Artifact semver)) :
    Prop where
  exist : files.exist (buildDir project) = true
  listed : files.readDir (buildDir project) = some (artifacts.map fun a => some a.fileName)

theorem Built.resolveLocal_eq (h : Built files project artifacts) (reference : String) :
    resolveLocal files project reference =
      (artifacts.find? fun a => startsWith a.stem reference).map fun a =>
        (buildDir project).join a.fileName := by
  have hnames : (artifacts.map fun a => some a.fileName).filterMap id =
      artifacts.map Artifact.fileName := by
    rw [List.filterMap_map, ← List.filterMap_eq_map]
    rfl
  have hmatches : matchesReference reference ∘ Artifact.fileName =
      fun a : Artifact semver => startsWith a.stem reference :=
    funext fun a => a.matches_fileName reference
  rw [resolveLocal, if_pos h.exist, h.listed, Option.getD_some, hnames, List.find?_map, hmatches,
    Option.map_map]
  rfl

/-- A plain reference is the name of a component. -/
def PlainReference (reference : String) : Prop :=
  reference ≠ "" ∧ reference.toList.all isNameChar = true

theorem PlainReference.no_scheme (h : PlainReference reference) :
    stripPrefix reference "file://" = none := by
  rw [Option.eq_none_iff_forall_ne_some]
  intro rest hrest
  have hcolon : ':' ∈ reference.toList := by
    rw [stripPrefix_eq_some_iff.mp hrest, String.toList_append]
    exact List.mem_append_left _ (by decide)
  exact absurd (List.all_eq_true.mp h.2 ':' hcolon) (by decide)

/-- An artifact of the project is found for a plain reference exactly when the local build has
it. -/
theorem resolve_localBuild_iff (h : PlainReference reference) {path : PathBuf} :
    resolve files reference (some project) root = .ok ⟨.localBuild, path⟩ ↔
      resolveLocal files project reference = some path := by
  rw [resolve, h.no_scheme]
  dsimp only
  rw [Option.bind_some]
  rcases resolveLocal files project reference with _ | found
  · rcases (OciReference.parse reference).filter (isCached files root) with _ | oci <;> simp
  · simp

/-- What is resolved to the local build is an artifact of the component asked for. -/
def ResolvedExactly (files : LocalFiles) (project root : PathBuf)
    (artifacts : List (Artifact semver)) (reference : String) : Prop :=
  ∀ path, resolve files reference (some project) root = .ok ⟨.localBuild, path⟩ →
    ∃ a ∈ artifacts, a.name = reference ∧ path = (buildDir project).join a.fileName

/-- **Local resolution takes an artifact of the component asked for exactly when** every artifact
of another component whose file name begins with the reference is listed after one of its own. -/
theorem resolved_exact_iff (hplain : PlainReference reference)
    (hbuilt : Built files project artifacts) :
    ResolvedExactly files project root artifacts reference ↔
      ∀ earlier other later, artifacts = earlier ++ other :: later → other.name ≠ reference →
        startsWith other.stem reference = true → ∃ own ∈ earlier, own.name = reference := by
  simp only [ResolvedExactly, resolve_localBuild_iff hplain, hbuilt.resolveLocal_eq]
  constructor
  · intro h earlier other later hsplit hother hmatch
    -- the artifact that is found is an own one, and so it is not the other
    have hown : ∀ a, (artifacts.find? fun a => startsWith a.stem reference) = some a →
        a.name = reference := by
      intro a ha
      obtain ⟨b, -, hb, hpath⟩ := h _ (Option.map_eq_some_iff.mpr ⟨a, ha, rfl⟩)
      have hname := join_injective a.plain_fileName b.plain_fileName hpath
      rw [Artifact.name_eq_of_stem_eq (Artifact.stem_eq_of_fileName_eq hname), hb]
    rw [hsplit, List.find?_append] at hown
    rcases hfound : earlier.find? fun a => startsWith a.stem reference with _ | own
    · simp only [hfound, Option.none_or, List.find?_cons, hmatch] at hown
      exact absurd (hown other rfl) hother
    · rw [hfound, Option.some_or] at hown
      exact ⟨own, List.mem_of_find?_eq_some hfound, hown own rfl⟩
  · intro h path hpath
    obtain ⟨a, ha, rfl⟩ := Option.map_eq_some_iff.mp hpath
    refine ⟨a, List.mem_of_find?_eq_some ha, ?_, rfl⟩
    obtain ⟨hmatch, earlier, later, hsplit, hnone⟩ := List.find?_eq_some_iff_append.mp ha
    by_contra hother
    obtain ⟨own, hown, rfl⟩ := h earlier a later hsplit hother hmatch
    have hskipped := hnone own hown
    rw [own.startsWith_name] at hskipped
    cases hskipped

end Resolved

/-! ## A name that begins with another -/

section Sample

/-- A parser that knows one version. -/
def sampleSemver : SemverParser where
  accepts v := v == "1.0.0"
  core v h := by
    obtain rfl := eq_of_beq h
    exact ⟨"1", "0.0", by decide, by simp⟩
  marks v h := by
    obtain rfl := eq_of_beq h
    simp

/-- A parser of JSON. -/
def jsonParser : Artifact sampleSemver where
  manifest := ⟨"json-parser", "1.0.0", "1.0.0", []⟩
  source := .parse (fileName "Torvyn.toml")
  valid := by decide

/-- A component whose name the other one begins with. -/
def json : Artifact sampleSemver where
  manifest := ⟨"json", "1.0.0", "1.0.0", []⟩
  source := .parse (fileName "Torvyn.toml")
  valid := by decide

/-- A project in `/work` that has built the artifacts. -/
def sampleFiles (artifacts : List (Artifact sampleSemver)) : LocalFiles where
  exist path := path = buildDir (.parse (fileName "/work"))
  readDir path :=
    if path = buildDir (.parse (fileName "/work")) then
      some (artifacts.map fun a => some a.fileName)
    else none

theorem sample_built (artifacts : List (Artifact sampleSemver)) :
    Built (sampleFiles artifacts) (.parse (fileName "/work")) artifacts where
  exist := by simp [sampleFiles]
  listed := by simp [sampleFiles]

/-- A reference to a component that has not been built is resolved to the artifact of another
one. -/
theorem json_taken_for_other :
    resolve (sampleFiles [jsonParser]) "json" (some (.parse (fileName "/work")))
        (.parse (fileName "/cache")) =
      .ok ⟨.localBuild, (buildDir (.parse (fileName "/work"))).join jsonParser.fileName⟩ ∧
    ¬ ResolvedExactly (sampleFiles [jsonParser]) (.parse (fileName "/work"))
      (.parse (fileName "/cache")) [jsonParser] "json" := by
  have hresolved : resolve (sampleFiles [jsonParser]) "json" (some (.parse (fileName "/work")))
      (.parse (fileName "/cache")) =
        .ok ⟨.localBuild, (buildDir (.parse (fileName "/work"))).join jsonParser.fileName⟩ := by
    rw [resolve_localBuild_iff ⟨by decide, by decide⟩, (sample_built _).resolveLocal_eq]
    rfl
  refine ⟨hresolved, fun h => ?_⟩
  obtain ⟨a, ha, hname, -⟩ := h _ hresolved
  rw [List.mem_singleton.mp ha] at hname
  exact absurd hname (by decide)

/-- When the component itself is listed first, it is taken. -/
theorem json_resolved :
    ResolvedExactly (sampleFiles [json, jsonParser]) (.parse (fileName "/work"))
      (.parse (fileName "/cache")) [json, jsonParser] "json" := by
  refine (resolved_exact_iff ⟨by decide, by decide⟩ (sample_built _)).mpr ?_
  intro earlier other later hsplit hother _
  rcases earlier with _ | ⟨first, earlier⟩
  · rw [List.nil_append, List.cons.injEq] at hsplit
    exact absurd (hsplit.1 ▸ rfl) hother
  · rw [List.cons_append, List.cons.injEq] at hsplit
    exact ⟨json, by rw [hsplit.1]; exact List.mem_cons_self, rfl⟩

end Sample

end Torvyn.Packaging
