/-
# Packing

`pack_with_manifest` of `torvyn-packaging/src/artifact.rs`.  The WIT files of a component are
collected from a directory tree, keyed by the texts of their paths, and become entries of an
archive with the other layers.
-/
import Torvyn.Packaging.Artifact
import Torvyn.Packaging.Provenance

namespace Torvyn.Packaging

open PathBuf

/-! ## Directory trees -/

/-- What `read_dir` goes through, in its order.  `broken` is where it fails; a file that cannot be
read has no content. -/
inductive WitTree where
  | done
  | broken
  | file (name : OsString) (content : Option (List UInt8)) (rest : WitTree)
  | dir (name : OsString) (entries rest : WitTree)

namespace WitTree

/-- The names in a directory. -/
def names : WitTree → List OsString
  | done | broken => []
  | file name _ rest => name :: rest.names
  | dir name _ rest => name :: rest.names

/-- Names are plain, and differ within a directory. -/
def WellFormed : WitTree → Prop
  | done | broken => True
  | file name _ rest => Plain name ∧ name ∉ rest.names ∧ rest.WellFormed
  | dir name entries rest =>
      Plain name ∧ name ∉ rest.names ∧ entries.WellFormed ∧ rest.WellFormed

/-- A name with the extension of WIT files. -/
def IsWit (name : OsString) : Prop := extensionOf name = some (fileName "wit")

instance (name : OsString) : Decidable (IsWit name) := inferInstanceAs (Decidable (_ = _))

/-- The WIT files at any depth, with their paths from a directory. -/
def files (relative : List OsString) : WitTree → List (List OsString × Option (List UInt8))
  | done | broken => []
  | file name content rest =>
      if IsWit name then (relative ++ [name], content) :: rest.files relative
      else rest.files relative
  | dir name entries rest => entries.files (relative ++ [name]) ++ rest.files relative

end WitTree

/-- A directory with the contracts of a component. -/
structure WitDir where
  tree : WitTree
  wellFormed : tree.WellFormed

/-- The key of a path: the texts of its components, with slashes between them. -/
def keyOf (relative : List OsString) : String :=
  "/".intercalate (relative.map Utf8.decodeLossy)

/-- `collect_wit_files_into`. -/
def collectWitFilesInto (dir : PathBuf) (relative : List OsString) :
    WitTree → KeyMap String String → Except ArtifactError (KeyMap String String)
  | .done, files => .ok files
  | .broken, _ => .error (.io dir)
  | .file name content rest, files =>
      if WitTree.IsWit name then
        match content.bind Utf8.decode with
        | some text =>
            collectWitFilesInto dir relative rest (files.insert (keyOf (relative ++ [name])) text)
        | none => .error (.io (dir.join name))
      else collectWitFilesInto dir relative rest files
  | .dir name entries rest, files =>
      match collectWitFilesInto (dir.join name) (relative ++ [name]) entries files with
      | .ok files => collectWitFilesInto dir relative rest files
      | .error e => .error e

/-- `collect_wit_files`. -/
def collectWitFiles (dir : PathBuf) (tree : WitTree) :
    Except ArtifactError (KeyMap String String) := collectWitFilesInto dir [] tree ∅

/-! ## What is collected -/

/-- A file with its key and its text. -/
def keyed (file : List OsString × Option (List UInt8)) : String × String :=
  (keyOf file.1, (file.2.bind Utf8.decode).getD "")

/-- **What is collected** are the WIT files, and each of them is a text. -/
theorem collectWitFilesInto_ok {dir : PathBuf} {relative : List OsString} {tree : WitTree}
    {found result : KeyMap String String}
    (h : collectWitFilesInto dir relative tree found = .ok result) :
    (∀ file ∈ tree.files relative, ∃ text, file.2 = some (Utf8.encode text)) ∧
      result = ((tree.files relative).map keyed).foldl (fun m file => m.insert file.1 file.2)
        found := by
  induction tree generalizing dir relative found result with
  | done =>
    obtain rfl := Except.ok.inj h
    exact ⟨nofun, rfl⟩
  | broken => cases h
  | file name content rest ih =>
    rw [collectWitFilesInto] at h
    rw [WitTree.files]
    by_cases hwit : WitTree.IsWit name
    · rw [if_pos hwit] at h ⊢
      cases htext : content.bind Utf8.decode with
      | none =>
        rw [htext] at h
        cases h
      | some text =>
        rw [htext] at h
        obtain ⟨htexts, hresult⟩ := ih h
        obtain ⟨bytes, rfl, hbytes⟩ := Option.bind_eq_some_iff.mp htext
        refine ⟨List.forall_mem_cons.mpr ⟨⟨text, ?_⟩, htexts⟩, ?_⟩
        · rw [Utf8.decode_eq_some_iff.mp hbytes]
        · rw [hresult, List.map_cons, List.foldl_cons, keyed, htext]
          rfl
    · rw [if_neg hwit] at h ⊢
      exact ih h
  | dir name entries rest ihEntries ihRest =>
    rw [collectWitFilesInto] at h
    rw [WitTree.files]
    cases hentries : collectWitFilesInto (dir.join name) (relative ++ [name]) entries found with
    | error e =>
      rw [hentries] at h
      cases h
    | ok inner =>
      rw [hentries] at h
      obtain ⟨htexts, rfl⟩ := ihEntries hentries
      obtain ⟨htextsRest, rfl⟩ := ihRest h
      refine ⟨List.forall_mem_append.mpr ⟨htexts, htextsRest⟩, ?_⟩
      rw [List.map_append, List.foldl_append]

namespace WitTree

/-- The path of a WIT file starts with a name of the directory, has plain names, and ends with
the extension. -/
theorem path_of_mem_files {tree : WitTree} (hwf : tree.WellFormed) {relative : List OsString}
    {file : List OsString × Option (List UInt8)} (h : file ∈ tree.files relative) :
    ∃ name ∈ tree.names, ∃ below, file.1 = relative ++ name :: below ∧
      (∀ part ∈ name :: below, Plain part) ∧
      IsWit ((name :: below).getLast (List.cons_ne_nil name below)) := by
  induction tree generalizing relative with
  | done | broken => cases h
  | file name content rest ih =>
    obtain ⟨hplain, -, hrest⟩ := hwf
    rw [files] at h
    by_cases hwit : IsWit name
    · rw [if_pos hwit] at h
      rcases List.mem_cons.mp h with rfl | h
      · exact ⟨name, List.mem_cons_self, [], rfl, List.forall_mem_singleton.mpr hplain, hwit⟩
      · obtain ⟨other, hother, hpath⟩ := ih hrest h
        exact ⟨other, List.mem_cons_of_mem name hother, hpath⟩
    · rw [if_neg hwit] at h
      obtain ⟨other, hother, hpath⟩ := ih hrest h
      exact ⟨other, List.mem_cons_of_mem name hother, hpath⟩
  | dir name entries rest ihEntries ihRest =>
    obtain ⟨hplain, -, hentries, hrest⟩ := hwf
    rw [files] at h
    rcases List.mem_append.mp h with h | h
    · obtain ⟨inner, -, below, hpath, hparts, hwit⟩ := ihEntries hentries h
      refine ⟨name, List.mem_cons_self, inner :: below, ?_, ?_, ?_⟩
      · rw [hpath, List.append_assoc]
        rfl
      · exact List.forall_mem_cons.mpr ⟨hplain, hparts⟩
      · rw [List.getLast_cons (List.cons_ne_nil inner below)]
        exact hwit
    · obtain ⟨other, hother, hpath⟩ := ihRest hrest h
      exact ⟨other, List.mem_cons_of_mem name hother, hpath⟩

/-- A path below one name is not the path of a file below others. -/
theorem not_mem_paths {tree : WitTree} (hwf : tree.WellFormed) {relative : List OsString}
    {name : OsString} (hname : name ∉ tree.names) (below : List OsString) :
    relative ++ name :: below ∉ (tree.files relative).map Prod.fst := by
  intro hmem
  obtain ⟨file, hfile, hpath⟩ := List.mem_map.mp hmem
  obtain ⟨other, hother, tail, heq, -⟩ := path_of_mem_files hwf hfile
  rw [heq] at hpath
  obtain ⟨rfl, -⟩ := List.cons.inj (List.append_cancel_left hpath)
  exact hname hother

/-- The WIT files have paths of their own. -/
theorem nodup_files {tree : WitTree} (hwf : tree.WellFormed) (relative : List OsString) :
    ((tree.files relative).map Prod.fst).Nodup := by
  induction tree generalizing relative with
  | done | broken => exact List.nodup_nil
  | file name content rest ih =>
    obtain ⟨-, hname, hrest⟩ := hwf
    rw [files]
    by_cases hwit : IsWit name
    · rw [if_pos hwit, List.map_cons, List.nodup_cons]
      exact ⟨not_mem_paths hrest hname [], ih hrest relative⟩
    · rw [if_neg hwit]
      exact ih hrest relative
  | dir name entries rest ihEntries ihRest =>
    obtain ⟨-, hname, hentries, hrest⟩ := hwf
    rw [files, List.map_append, List.nodup_append]
    refine ⟨ihEntries hentries _, ihRest hrest _, ?_⟩
    rintro path hpath other hother rfl
    obtain ⟨file, hfile, rfl⟩ := List.mem_map.mp hpath
    obtain ⟨inner, -, below, heq, -⟩ := path_of_mem_files hentries hfile
    rw [heq, List.append_assoc] at hother
    exact not_mem_paths hrest hname (inner :: below) hother

end WitTree

/-! ## Packing -/

/-- What TOML, JSON, tar, gzip and SHA-256 make of their input; an `Archive` is what an artifact
file contains. -/
structure Codecs (Manifest Archive : Type) where
  manifestFromToml : String → Except String Manifest
  manifestToToml : Manifest → Except String String
  name : Manifest → String
  version : Manifest → String
  statementFromStr : String → Except String InTotoStatement
  statementToString : InTotoStatement → Except String String
  ofBytes : List UInt8 → ContentDigest
  /-- The header of an entry takes its path. -/
  fits : OsString → Bool
  archive : List ArchiveEntry → Archive
  entries : Archive → List (Option ArchiveEntry)
  ofFile : Archive → ContentDigest
  size : Archive → ℕ

/-- The formats of the layers. -/
def Codecs.formats {Manifest Archive : Type} (c : Codecs Manifest Archive) :
    Formats Manifest ProvenanceRecord where
  manifestFromToml := c.manifestFromToml
  manifestToToml := c.manifestToToml
  provenanceFromIntoto json := (c.statementFromStr json).map ProvenanceRecord.ofStatement
  provenanceToIntoto record := c.statementToString record.toStatement
  ofBytes := c.ofBytes

/-- Input for artifact assembly. -/
structure PackInput where
  wasmPath : PathBuf
  manifestPath : PathBuf
  witDir : PathBuf
  provenance : ProvenanceRecord

/-- What lies at the paths of an input, if something does.  What cannot be read is `none`. -/
structure PackSources where
  wasm : Option (Option (List UInt8))
  manifest : Option (List UInt8)
  wit : Option WitDir

/-- Output from artifact assembly; `archive` is what has been written to the path. -/
structure PackOutput (Archive : Type) where
  artifactPath : PathBuf
  archive : Archive
  digest : ContentDigest
  layerDigests : KeyMap String ContentDigest
  sizeBytes : ℕ

/-- `validate_input_paths`. -/
def validateInputPaths (input : PackInput) (sources : PackSources) : Except ArtifactError Unit :=
  if sources.wasm.isNone then .error (.wasmBinaryNotFound input.wasmPath)
  else if sources.wit.isNone then .error (.noWitFiles input.witDir)
  else .ok ()

/-- `validate_wasm_component`. -/
def validateWasmComponent (data : List UInt8) (path : PathBuf) : Except ArtifactError Unit :=
  if data.length < 8 then
    .error (.invalidWasmBinary path "file too small to be a Wasm binary")
  else if data.take 4 ≠ [0, 97, 115, 109] then
    .error (.invalidWasmBinary path "missing Wasm magic bytes (\\0asm)")
  else .ok ()

/-- The entries of the archive. -/
def packEntries (wasmBytes manifestBytes provenanceBytes : List UInt8)
    (witFiles : KeyMap String String) : List ArchiveEntry :=
  [⟨fileName "component.wasm", wasmBytes⟩, ⟨fileName "Torvyn.toml", manifestBytes⟩] ++
  (inKeyOrder witFiles).map (fun file => ⟨fileName ("wit/" ++ file.1), Utf8.encode file.2⟩) ++
  [⟨fileName "provenance.json", provenanceBytes⟩]

variable {Manifest Archive : Type} (c : Codecs Manifest Archive)

/-- `append_bytes_to_tar`. -/
def appendBytesToTar (entry : ArchiveEntry) : Except ArtifactError ArchiveEntry :=
  if c.fits entry.path then .ok entry else .error (.io (PathBuf.parse entry.path))

/-- `pack_with_manifest`, where the output can be written. -/
def packWithManifest (input : PackInput) (sources : PackSources) (manifestToml : String)
    (outputDir : PathBuf) : Except ArtifactError (PackOutput Archive) := do
  validateInputPaths input sources
  let manifestBytes := Utf8.encode manifestToml
  let manifest ← (c.manifestFromToml manifestToml).mapError
    (.corruptedArtifact input.manifestPath)
  let wasmBytes ← sources.wasm.join.elim (.error (.io input.wasmPath)) Except.ok
  validateWasmComponent wasmBytes input.wasmPath
  let witFiles ← sources.wit.elim (.error (.noWitFiles input.witDir)) fun dir =>
    collectWitFiles input.witDir dir.tree
  if witFiles.entries.isEmpty then .error (.noWitFiles input.witDir)
  let provenanceJson ← (c.statementToString input.provenance.toStatement).mapError fun e =>
    .corruptedArtifact (PathBuf.parse (fileName "provenance.json"))
      ("failed to serialize provenance: " ++ e)
  let provenanceBytes := Utf8.encode provenanceJson
  let digests := layerDigests c.formats wasmBytes manifestBytes (some provenanceBytes) witFiles
  let artifactName := c.name manifest ++ "-" ++ c.version manifest ++ ".torvyn"
  let entries ← (packEntries wasmBytes manifestBytes provenanceBytes witFiles).mapM
    (appendBytesToTar c)
  let archive := c.archive entries
  return ⟨outputDir.join (fileName artifactName), archive, c.ofFile archive, digests,
    c.size archive⟩

/-- `pack`: the manifest is read from its path. -/
def pack (input : PackInput) (sources : PackSources) (outputDir : PathBuf) :
    Except ArtifactError (PackOutput Archive) := do
  validateInputPaths input sources
  let manifestBytes ← sources.manifest.elim (.error (.io input.manifestPath)) Except.ok
  packWithManifest c input sources (Utf8.decodeLossy manifestBytes) outputDir

/-! ## What is packed -/

variable {c}

theorem bind_eq_ok {ε α β : Type} {x : Except ε α} {g : α → Except ε β} {b : β} :
    x >>= g = .ok b ↔ ∃ a, x = .ok a ∧ g a = .ok b := by
  cases x with
  | error e => exact iff_of_false nofun nofun
  | ok a => exact ⟨fun h => ⟨a, rfl, h⟩, fun ⟨_, ha, h⟩ => Except.ok.inj ha ▸ h⟩

theorem mapError_eq_ok {ε δ α : Type*} {x : Except ε α} {g : ε → δ} {a : α} :
    x.mapError g = .ok a ↔ x = .ok a := by
  cases x with
  | error e => exact iff_of_false nofun nofun
  | ok b => simp [Except.mapError]

/-- Entries that the archive takes are appended as they are. -/
theorem mapM_appendBytesToTar {entries result : List ArchiveEntry}
    (h : entries.mapM (appendBytesToTar c) = .ok result) :
    result = entries ∧ ∀ entry ∈ entries, c.fits entry.path = true := by
  induction entries generalizing result with
  | nil =>
    obtain rfl := Except.ok.inj h
    exact ⟨rfl, nofun⟩
  | cons entry entries ih =>
    rw [List.mapM_cons, bind_eq_ok] at h
    obtain ⟨first, hfirst, h⟩ := h
    obtain ⟨rest, hrest, h⟩ := bind_eq_ok.mp h
    obtain rfl := Except.ok.inj h
    obtain ⟨rfl, hfits⟩ := ih hrest
    rw [appendBytesToTar] at hfirst
    split at hfirst
    · rename_i hfit
      obtain rfl := Except.ok.inj hfirst
      exact ⟨rfl, List.forall_mem_cons.mpr ⟨hfit, hfits⟩⟩
    · cases hfirst

/-- What has been packed, of an input that is accepted. -/
structure Packed (c : Codecs Manifest Archive) (input : PackInput) (sources : PackSources)
    (manifestToml : String) (output : PackOutput Archive) (manifest : Manifest)
    (wasmBytes : List UInt8) (dir : WitDir) (witFiles : KeyMap String String) (json : String) :
    Prop where
  manifest : c.manifestFromToml manifestToml = .ok manifest
  wasm : sources.wasm = some (some wasmBytes)
  source : sources.wit = some dir
  collected : collectWitFiles input.witDir dir.tree = .ok witFiles
  provenance : c.statementToString input.provenance.toStatement = .ok json
  fits : ∀ entry ∈ packEntries wasmBytes (Utf8.encode manifestToml) (Utf8.encode json) witFiles,
    c.fits entry.path = true
  archive : output.archive = c.archive
    (packEntries wasmBytes (Utf8.encode manifestToml) (Utf8.encode json) witFiles)
  digests : output.layerDigests = layerDigests c.formats wasmBytes
    (Utf8.encode manifestToml) (some (Utf8.encode json)) witFiles

theorem packWithManifest_ok {input : PackInput} {sources : PackSources} {manifestToml : String}
    {outputDir : PathBuf} {output : PackOutput Archive}
    (h : packWithManifest c input sources manifestToml outputDir = .ok output) :
    ∃ manifest wasmBytes dir witFiles json,
      Packed c input sources manifestToml output manifest wasmBytes dir witFiles json := by
  unfold packWithManifest at h
  obtain ⟨-, -, h⟩ := bind_eq_ok.mp h
  obtain ⟨manifest, hmanifest, h⟩ := bind_eq_ok.mp h
  obtain ⟨wasmBytes, hwasm, h⟩ := bind_eq_ok.mp h
  obtain ⟨-, -, h⟩ := bind_eq_ok.mp h
  obtain ⟨witFiles, hwit, h⟩ := bind_eq_ok.mp h
  dsimp only at h
  split at h
  · cases h
  obtain ⟨json, hjson, h⟩ := bind_eq_ok.mp h
  obtain ⟨entries, hentries, h⟩ := bind_eq_ok.mp h
  obtain rfl := Except.ok.inj h
  obtain ⟨rfl, hfits⟩ := mapM_appendBytesToTar hentries
  rw [mapError_eq_ok] at hmanifest hjson
  obtain ⟨bytes, hsource, hbytes⟩ : ∃ bytes, sources.wasm = some (some bytes) ∧
      bytes = wasmBytes := by
    cases hsource : sources.wasm.join with
    | none =>
      rw [hsource] at hwasm
      cases hwasm
    | some bytes =>
      rw [hsource] at hwasm
      exact ⟨bytes, Option.join_eq_some_iff.mp hsource, Except.ok.inj hwasm⟩
  subst hbytes
  cases hdir : sources.wit with
  | none =>
    rw [hdir] at hwit
    cases hwit
  | some dir =>
    rw [hdir] at hwit
    exact ⟨manifest, bytes, dir, witFiles, json, hmanifest, hsource, hdir, hwit, hjson, hfits,
      rfl, rfl⟩

/-! ## The paths of contracts -/

/-- The paths of the files are texts. -/
def Texts (files : List (List OsString × Option (List UInt8))) : Prop :=
  ∀ file ∈ files, ∃ names : List String, file.1 = names.map Utf8.encode

theorem keyOf_encode (names : List String) :
    keyOf (names.map Utf8.encode) = "/".intercalate names := by
  rw [keyOf, List.map_map]
  congr 1
  exact List.map_id'' Utf8.decodeLossy_encode names

/-- The key of a path that is a text is the path. -/
theorem fileName_keyOf {path : List OsString} {names : List String}
    (h : path = names.map Utf8.encode) : fileName (keyOf path) = [separator].intercalate path := by
  subst h
  rw [keyOf_encode, fileName, Utf8.encode_intercalate]
  congr 1

/-- The name of a WIT file ends with its extension. -/
theorem suffix_of_isWit {name : OsString} (h : WitTree.IsWit name) :
    fileName ".wit" <:+ name := by
  have hdot : fileName ".wit" = dot :: fileName "wit" := by decide
  rw [hdot]
  exact suffix_of_extensionOf h

theorem getLast_suffix_intercalate {sep : OsString} {name : OsString} {names : List OsString} :
    (name :: names).getLast (List.cons_ne_nil name names) <:+ sep.intercalate (name :: names) := by
  induction names generalizing name with
  | nil => simp
  | cons next names ih =>
    rw [List.getLast_cons (List.cons_ne_nil next names), List.intercalate_cons_cons]
    exact ih.trans (List.suffix_append _ _)

/-- What is known of a WIT file whose path is a text. -/
structure Contract (file : List OsString × Option (List UInt8)) : Prop where
  plain : ∀ name ∈ file.1, Plain name
  ne_nil : file.1 ≠ []
  fileName_key : fileName (keyOf file.1) = [separator].intercalate file.1
  wit : endsWith (keyOf file.1) ".wit" = true

variable {tree : WitTree} {file : List OsString × Option (List UInt8)}

theorem contract_of_mem (hwf : tree.WellFormed) (htexts : Texts (tree.files []))
    (h : file ∈ tree.files []) : Contract file := by
  obtain ⟨name, -, below, hpath, hplain, hwit⟩ := WitTree.path_of_mem_files hwf h
  obtain ⟨names, hnames⟩ := htexts file h
  have hkey := fileName_keyOf hnames
  rw [List.nil_append] at hpath
  refine ⟨?_, ?_, hkey, ?_⟩
  · rw [hpath]
    exact hplain
  · rw [hpath]
    exact List.cons_ne_nil name below
  · rw [endsWith, List.isSuffixOf_iff_suffix]
    apply Utf8.suffix_of_encode_suffix
    show fileName ".wit" <:+ fileName (keyOf file.1)
    rw [hkey, hpath]
    exact (suffix_of_isWit hwit).trans getLast_suffix_intercalate

/-- Contracts with one key are one. -/
theorem path_eq_of_key {other : List OsString × Option (List UInt8)} (hfile : Contract file)
    (hother : Contract other) (h : keyOf file.1 = keyOf other.1) : file.1 = other.1 := by
  have hcomponents := congrArg (fun key => componentsOf (fileName key)) h
  simp only [hfile.fileName_key, hother.fileName_key] at hcomponents
  rwa [componentsOf_intercalate hfile.plain, componentsOf_intercalate hother.plain] at hcomponents

/-- **The collected files** are the contracts under their keys. -/
theorem lookup_collected_iff (hwf : tree.WellFormed) (htexts : Texts (tree.files []))
    {dir : PathBuf} {witFiles : KeyMap String String}
    (h : collectWitFiles dir tree = .ok witFiles) {key text : String} :
    witFiles.lookup key = some text ↔
      ∃ file ∈ tree.files [], key = keyOf file.1 ∧ file.2 = some (Utf8.encode text) := by
  obtain ⟨hdata, rfl⟩ := collectWitFilesInto_ok h
  have hdistinct : (((tree.files []).map keyed).map Prod.fst).Nodup := by
    rw [List.map_map]
    apply List.Nodup.map_on _ (WitTree.nodup_files hwf []).of_map
    intro file hfile other hother hkey
    have hpath := path_eq_of_key (contract_of_mem hwf htexts hfile)
      (contract_of_mem hwf htexts hother) hkey
    exact List.inj_on_of_nodup_map (WitTree.nodup_files hwf []) hfile hother hpath
  have hkeyed : ∀ file ∈ tree.files [], keyed file = (key, text) ↔
      key = keyOf file.1 ∧ file.2 = some (Utf8.encode text) := by
    intro file hfile
    obtain ⟨found, hfound⟩ := hdata file hfile
    have hdecode : Utf8.decode (Utf8.encode found) = some found := Utf8.decode_eq_some_iff.mpr rfl
    rw [keyed, hfound, Option.bind_some, hdecode, Option.getD_some, Prod.mk.injEq, eq_comm,
      Option.some.injEq, Utf8.encode_injective.eq_iff]
  rw [KeyMap.lookup_foldl_insert hdistinct, AList.lookup_empty]
  simp only [reduceCtorEq, and_false, or_false, List.mem_map]
  constructor
  · rintro ⟨file, hfile, heq⟩
    exact ⟨file, hfile, (hkeyed file hfile).mp heq⟩
  · rintro ⟨file, hfile, heq⟩
    exact ⟨file, hfile, (hkeyed file hfile).mpr heq⟩

end Torvyn.Packaging
