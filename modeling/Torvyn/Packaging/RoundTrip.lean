/-
# Packing and unpacking

An archive brings back every layer that it was made of, but a provenance record without the prefix
of its digest, and paths that are no text.  The writers that take it to a disk reproduce its
contracts only where the directories of nested ones exist already; see `roundTrips_iff`.
-/
import Torvyn.Packaging.Extraction

namespace Torvyn.Packaging

open PathBuf FsStep

/-! ## What is unpacked -/

/-- The entry of a WIT file. -/
def witEntry (file : String × String) : ArchiveEntry :=
  ⟨fileName ("wit/" ++ file.1), Utf8.encode file.2⟩

theorem witName_wit (name : String) :
    witName ("wit/" ++ name) = if endsWith ("wit/" ++ name) ".wit" then some name else none := by
  have hstart : startsWith ("wit/" ++ name) "wit/" = true := by simp [startsWith]
  have hstrip : stripPrefix ("wit/" ++ name) "wit/" = some name := stripPrefix_eq_some_iff.mpr rfl
  unfold witName
  rw [hstart, hstrip]
  simp

/-- A WIT file is no other layer. -/
theorem wit_ne_layer {name layer : String} (h : layer.toList.head? ≠ some 'w') :
    "wit/" ++ name ≠ layer := by
  rintro rfl
  simp at h

theorem read_witEntry (layers : Layers) (file : String × String) :
    layers.read (witEntry file) =
      if endsWith ("wit/" ++ file.1) ".wit" then
        { layers with witFiles := layers.witFiles.insert file.1 file.2 }
      else layers := by
  unfold Layers.read witEntry fileName
  simp only [Utf8.decodeLossy_encode]
  rw [if_neg (wit_ne_layer (by decide)), if_neg (wit_ne_layer (by decide)),
    if_neg (wit_ne_layer (by decide)), witName_wit]
  by_cases hwit : endsWith ("wit/" ++ file.1) ".wit" = true
  · rw [if_pos hwit, if_pos hwit]
  · rw [if_neg hwit, if_neg hwit]

/-- Reading WIT files changes no other layer. -/
theorem foldl_read_witEntry (files : List (String × String)) (layers : Layers) :
    ∃ witFiles, (files.map witEntry).foldl Layers.read layers =
        { layers with witFiles := witFiles } ∧
      ((∀ file ∈ files, endsWith file.1 ".wit" = true) →
        witFiles = files.foldl (fun m file => m.insert file.1 file.2) layers.witFiles) := by
  induction files generalizing layers with
  | nil => exact ⟨layers.witFiles, rfl, fun _ => rfl⟩
  | cons file files ih =>
    rw [List.map_cons, List.foldl_cons, read_witEntry]
    by_cases hwit : endsWith ("wit/" ++ file.1) ".wit" = true
    · rw [if_pos hwit]
      obtain ⟨witFiles, hread, hall⟩ := ih { layers with
        witFiles := layers.witFiles.insert file.1 file.2 }
      exact ⟨witFiles, hread, fun h => hall (List.forall_mem_cons.mp h).2⟩
    · rw [if_neg hwit]
      obtain ⟨witFiles, hread, -⟩ := ih layers
      refine ⟨witFiles, hread, fun h => absurd ?_ hwit⟩
      exact endsWith_append (h file List.mem_cons_self)

theorem read_wasm (layers : Layers) (data : List UInt8) :
    layers.read ⟨fileName "component.wasm", data⟩ = { layers with wasmBytes := some data } := by
  simp [Layers.read, fileName, Utf8.decodeLossy_encode]

theorem read_manifest (layers : Layers) (data : List UInt8) :
    layers.read ⟨fileName "Torvyn.toml", data⟩ = { layers with manifestBytes := some data } := by
  simp [Layers.read, fileName, Utf8.decodeLossy_encode]

theorem read_provenance (layers : Layers) (data : List UInt8) :
    layers.read ⟨fileName "provenance.json", data⟩ =
      { layers with provenanceBytes := some data } := by
  simp [Layers.read, fileName, Utf8.decodeLossy_encode]

/-- Entries that can be read are read. -/
theorem mapM_some (entries : List ArchiveEntry) (error : ArtifactError) :
    ((entries.map some).mapM fun entry : Option ArchiveEntry =>
      entry.elim (.error error) Except.ok) = .ok entries := by
  induction entries with
  | nil => rfl
  | cons entry entries ih =>
    rw [List.map_cons, List.mapM_cons, ih]
    rfl

section Unpacked

variable {Manifest Archive : Type} {c : Codecs Manifest Archive}

/-- **The archive of an artifact** is read as the layers that it was made of. -/
theorem unpack_packEntries {manifestToml json : String} {manifest : Manifest}
    {statement : InTotoStatement} (hmanifest : c.manifestFromToml manifestToml = .ok manifest)
    (hjson : c.statementFromStr json = .ok statement) (artifactPath : PathBuf)
    (wasmBytes : List UInt8) (witFiles : KeyMap String String) :
    ∃ found, unpack c.formats artifactPath ((packEntries wasmBytes (Utf8.encode manifestToml)
        (Utf8.encode json) witFiles).map some) =
      .ok ⟨manifest, wasmBytes, found, some (ProvenanceRecord.ofStatement statement),
        layerDigests c.formats wasmBytes (Utf8.encode manifestToml) (some (Utf8.encode json))
          found⟩ ∧
      ((∀ name ∈ witFiles, endsWith name ".wit" = true) →
        found = (inKeyOrder witFiles).foldl (fun m file => m.insert file.1 file.2) ∅) := by
  obtain ⟨found, hread, hall⟩ := foldl_read_witEntry (inKeyOrder witFiles)
    ⟨some (Utf8.encode manifestToml), some wasmBytes, ∅, none⟩
  refine ⟨found, ?_, fun h => hall fun file hfile => h file.1 ?_⟩
  · have hlayers : (packEntries wasmBytes (Utf8.encode manifestToml) (Utf8.encode json)
        witFiles).foldl Layers.read ⟨none, none, ∅, none⟩ =
        ⟨some (Utf8.encode manifestToml), some wasmBytes, found, some (Utf8.encode json)⟩ := by
      unfold packEntries
      rw [List.foldl_append, List.foldl_append]
      simp only [List.foldl_cons, List.foldl_nil, read_wasm, read_manifest]
      show (((inKeyOrder witFiles).map witEntry).foldl Layers.read _).read _ = _
      rw [hread, read_provenance]
    unfold unpack
    rw [mapM_some]
    have hprovenance : (some (Utf8.encode json)).mapM (fun bytes =>
        (c.statementFromStr (Utf8.decodeLossy bytes)).map ProvenanceRecord.ofStatement) =
        .ok (some (ProvenanceRecord.ofStatement statement)) := by
      rw [Option.mapM_some, Utf8.decodeLossy_encode, hjson]
      rfl
    simp only [bind, Except.bind, hlayers, Utf8.decodeLossy_encode, Codecs.formats, hmanifest,
      hprovenance]
  · exact KeyMap.mem_iff_exists.mpr ⟨file.2, mem_inKeyOrder.mp hfile⟩

end Unpacked

/-! ## The round trip -/

section RoundTrip

open Disk

variable {Manifest Archive : Type}

/-- What is assumed of the formats: a manifest that has been read can be written, and the statement
and the archive of an artifact are read as they were written. -/
structure Lossless (c : Codecs Manifest Archive) (manifestToml : String)
    (record : ProvenanceRecord) : Prop where
  manifest : ∀ manifest, c.manifestFromToml manifestToml = .ok manifest →
    ∃ toml, c.manifestToToml manifest = .ok toml
  statement : ∀ json, c.statementToString record.toStatement = .ok json →
    c.statementFromStr json = .ok record.toStatement
  archive : ∀ entries : List ArchiveEntry, (∀ entry ∈ entries, c.fits entry.path = true) →
    c.entries (c.archive entries) = entries.map some

/-- The WIT files of a source. -/
def PackSources.files (sources : PackSources) : List (List OsString × Option (List UInt8)) :=
  (sources.wit.map fun dir => dir.tree.files []).getD []

/-- The map of an artifact is that of the WIT files, from relative paths to contents. -/
structure SameFiles (files : List (List OsString × Option (List UInt8)))
    (m : KeyMap String String) : Prop where
  kept : ∀ file ∈ files, ∃ (names : List String) (text : String), file.1 = names.map Utf8.encode ∧
    file.2 = some (Utf8.encode text) ∧ m.lookup ("/".intercalate names) = some text
  known : ∀ name text, m.lookup name = some text → ∃ names : List String,
    name = "/".intercalate names ∧ (names.map Utf8.encode, some (Utf8.encode text)) ∈ files

/-- **The round trip** of an input that has been packed: the archive is unpacked as what it was
made of, and both writers go through and leave every WIT file at its place. -/
def RoundTrips (c : Codecs Manifest Archive) (cwd : List OsString) (input : PackInput)
    (sources : PackSources) (manifestToml : String) (output : PackOutput Archive)
    (outputDir root : PathBuf) (reference : OciReference) (digest : ContentDigest)
    (disk cache : Disk) : Prop :=
  ∃ contents, unpack c.formats output.artifactPath (c.entries output.archive) = .ok contents ∧
    c.manifestFromToml manifestToml = .ok contents.manifest ∧
    sources.wasm = some (some contents.wasmBytes) ∧
    SameFiles sources.files contents.witFiles ∧
    contents.provenance = some input.provenance ∧
    (∀ layer, contents.layerDigests.lookup layer = output.layerDigests.lookup layer) ∧
    (Takes (storage cwd) ArtifactError.io (unpackToDir c.formats output.artifactPath
        (c.entries output.archive) outputDir) disk ∧
      Reproduced sources.files (witDir (outputDir.resolve cwd))
        (after (storage cwd) ArtifactError.io (unpackToDir c.formats output.artifactPath
          (c.entries output.archive) outputDir) disk)) ∧
    (Takes (storage cwd) CacheError.io (store c.formats root reference contents digest) cache ∧
      Reproduced sources.files (witDir ((artifactDir root reference).resolve cwd))
        (after (storage cwd) CacheError.io (store c.formats root reference contents digest) cache))

variable {c : Codecs Manifest Archive} {input : PackInput} {sources : PackSources}
  {manifestToml json : String} {output : PackOutput Archive} {manifest : Manifest}
  {wasmBytes : List UInt8} {dir : WitDir} {witFiles : KeyMap String String}

theorem Packed.files_eq
    (h : Packed c input sources manifestToml output manifest wasmBytes dir witFiles json) :
    sources.files = dir.tree.files [] := by
  rw [PackSources.files, h.source]
  rfl

/-- What is unpacked of an artifact that has been packed. -/
theorem Packed.unpack_eq
    (h : Packed c input sources manifestToml output manifest wasmBytes dir witFiles json)
    (lossless : Lossless c manifestToml input.provenance) :
    ∃ found, unpack c.formats output.artifactPath (c.entries output.archive) =
      .ok ⟨manifest, wasmBytes, found,
        some (ProvenanceRecord.ofStatement input.provenance.toStatement),
        layerDigests c.formats wasmBytes (Utf8.encode manifestToml) (some (Utf8.encode json))
          found⟩ ∧
      (Texts sources.files → Collected sources.files found ∧
        inKeyOrder found = inKeyOrder witFiles) := by
  rw [h.archive, lossless.archive _ h.fits]
  obtain ⟨found, hunpack, hall⟩ := unpack_packEntries h.manifest
    (lossless.statement json h.provenance) output.artifactPath wasmBytes witFiles
  refine ⟨found, hunpack, fun htexts => ?_⟩
  rw [h.files_eq] at htexts ⊢
  have hlookup : ∀ key text, witFiles.lookup key = some text ↔
      ∃ file ∈ dir.tree.files [], key = keyOf file.1 ∧ file.2 = some (Utf8.encode text) :=
    fun key text => lookup_collected_iff dir.wellFormed htexts h.collected
  have hcontract : ∀ file ∈ dir.tree.files [], Contract file :=
    fun file hfile => contract_of_mem dir.wellFormed htexts hfile
  have hfound : ∀ key, found.lookup key = witFiles.lookup key := by
    intro key
    rw [hall ?_]
    · ext text
      rw [KeyMap.lookup_foldl_insert (nodup_inKeyOrder witFiles), mem_inKeyOrder,
        AList.lookup_empty]
      simp
    · intro name hname
      obtain ⟨text, htext⟩ := KeyMap.mem_iff_exists.mp hname
      obtain ⟨file, hfile, rfl, -⟩ := (hlookup name text).mp htext
      exact (hcontract file hfile).wit
  refine ⟨⟨hcontract, (collectWitFilesInto_ok h.collected).1, fun key text => ?_⟩,
    inKeyOrder_congr hfound⟩
  rw [hfound, hlookup]

/-- The collected files of paths that are texts are the map of the WIT files. -/
theorem Collected.sameFiles {files : List (List OsString × Option (List UInt8))}
    {m : KeyMap String String} (h : Collected files m) (htexts : Texts files) :
    SameFiles files m := by
  constructor
  · intro file hfile
    obtain ⟨names, hnames⟩ := htexts file hfile
    obtain ⟨text, htext⟩ := h.data file hfile
    refine ⟨names, text, hnames, htext, (h.lookup _ _).mpr ⟨file, hfile, ?_, htext⟩⟩
    rw [hnames, keyOf_encode]
  · intro name text hlookup
    obtain ⟨file, hfile, rfl, htext⟩ := (h.lookup name text).mp hlookup
    obtain ⟨names, hnames⟩ := htexts file hfile
    refine ⟨names, by rw [hnames, keyOf_encode], ?_⟩
    rwa [← hnames, ← htext]

/-- The digests of the layers depend on the files alone. -/
theorem layerDigests_congr {Provenance : Type} {f : Formats Manifest Provenance}
    {wasmBytes manifestBytes : List UInt8} {provenanceBytes : Option (List UInt8)}
    {m other : KeyMap String String} (h : inKeyOrder m = inKeyOrder other) :
    layerDigests f wasmBytes manifestBytes provenanceBytes m =
      layerDigests f wasmBytes manifestBytes provenanceBytes other := by
  unfold layerDigests
  rw [h]

theorem Packed.comes_back_iff (cwd : List OsString)
    (hpacked : Packed c input sources manifestToml output manifest wasmBytes dir witFiles json)
    (lossless : Lossless c manifestToml input.provenance) (outputDir root : PathBuf)
    (reference : OciReference) (digest : ContentDigest) (disk cache : Disk) :
    RoundTrips c cwd input sources manifestToml output outputDir root reference digest disk
        cache ↔
      Texts sources.files ∧
      startsWith input.provenance.subjectDigest "sha256:" = true ∧
      Room disk (outputDir.resolve cwd) ["component.wasm", "Torvyn.toml", "provenance.json"]
        (sources.files.map Prod.fst) ∧
      Room cache ((artifactDir root reference).resolve cwd) ["component.wasm", "Torvyn.toml"]
        (sources.files.map Prod.fst) ∧
      (digestPath root reference).resolve cwd ≠ (artifactDir root reference).resolve cwd ∧
      ¬ cache.IsDir ((digestPath root reference).resolve cwd) := by
  obtain ⟨found, hunpack, hfound⟩ := hpacked.unpack_eq lossless
  obtain ⟨toml, htoml⟩ := lossless.manifest manifest hpacked.manifest
  set contents : ArtifactContents Manifest ProvenanceRecord := ⟨manifest, wasmBytes, found,
    some (ProvenanceRecord.ofStatement input.provenance.toStatement),
    layerDigests c.formats wasmBytes (Utf8.encode manifestToml) (some (Utf8.encode json)) found⟩
  have hjson : contents.provenance = some input.provenance →
      provenanceText c.formats contents = some json := by
    intro hprovenance
    rw [provenanceText, hprovenance, Option.bind_some]
    show (c.statementToString input.provenance.toStatement).toOption = some json
    rw [hpacked.provenance]
    rfl
  have hwriter : unpackToDir c.formats output.artifactPath (c.entries output.archive) outputDir =
      writeContents c.formats output.artifactPath outputDir contents := by
    rw [unpackToDir, hunpack]
  unfold RoundTrips
  rw [hwriter]
  constructor
  · rintro ⟨other, hother, -, -, hsame, hprovenance, -, ⟨hout, -⟩, hstore, -⟩
    obtain rfl := Except.ok.inj (hunpack.symm.trans hother)
    have htexts : Texts sources.files := fun file hfile =>
      (hsame.kept file hfile).imp fun _ hnames => hnames.choose_spec.1
    obtain ⟨hcollected, -⟩ := hfound htexts
    refine ⟨htexts, ProvenanceRecord.ofStatement_toStatement_iff.mp (Option.some.inj hprovenance),
      (takes_writeContents hcollected htoml (hjson hprovenance)).mp hout,
      (takes_store hcollected htoml (hjson hprovenance)).mp hstore⟩
  · rintro ⟨htexts, hprefix, hout, hstore⟩
    obtain ⟨hcollected, horder⟩ := hfound htexts
    have hprovenance : contents.provenance = some input.provenance :=
      congrArg some (ProvenanceRecord.ofStatement_toStatement_iff.mpr hprefix)
    have htakesOut : Takes (storage cwd) ArtifactError.io (writeContents c.formats
        output.artifactPath outputDir contents) disk :=
      (takes_writeContents hcollected htoml (hjson hprovenance)).mpr hout
    have htakesStore : Takes (storage cwd) CacheError.io (store c.formats root reference contents
        digest) cache := (takes_store hcollected htoml (hjson hprovenance)).mpr hstore
    refine ⟨contents, hunpack, hpacked.manifest, hpacked.wasm, hcollected.sameFiles htexts,
      hprovenance, fun layer => ?_, ⟨htakesOut, ?_⟩, htakesStore, ?_⟩
    · rw [hpacked.digests]
      show (layerDigests c.formats wasmBytes _ _ found).lookup layer = _
      rw [layerDigests_congr horder]
    · exact reproduced_writeContents hcollected htoml (hjson hprovenance) htakesOut
    · exact reproduced_store hcollected htoml (hjson hprovenance) htakesStore

/-- **Which artifacts come back.**  Those whose contracts have paths that are texts, whose
provenance names the algorithm of its digest, and for which there is room: above all, the directory
of a nested contract is there already, as no writer makes it. -/
theorem roundTrips_iff (c : Codecs Manifest Archive) (cwd : List OsString) (input : PackInput)
    (sources : PackSources) (manifestToml : String)
    (lossless : Lossless c manifestToml input.provenance) (packDir : PathBuf)
    (output : PackOutput Archive)
    (h : packWithManifest c input sources manifestToml packDir = .ok output)
    (outputDir root : PathBuf) (reference : OciReference) (digest : ContentDigest)
    (disk cache : Disk) :
    RoundTrips c cwd input sources manifestToml output outputDir root reference digest disk
        cache ↔
      Texts sources.files ∧
      startsWith input.provenance.subjectDigest "sha256:" = true ∧
      Room disk (outputDir.resolve cwd) ["component.wasm", "Torvyn.toml", "provenance.json"]
        (sources.files.map Prod.fst) ∧
      Room cache ((artifactDir root reference).resolve cwd) ["component.wasm", "Torvyn.toml"]
        (sources.files.map Prod.fst) ∧
      (digestPath root reference).resolve cwd ≠ (artifactDir root reference).resolve cwd ∧
      ¬ cache.IsDir ((digestPath root reference).resolve cwd) := by
  obtain ⟨manifest, wasmBytes, dir, witFiles, json, hpacked⟩ := packWithManifest_ok h
  exact hpacked.comes_back_iff cwd lossless outputDir root reference digest disk cache

end RoundTrip

/-! ### Two components -/

section Samples

open Disk

/-- A provenance record. -/
def sampleRecord : ProvenanceRecord :=
  ⟨"test-component", "sha256:placeholder", "https://torvyn.dev/build/v1", ⟨none, none, none⟩,
    ⟨"local"⟩, "2026-03-11T12:00:00Z", "2026-03-11T12:02:30Z", ⟨"0.1.0", "", "", none, []⟩⟩

/-- Texts as manifests, and archives as the lists of their entries. -/
def sampleCodecs : Codecs String (List ArchiveEntry) where
  manifestFromToml := .ok
  manifestToToml := .ok
  name _ := "test-component"
  version _ := "0.1.0"
  statementFromStr _ := .ok sampleRecord.toStatement
  statementToString _ := .ok ""
  ofBytes _ := ⟨"", ""⟩
  fits path := path.length ≤ 100
  archive entries := entries
  entries := List.map some
  ofFile _ := ⟨"", ""⟩
  size := List.length

theorem sampleCodecs_lossless (manifestToml : String) :
    Lossless sampleCodecs manifestToml sampleRecord where
  manifest manifest _ := ⟨manifest, rfl⟩
  statement _ _ := rfl
  archive _ _ := rfl

/-- The input of a component. -/
def sampleInput : PackInput :=
  ⟨.parse (fileName "/src/component.wasm"), .parse (fileName "/src/Torvyn.toml"),
    .parse (fileName "/src/wit"), sampleRecord⟩

/-- A component with one contract. -/
def sampleSources (wit : WitDir) : PackSources :=
  ⟨some (some [0, 97, 115, 109, 1, 0, 0, 0]), none, some wit⟩

/-- A contract in the directory itself. -/
def flatWit : WitDir where
  tree := .file (fileName "types.wit") (some (Utf8.encode "package torvyn:streaming;")) .done
  wellFormed := ⟨by decide, List.not_mem_nil, trivial⟩

/-- A contract in the directory of its package. -/
def nestedWit : WitDir where
  tree := .dir (fileName "torvyn-streaming")
    (.file (fileName "types.wit") (some (Utf8.encode "package torvyn:streaming;")) .done) .done
  wellFormed := ⟨by decide, List.not_mem_nil,
    ⟨by decide, List.not_mem_nil, trivial⟩, trivial⟩

theorem exists_of_isOk {ε α : Type} {x : Except ε α} (h : x.isOk = true) : ∃ a, x = .ok a := by
  cases x with
  | error e => cases h
  | ok a => exact ⟨a, rfl⟩

/-- A contract in the directory itself comes back. -/
theorem flat_roundTrips : ∃ output,
    packWithManifest sampleCodecs sampleInput (sampleSources flatWit) "[component]"
      (.parse (fileName "/packed")) = .ok output ∧
    RoundTrips sampleCodecs [] sampleInput (sampleSources flatWit) "[component]" output
      (.parse (fileName "/out")) (.parse (fileName "/cache"))
      ⟨"ghcr.io", "org/comp", some "1.0.0", none⟩ ⟨"", ""⟩ fresh fresh := by
  obtain ⟨output, hpack⟩ := exists_of_isOk (x := packWithManifest sampleCodecs sampleInput
    (sampleSources flatWit) "[component]" (.parse (fileName "/packed"))) (by decide +kernel)
  have htexts : Texts (sampleSources flatWit).files := by
    intro file hfile
    exact ⟨["types.wit"], by rw [List.mem_singleton.mp hfile]; rfl⟩
  refine ⟨output, hpack, ?_⟩
  apply (roundTrips_iff sampleCodecs [] sampleInput (sampleSources flatWit) "[component]"
    (sampleCodecs_lossless "[component]") (.parse (fileName "/packed")) output hpack
    (.parse (fileName "/out")) (.parse (fileName "/cache"))
    ⟨"ghcr.io", "org/comp", some "1.0.0", none⟩ ⟨"", ""⟩ fresh fresh).mpr
  refine ⟨htexts, by decide, room_fresh_iff.mpr (by decide),
    room_fresh_iff.mpr (by decide), by decide, ?_⟩
  rw [isDir_fresh]
  decide

/-- **A contract in the directory of its package** does not come back. -/
theorem nested_not_roundTrips : ∃ output,
    packWithManifest sampleCodecs sampleInput (sampleSources nestedWit) "[component]"
      (.parse (fileName "/packed")) = .ok output ∧
    ¬ RoundTrips sampleCodecs [] sampleInput (sampleSources nestedWit) "[component]" output
      (.parse (fileName "/out")) (.parse (fileName "/cache"))
      ⟨"ghcr.io", "org/comp", some "1.0.0", none⟩ ⟨"", ""⟩ fresh fresh := by
  obtain ⟨output, hpack⟩ := exists_of_isOk (x := packWithManifest sampleCodecs sampleInput
    (sampleSources nestedWit) "[component]" (.parse (fileName "/packed"))) (by decide +kernel)
  obtain ⟨manifest, wasmBytes, dir, witFiles, json, hpacked⟩ := packWithManifest_ok hpack
  refine ⟨output, hpack, fun hback => ?_⟩
  obtain ⟨-, -, hroom, -⟩ := (hpacked.comes_back_iff [] (sampleCodecs_lossless "[component]")
    (.parse (fileName "/out")) (.parse (fileName "/cache"))
    ⟨"ghcr.io", "org/comp", some "1.0.0", none⟩ ⟨"", ""⟩ fresh fresh).mp hback
  exact absurd (room_fresh_iff.mp hroom) (by decide)

end Samples

end Torvyn.Packaging
