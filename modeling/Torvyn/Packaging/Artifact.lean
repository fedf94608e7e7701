/-
# Artifacts

`unpack` and `unpack_to_dir` of `torvyn-packaging/src/artifact.rs`.  An artifact is an archive of
layers that are told apart by their paths.  What the archive format, TOML, JSON and SHA-256 make of
their input comes from libraries, and is a parameter.

A program that writes files is the list of its steps; see `Data.FileTree`.
-/
import Torvyn.Data.FileTree
import Torvyn.Data.KeyMap
import Torvyn.Text

namespace Torvyn.Packaging

/-- The result of a SHA-256 digest computation. -/
structure ContentDigest where
  hex : String
  prefixed : String
  deriving DecidableEq, Repr

/-- The formats of the layers, and their digests. -/
structure Formats (Manifest Provenance : Type) where
  manifestFromToml : String → Except String Manifest
  manifestToToml : Manifest → Except String String
  provenanceFromIntoto : String → Except String Provenance
  provenanceToIntoto : Provenance → Except String String
  ofBytes : List UInt8 → ContentDigest

/-- `ArtifactError`, as far as it is constructed here. -/
inductive ArtifactError where
  | wasmBinaryNotFound (path : PathBuf)
  | invalidWasmBinary (path : PathBuf) (reason : String)
  | noWitFiles (path : PathBuf)
  | io (path : PathBuf)
  | corruptedArtifact (path : PathBuf) (reason : String)
  deriving DecidableEq, Repr

/-- An entry of an archive, with the raw bytes of its path. -/
structure ArchiveEntry where
  path : OsString
  data : List UInt8
  deriving DecidableEq, Repr

/-- In-memory representation of an extracted artifact. -/
structure ArtifactContents (Manifest Provenance : Type) where
  manifest : Manifest
  wasmBytes : List UInt8
  witFiles : KeyMap String String
  provenance : Option Provenance
  layerDigests : KeyMap String ContentDigest

/-- The entries of a `BTreeMap`, in the order of their keys. -/
def inKeyOrder {β : Type*} (m : KeyMap String β) : List (String × β) :=
  (m.entries.map fun e => (e.1, e.2)).mergeSort fun a b => a.1 ≤ b.1

theorem mem_inKeyOrder {β : Type*} {m : KeyMap String β} {file : String × β} :
    file ∈ inKeyOrder m ↔ m.lookup file.1 = some file.2 := by
  unfold inKeyOrder
  rw [List.mem_mergeSort, List.mem_map]
  constructor
  · rintro ⟨entry, hentry, rfl⟩
    exact KeyMap.mem_entries_iff.mp hentry
  · intro hlookup
    exact ⟨⟨file.1, file.2⟩, KeyMap.mem_entries_iff.mpr hlookup, rfl⟩

theorem perm_inKeyOrder {β : Type*} (m : KeyMap String β) :
    (inKeyOrder m).Perm (m.entries.map fun e => (e.1, e.2)) := List.mergeSort_perm _ _

theorem nodup_inKeyOrder {β : Type*} (m : KeyMap String β) :
    ((inKeyOrder m).map Prod.fst).Nodup := by
  rw [((perm_inKeyOrder m).map Prod.fst).nodup_iff, List.map_map]
  exact m.nodupKeys

/-- Maps with the same entries list them in the same order. -/
theorem inKeyOrder_congr {β : Type*} {m other : KeyMap String β}
    (h : ∀ key, m.lookup key = other.lookup key) : inKeyOrder m = inKeyOrder other := by
  have hperm : (inKeyOrder m).Perm (inKeyOrder other) := by
    rw [List.perm_ext_iff_of_nodup (nodup_inKeyOrder m).of_map (nodup_inKeyOrder other).of_map]
    intro file
    rw [mem_inKeyOrder, mem_inKeyOrder, h]
  have hsorted : ∀ m : KeyMap String β,
      (inKeyOrder m).Pairwise fun a b => decide (a.1 ≤ b.1) = true := by
    intro m
    apply List.pairwise_mergeSort
    · intro a b c hab hbc
      exact decide_eq_true (le_trans (of_decide_eq_true hab) (of_decide_eq_true hbc))
    · intro a b
      simpa using le_total a.1 b.1
  apply hperm.eq_of_pairwise _ (hsorted m) (hsorted other)
  intro a b ha hb hab hba
  have hkey : a.1 = b.1 := le_antisymm (of_decide_eq_true hab) (of_decide_eq_true hba)
  exact List.inj_on_of_nodup_map (nodup_inKeyOrder m) ha (hperm.mem_iff.mpr hb) hkey

/-! ## Reading -/

/-- The layers that have been met. -/
structure Layers where
  manifestBytes : Option (List UInt8)
  wasmBytes : Option (List UInt8)
  witFiles : KeyMap String String
  provenanceBytes : Option (List UInt8)

/-- The name of a WIT file, if the path is that of one. -/
def witName (path : String) : Option String :=
  if startsWith path "wit/" ∧ endsWith path ".wit" then
    some ((stripPrefix path "wit/").getD path)
  else none

/-- The entry of an archive becomes a layer; unknown entries are ignored. -/
def Layers.read (layers : Layers) (entry : ArchiveEntry) : Layers :=
  let path := Utf8.decodeLossy entry.path
  if path = "component.wasm" then { layers with wasmBytes := some entry.data }
  else if path = "Torvyn.toml" then { layers with manifestBytes := some entry.data }
  else if path = "provenance.json" then { layers with provenanceBytes := some entry.data }
  else
    match witName path with
    | some name =>
        { layers with witFiles := layers.witFiles.insert name (Utf8.decodeLossy entry.data) }
    | none => layers

variable {Manifest Provenance : Type} (f : Formats Manifest Provenance)

/-- The digests of the layers, keyed by the paths that they have in the archive. -/
def layerDigests (wasmBytes manifestBytes : List UInt8) (provenanceBytes : Option (List UInt8))
    (witFiles : KeyMap String String) : KeyMap String ContentDigest :=
  let digests := ((∅ : KeyMap String ContentDigest).insert "component.wasm"
    (f.ofBytes wasmBytes)).insert "Torvyn.toml" (f.ofBytes manifestBytes)
  let digests := match provenanceBytes with
    | some bytes => digests.insert "provenance.json" (f.ofBytes bytes)
    | none => digests
  (inKeyOrder witFiles).foldl (fun digests file =>
    digests.insert ("wit/" ++ file.1) (f.ofBytes (Utf8.encode file.2))) digests

/-- `unpack`.  An entry that cannot be read is `none`. -/
def unpack (artifactPath : PathBuf) (archive : List (Option ArchiveEntry)) :
    Except ArtifactError (ArtifactContents Manifest Provenance) := do
  let entries ← archive.mapM fun entry => entry.elim (.error (.io artifactPath)) Except.ok
  let layers := entries.foldl Layers.read ⟨none, none, ∅, none⟩
  match layers.manifestBytes, layers.wasmBytes with
  | none, _ => .error (.corruptedArtifact artifactPath "missing Torvyn.toml layer")
  | some _, none => .error (.corruptedArtifact artifactPath "missing component.wasm layer")
  | some manifestBytes, some wasmBytes =>
      match f.manifestFromToml (Utf8.decodeLossy manifestBytes) with
      | .error e => .error (.corruptedArtifact artifactPath ("invalid manifest: " ++ e))
      | .ok manifest =>
          match layers.provenanceBytes.mapM fun bytes =>
              f.provenanceFromIntoto (Utf8.decodeLossy bytes) with
          | .error e => .error (.corruptedArtifact artifactPath ("invalid provenance: " ++ e))
          | .ok provenance =>
              .ok ⟨manifest, wasmBytes, layers.witFiles, provenance,
                layerDigests f wasmBytes manifestBytes layers.provenanceBytes layers.witFiles⟩

/-! ## Writing -/

/-- A file name, as it is joined to a path. -/
def fileName (name : String) : OsString := Utf8.encode name

/-- The steps that write the WIT files below a directory. -/
def writeWitFiles {E : Type*} (witDir : PathBuf) (witFiles : KeyMap String String) :
    List (FsStep E) :=
  (inKeyOrder witFiles).map fun file =>
    .write (witDir.join (fileName file.1)) (Utf8.encode file.2)

/-- The text of a provenance record, if there is one that can be serialised. -/
def provenanceText (contents : ArtifactContents Manifest Provenance) : Option String :=
  contents.provenance.bind fun p => (f.provenanceToIntoto p).toOption

/-- The part of `unpack_to_dir` that writes. -/
def writeContents (artifactPath outputDir : PathBuf)
    (contents : ArtifactContents Manifest Provenance) : List (FsStep ArtifactError) :=
  [.createDirAll outputDir,
    .write (outputDir.join (fileName "component.wasm")) contents.wasmBytes] ++
  match f.manifestToToml contents.manifest with
  | .error e => [.fail (.corruptedArtifact artifactPath ("manifest serialization failed: " ++ e))]
  | .ok toml =>
      [.write (outputDir.join (fileName "Torvyn.toml")) (Utf8.encode toml),
        .createDirAll (outputDir.join (fileName "wit"))] ++
      writeWitFiles (outputDir.join (fileName "wit")) contents.witFiles ++
      ((provenanceText f contents).map fun json =>
        .write (outputDir.join (fileName "provenance.json")) (Utf8.encode json)).toList

/-- `unpack_to_dir`: its steps. -/
def unpackToDir (artifactPath : PathBuf) (archive : List (Option ArchiveEntry))
    (outputDir : PathBuf) : List (FsStep ArtifactError) :=
  match unpack f artifactPath archive with
  | .error e => [.fail e]
  | .ok contents => writeContents f artifactPath outputDir contents

end Torvyn.Packaging
