/-
# The artifact cache

`ArtifactCache` of `torvyn-packaging/src/cache.rs`.  The files of an artifact are kept in a
directory that is named by its reference, and its digest in a file beside it.
-/
import Torvyn.Packaging.Artifact

namespace Torvyn.Packaging

/-- A parsed reference to an artifact in a registry. -/
structure OciReference where
  registry : String
  repository : String
  tag : Option String
  digest : Option String
  deriving DecidableEq, Repr

/-- `CacheError`. -/
inductive CacheError where
  | io (path : PathBuf)
  | corruptedIndex (reason : String)
  deriving DecidableEq, Repr

/-- `artifact_dir`. -/
def artifactDir (root : PathBuf) (reference : OciReference) : PathBuf :=
  (((root.join (fileName "oci")).join (fileName reference.registry)).join
    (fileName reference.repository)).join (fileName (reference.tag.getD "latest"))

/-- The file that holds the digest of an artifact. -/
def digestPath (root : PathBuf) (reference : OciReference) : PathBuf :=
  (artifactDir root reference).withExtension (fileName "digest")

variable {Manifest Provenance : Type} (f : Formats Manifest Provenance)

/-- `store`: its steps. -/
def store (root : PathBuf) (reference : OciReference)
    (contents : ArtifactContents Manifest Provenance) (digest : ContentDigest) :
    List (FsStep CacheError) :=
  let dir := artifactDir root reference
  [.createDirAll dir, .write (dir.join (fileName "component.wasm")) contents.wasmBytes] ++
  match f.manifestToToml contents.manifest with
  | .error e => [.fail (.corruptedIndex ("manifest serialization failed: " ++ e))]
  | .ok toml =>
      [.write (dir.join (fileName "Torvyn.toml")) (Utf8.encode toml),
        .createDirAll (dir.join (fileName "wit"))] ++
      writeWitFiles (dir.join (fileName "wit")) contents.witFiles ++
      ((provenanceText f contents).map fun json =>
        .tryWrite (dir.join (fileName "provenance.json")) (Utf8.encode json)).toList ++
      [.write (digestPath root reference) (Utf8.encode digest.prefixed)]

end Torvyn.Packaging
