/-
# Contracts on a disk

Both writers of an artifact make its directory and the `wit` directory in it, and none below.
`takes_writeContents` and `takes_store` say when they go through; where they do, every contract is
at its path with its content.
-/
import Torvyn.Data.Disk
import Torvyn.Packaging.Containment
import Torvyn.Packaging.Pack

namespace Torvyn.Packaging

open PathBuf FsStep

/-! ## The directories that are made -/

section Disks

open Disk

variable {E : Type} {io : PathBuf → E} {cwd : List OsString} {disk : Disk} {dir : PathBuf}

/-- There is room for an artifact in a directory: no file is where a directory is made, no
directory is where a file is written, and a nested contract has its directory already. -/
structure Room (disk : Disk) (dir : List OsString) (layers : List String)
    (paths : List (List OsString)) : Prop where
  dirs : ∀ p, p <+: witDir dir → ¬ disk.IsFile p
  layers : ∀ layer ∈ layers, ¬ disk.IsDir (dir ++ [fileName layer])
  paths : ∀ path ∈ paths, ¬ disk.IsDir (witDir dir ++ path) ∧
    (path.length = 1 ∨ disk.IsDir (witDir dir ++ path.dropLast))

/-- On a fresh disk there is room where no contract is nested. -/
theorem room_fresh_iff {dir : List OsString} {layers : List String}
    {paths : List (List OsString)} :
    Room fresh dir layers paths ↔ ∀ path ∈ paths, path.length = 1 := by
  have hwit : ∀ below : List OsString, witDir dir ++ below ≠ [] := by simp [witDir]
  constructor
  · rintro ⟨-, -, hpaths⟩ path hpath
    exact (hpaths path hpath).2.resolve_right fun hdir => hwit _ (isDir_fresh.mp hdir)
  · intro hpaths
    refine ⟨fun _ _ => not_isFile_fresh, fun layer _ hdir => ?_, fun path hpath => ?_⟩
    · simp [isDir_fresh] at hdir
    · exact ⟨fun hdir => hwit _ (isDir_fresh.mp hdir), .inl (hpaths path hpath)⟩

/-- The steps before the WIT files. -/
def layerSteps (dir : PathBuf) (wasmBytes manifestBytes : List UInt8) : List (FsStep E) :=
  [.createDirAll dir, .write (dir.join (fileName "component.wasm")) wasmBytes] ++
  [.write (dir.join (fileName "Torvyn.toml")) manifestBytes,
    .createDirAll (dir.join (fileName "wit"))]

/-- A directory that has been made has room for a file, unless one is in its place. -/
theorem writable_child {parent : List OsString} {name : OsString} (h : disk.IsDir parent) :
    disk.Writable (parent ++ [name]) ↔ ¬ disk.IsDir (parent ++ [name]) := by
  unfold Writable
  rw [List.dropLast_concat]
  simp [h]

theorem not_prefix_child {parent : List OsString} {name : OsString} :
    ¬ parent ++ [name] <+: parent := by
  intro h
  have hlength := h.length_le
  simp at hlength

theorem resolve_layer {name : String} (h : Plain (fileName name)) :
    (dir.join (fileName name)).resolve cwd = dir.resolve cwd ++ [fileName name] :=
  resolve_join_plain h

theorem resolve_witDir :
    (dir.join (fileName "wit")).resolve cwd = witDir (dir.resolve cwd) :=
  resolve_layer (by decide)

/-- A child of one name is no child of another. -/
theorem child_ne {parent : List OsString} {name other : String} (h : name ≠ other) :
    parent ++ [fileName name] ≠ parent ++ [fileName other] := by
  intro heq
  exact h (Utf8.encode_injective (List.singleton_inj.mp (List.append_cancel_left heq)))

/-- Making a directory, when everything above a directory has been made. -/
theorem takes_createDirAll_child {name : String} (hplain : Plain (fileName name))
    (h : disk.IsDir (dir.resolve cwd)) :
    Takes (storage cwd) io [.createDirAll (dir.join (fileName name))] disk ↔
      ¬ disk.IsFile (dir.resolve cwd ++ [fileName name]) := by
  rw [takes_createDirAll, resolve_layer hplain]
  constructor
  · intro hfree
    exact hfree _ (List.prefix_refl _)
  · intro hfree p hp
    rcases List.prefix_concat_iff.mp hp with rfl | hp
    · exact hfree
    · exact fun hfile => hfile.2 (isDir_ancestor h hp)

variable {wasmBytes manifestBytes : List UInt8}

/-- The disk when the layers before the WIT files have been written. -/
def layered (disk : Disk) (dir : List OsString) (wasmBytes manifestBytes : List UInt8) : Disk :=
  (((disk.makeDirs dir).write (dir ++ [fileName "component.wasm"]) wasmBytes).2.write
    (dir ++ [fileName "Torvyn.toml"]) manifestBytes).2

theorem isDir_layered {path p : List OsString} :
    (layered disk path wasmBytes manifestBytes).IsDir p ↔ p <+: path ∨ disk.IsDir p := by
  rw [layered, isDir_write, isDir_write, isDir_makeDirs]

theorem layerSteps_eq : (layerSteps dir wasmBytes manifestBytes : List (FsStep E)) =
    [.createDirAll dir] ++ ([.write (dir.join (fileName "component.wasm")) wasmBytes] ++
      ([.write (dir.join (fileName "Torvyn.toml")) manifestBytes] ++
        [.createDirAll (dir.join (fileName "wit"))])) := rfl

/-- Which layers before the WIT files can be written, one after another. -/
theorem takes_layerSteps_iff :
    Takes (storage cwd) io (layerSteps dir wasmBytes manifestBytes) disk ↔
      (∀ p, p <+: dir.resolve cwd → ¬ disk.IsFile p) ∧
      ¬ disk.IsDir (dir.resolve cwd ++ [fileName "component.wasm"]) ∧
      ¬ disk.IsDir (dir.resolve cwd ++ [fileName "Torvyn.toml"]) ∧
      ¬ disk.IsFile (witDir (dir.resolve cwd)) := by
  obtain ⟨hwasm, hmanifest, -⟩ := plain_layers
  have hmade : (disk.makeDirs (dir.resolve cwd)).IsDir (dir.resolve cwd) :=
    isDir_makeDirs.mpr (.inl (List.prefix_refl _))
  have hchild : ∀ name, (disk.makeDirs (dir.resolve cwd)).IsDir (dir.resolve cwd ++ [name]) ↔
      disk.IsDir (dir.resolve cwd ++ [name]) := by
    intro name
    rw [isDir_makeDirs, or_iff_right not_prefix_child]
  have hwit : (layered disk (dir.resolve cwd) wasmBytes manifestBytes).IsFile
      (witDir (dir.resolve cwd)) ↔ disk.IsFile (witDir (dir.resolve cwd)) := by
    have hwasm : witDir (dir.resolve cwd) ≠ dir.resolve cwd ++ [fileName "component.wasm"] :=
      child_ne (by decide)
    have hmanifest : witDir (dir.resolve cwd) ≠ dir.resolve cwd ++ [fileName "Torvyn.toml"] :=
      child_ne (by decide)
    have hbelow : ¬ witDir (dir.resolve cwd) <+: dir.resolve cwd := not_prefix_child
    rw [IsFile, IsFile, layered, node_write_of_ne hmanifest, node_write_of_ne hwasm,
      node_makeDirs hbelow]
  rw [layerSteps_eq, takes_append, takes_createDirAll]
  refine and_congr_right fun hfree => ?_
  rw [takes_append, after_createDirAll (takes_createDirAll.mpr hfree), takes_write,
    resolve_layer hwasm, writable_child hmade, hchild]
  refine and_congr_right fun _ => ?_
  rw [takes_append, after_write, resolve_layer hwasm, takes_write, resolve_layer hmanifest,
    writable_child (isDir_write.mpr hmade), isDir_write, hchild]
  refine and_congr_right fun _ => ?_
  rw [after_write, resolve_layer hmanifest,
    takes_createDirAll_child (by decide) (isDir_write.mpr (isDir_write.mpr hmade))]
  exact not_congr hwit

theorem after_layerSteps
    (h : Takes (storage cwd) io (layerSteps dir wasmBytes manifestBytes) disk) :
    after (storage cwd) io (layerSteps dir wasmBytes manifestBytes) disk =
      (layered disk (dir.resolve cwd) wasmBytes manifestBytes).makeDirs
        (witDir (dir.resolve cwd)) := by
  obtain ⟨hwasm, hmanifest, -⟩ := plain_layers
  rw [layerSteps_eq] at h ⊢
  obtain ⟨hdir, h⟩ := takes_append.mp h
  obtain ⟨hfirst, h⟩ := takes_append.mp h
  obtain ⟨hsecond, hlast⟩ := takes_append.mp h
  rw [after_append hdir, after_append hfirst, after_append hsecond, after_createDirAll hlast,
    after_write, after_write, after_createDirAll hdir, resolve_layer hwasm,
    resolve_layer hmanifest, resolve_witDir]
  rfl

/-- When the layers before the WIT files can be written, together. -/
theorem takes_layerSteps :
    Takes (storage cwd) io (layerSteps dir wasmBytes manifestBytes) disk ↔
      (∀ p, p <+: witDir (dir.resolve cwd) → ¬ disk.IsFile p) ∧
      ∀ layer ∈ ["component.wasm", "Torvyn.toml"],
        ¬ disk.IsDir (dir.resolve cwd ++ [fileName layer]) := by
  have hdirs : (∀ p, p <+: witDir (dir.resolve cwd) → ¬ disk.IsFile p) ↔
      (∀ p, p <+: dir.resolve cwd → ¬ disk.IsFile p) ∧
        ¬ disk.IsFile (witDir (dir.resolve cwd)) := by
    simp only [witDir, List.prefix_concat_iff, or_imp, forall_and, forall_eq, and_comm]
  rw [takes_layerSteps_iff, hdirs]
  simp only [List.forall_mem_cons, List.not_mem_nil, false_imp_iff, implies_true, and_true]
  tauto

/-- Which directories the layers leave. -/
theorem isDir_after_layerSteps {p : List OsString}
    (h : Takes (storage cwd) io (layerSteps dir wasmBytes manifestBytes) disk) :
    (after (storage cwd) io (layerSteps dir wasmBytes manifestBytes) disk).IsDir p ↔
      p <+: witDir (dir.resolve cwd) ∨ disk.IsDir p := by
  rw [after_layerSteps h, isDir_makeDirs, isDir_layered]
  constructor
  · rintro (hp | hp | hp)
    · exact .inl hp
    · exact .inl (hp.trans (List.prefix_append _ _))
    · exact .inr hp
  · rintro (hp | hp)
    · exact .inl hp
    · exact .inr (.inr hp)

/-! ## The WIT files that are written -/

/-- The collected files are the contracts, under their keys. -/
structure Collected (files : List (List OsString × Option (List UInt8)))
    (m : KeyMap String String) : Prop where
  contract : ∀ file ∈ files, Contract file
  data : ∀ file ∈ files, ∃ text, file.2 = some (Utf8.encode text)
  lookup : ∀ key text, m.lookup key = some text ↔
    ∃ file ∈ files, key = keyOf file.1 ∧ file.2 = some (Utf8.encode text)

/-- All contracts are on the disk below a directory. -/
def Reproduced (files : List (List OsString × Option (List UInt8))) (dir : List OsString)
    (disk : Disk) : Prop :=
  ∀ file ∈ files, ∃ content, file.2 = some content ∧
    disk.node (dir ++ file.1) = some (.file content)

variable {files : List (List OsString × Option (List UInt8))} {m : KeyMap String String}

theorem writeWitFiles_eq (dir : PathBuf) (m : KeyMap String String) :
    (writeWitFiles dir m : List (FsStep E)) = writes ((inKeyOrder m).map fun file =>
      (dir.join (fileName file.1), Utf8.encode file.2)) := by
  rw [writeWitFiles, writes, List.map_map]
  rfl

theorem resolve_contract {file : List OsString × Option (List UInt8)} (h : Contract file) :
    ((dir.join (fileName "wit")).join (fileName (keyOf file.1))).resolve cwd =
      witDir (dir.resolve cwd) ++ file.1 := by
  rw [resolve_witFile, h.fileName_key, leadsTo_intercalate h.plain]

/-- The collected files, as they are written. -/
theorem Collected.mem_inKeyOrder_iff (h : Collected files m) {written : String × String} :
    written ∈ inKeyOrder m ↔ ∃ file ∈ files, written.1 = keyOf file.1 ∧
      file.2 = some (Utf8.encode written.2) := by
  rw [mem_inKeyOrder, h.lookup]

theorem takes_writeWitFiles (h : Collected files m) :
    Takes (storage cwd) io (writeWitFiles (dir.join (fileName "wit")) m) disk ↔
      ∀ file ∈ files, disk.Writable (witDir (dir.resolve cwd) ++ file.1) := by
  rw [writeWitFiles_eq, takes_writes]
  simp only [List.forall_mem_map]
  constructor
  · intro hwritten file hfile
    obtain ⟨text, htext⟩ := h.data file hfile
    have hmem := hwritten (keyOf file.1, text)
      (h.mem_inKeyOrder_iff.mpr ⟨file, hfile, rfl, htext⟩)
    rwa [resolve_contract (h.contract file hfile)] at hmem
  · intro hfiles written hwritten
    obtain ⟨file, hfile, hkey, -⟩ := h.mem_inKeyOrder_iff.mp hwritten
    rw [hkey, resolve_contract (h.contract file hfile)]
    exact hfiles file hfile

/-- **The WIT files are reproduced** when they can be written. -/
theorem reproduced_writeWitFiles (h : Collected files m)
    (htakes : Takes (storage cwd) io (writeWitFiles (dir.join (fileName "wit")) m) disk) :
    Reproduced files (witDir (dir.resolve cwd))
      (after (storage cwd) io (writeWitFiles (dir.join (fileName "wit")) m) disk) := by
  intro file hfile
  obtain ⟨text, htext⟩ := h.data file hfile
  refine ⟨Utf8.encode text, htext, ?_⟩
  rw [writeWitFiles_eq] at htakes ⊢
  have hdistinct : (((inKeyOrder m).map fun file : String × String =>
      ((dir.join (fileName "wit")).join (fileName file.1), Utf8.encode file.2)).map
        fun file => file.1.resolve cwd).Nodup := by
    rw [List.map_map]
    apply List.Nodup.map_on _ (nodup_inKeyOrder m).of_map
    intro first hfirst second hsecond heq
    obtain ⟨one, hone, hkeyOne, -⟩ := h.mem_inKeyOrder_iff.mp hfirst
    obtain ⟨two, htwo, hkeyTwo, -⟩ := h.mem_inKeyOrder_iff.mp hsecond
    simp only [Function.comp_apply, hkeyOne, hkeyTwo, resolve_contract (h.contract one hone),
      resolve_contract (h.contract two htwo)] at heq
    have hkey : first.1 = second.1 := by
      rw [hkeyOne, hkeyTwo, List.append_cancel_left heq]
    exact List.inj_on_of_nodup_map (nodup_inKeyOrder m) hfirst hsecond hkey
  have hnode := node_after_writes htakes hdistinct
    ((dir.join (fileName "wit")).join (fileName (keyOf file.1)), Utf8.encode text)
    (List.mem_map.mpr ⟨(keyOf file.1, text),
      h.mem_inKeyOrder_iff.mpr ⟨file, hfile, rfl, htext⟩, rfl⟩)
  rwa [resolve_contract (h.contract file hfile)] at hnode

theorem isDir_after_writeWitFiles {p : List OsString}
    (h : Takes (storage cwd) io (writeWitFiles dir m) disk) :
    (after (storage cwd) io (writeWitFiles dir m) disk).IsDir p ↔ disk.IsDir p := by
  rw [writeWitFiles_eq] at h ⊢
  exact isDir_after_writes h

/-- What is not written below the WIT directory keeps the contracts. -/
theorem Reproduced.write {path : List OsString} {data : List UInt8} {dir : List OsString}
    (h : Reproduced files dir disk) (hne : ∀ file ∈ files, dir ++ file.1 ≠ path) :
    Reproduced files dir (disk.write path data).2 := by
  intro file hfile
  obtain ⟨content, hcontent, hnode⟩ := h file hfile
  exact ⟨content, hcontent, (node_write_of_ne (hne file hfile)).trans hnode⟩

/-! ## The two writers -/

/-- A file below a directory that has been made can be written where nothing stands in its way
and its own directory is there. -/
theorem writable_below {made : Disk} {path below : List OsString}
    (hmade : ∀ p, made.IsDir p ↔ p <+: path ∨ disk.IsDir p) (hne : below ≠ []) :
    made.Writable (path ++ below) ↔ ¬ disk.IsDir (path ++ below) ∧
      (below.length = 1 ∨ disk.IsDir (path ++ below.dropLast)) := by
  have hprefix : ∀ rest : List OsString, path ++ rest <+: path ↔ rest = [] := by
    intro rest
    constructor
    · intro h
      have hlength := h.length_le
      rw [List.length_append] at hlength
      exact List.length_eq_zero_iff.mp (by omega)
    · rintro rfl
      rw [List.append_nil]
  have hlast : below.dropLast = [] ↔ below.length = 1 := by
    have hpos := List.length_pos_iff.mpr hne
    rw [← List.length_eq_zero_iff, List.length_dropLast]
    omega
  unfold Writable
  rw [List.dropLast_append_of_ne_nil hne, hmade, hmade, hprefix, hprefix, hlast]
  have hnil : path ++ below ≠ [] := List.append_ne_nil_of_right_ne_nil path hne
  tauto

/-- The steps that both writers begin with. -/
def contractSteps (dir : PathBuf) (wasmBytes manifestBytes : List UInt8)
    (m : KeyMap String String) : List (FsStep E) :=
  layerSteps dir wasmBytes manifestBytes ++ writeWitFiles (dir.join (fileName "wit")) m

theorem takes_contractSteps (h : Collected files m) :
    Takes (storage cwd) io (contractSteps dir wasmBytes manifestBytes m) disk ↔
      Room disk (dir.resolve cwd) ["component.wasm", "Torvyn.toml"] (files.map Prod.fst) := by
  rw [contractSteps, takes_append, takes_writeWitFiles h]
  constructor
  · rintro ⟨hlayers, hfiles⟩
    obtain ⟨hdirs, hnames⟩ := takes_layerSteps.mp hlayers
    refine ⟨hdirs, hnames, List.forall_mem_map.mpr fun file hfile => ?_⟩
    exact (writable_below (fun p => isDir_after_layerSteps hlayers)
      (h.contract file hfile).ne_nil).mp (hfiles file hfile)
  · rintro ⟨hdirs, hnames, hpaths⟩
    have hlayers : Takes (storage cwd) io (layerSteps dir wasmBytes manifestBytes) disk :=
      takes_layerSteps.mpr ⟨hdirs, hnames⟩
    refine ⟨hlayers, fun file hfile => ?_⟩
    exact (writable_below (fun p => isDir_after_layerSteps hlayers)
      (h.contract file hfile).ne_nil).mpr (List.forall_mem_map.mp hpaths file hfile)

theorem isDir_after_contractSteps {p : List OsString}
    (h : Takes (storage cwd) io (contractSteps dir wasmBytes manifestBytes m) disk) :
    (after (storage cwd) io (contractSteps dir wasmBytes manifestBytes m) disk).IsDir p ↔
      p <+: witDir (dir.resolve cwd) ∨ disk.IsDir p := by
  rw [contractSteps] at h ⊢
  obtain ⟨hlayers, hfiles⟩ := takes_append.mp h
  rw [after_append hlayers, isDir_after_writeWitFiles hfiles, isDir_after_layerSteps hlayers]

theorem reproduced_contractSteps (h : Collected files m)
    (htakes : Takes (storage cwd) io (contractSteps dir wasmBytes manifestBytes m) disk) :
    Reproduced files (witDir (dir.resolve cwd))
      (after (storage cwd) io (contractSteps dir wasmBytes manifestBytes m) disk) := by
  rw [contractSteps] at htakes ⊢
  obtain ⟨hlayers, hfiles⟩ := takes_append.mp htakes
  rw [after_append hlayers]
  exact reproduced_writeWitFiles h hfiles

/-- A file beside the WIT directory can be written unless a directory is in its place. -/
theorem takes_write_child {name : String} {data : List UInt8} (hplain : Plain (fileName name))
    (hname : name ≠ "wit")
    (h : Takes (storage cwd) io (contractSteps dir wasmBytes manifestBytes m) disk) :
    Takes (storage cwd) io [.write (dir.join (fileName name)) data]
        (after (storage cwd) io (contractSteps dir wasmBytes manifestBytes m) disk) ↔
      ¬ disk.IsDir (dir.resolve cwd ++ [fileName name]) := by
  have hdir : (after (storage cwd) io (contractSteps dir wasmBytes manifestBytes m) disk).IsDir
      (dir.resolve cwd) := (isDir_after_contractSteps h).mpr (.inl (List.prefix_append _ _))
  have hnot : ¬ dir.resolve cwd ++ [fileName name] <+: witDir (dir.resolve cwd) := by
    intro hprefix
    rcases List.prefix_concat_iff.mp hprefix with heq | hprefix
    · exact child_ne hname heq
    · exact not_prefix_child hprefix
  rw [takes_write, resolve_layer hplain, writable_child hdir, isDir_after_contractSteps h,
    or_iff_right hnot]

/-- A file beside the WIT directory is none of the contracts. -/
theorem contract_ne_child {dir : List OsString} {name : String} (hname : "wit" ≠ name)
    (below : List OsString) : witDir dir ++ below ≠ dir ++ [fileName name] := by
  intro heq
  rw [witDir, List.append_assoc] at heq
  obtain ⟨hhead, -⟩ := List.cons.inj (List.append_cancel_left heq)
  exact hname (Utf8.encode_injective hhead)

theorem room_cons {layers : List String} {layer : String} {paths : List (List OsString)}
    {dir : List OsString} : Room disk dir (layers ++ [layer]) paths ↔
      Room disk dir layers paths ∧ ¬ disk.IsDir (dir ++ [fileName layer]) := by
  constructor
  · rintro ⟨hdirs, hlayers, hpaths⟩
    rw [List.forall_mem_append, List.forall_mem_singleton] at hlayers
    exact ⟨⟨hdirs, hlayers.1, hpaths⟩, hlayers.2⟩
  · rintro ⟨⟨hdirs, hlayers, hpaths⟩, hlayer⟩
    exact ⟨hdirs, List.forall_mem_append.mpr ⟨hlayers, List.forall_mem_singleton.mpr hlayer⟩,
      hpaths⟩

section Writers

variable {Manifest Provenance : Type} {f : Formats Manifest Provenance}
  {contents : ArtifactContents Manifest Provenance} {toml json : String}

theorem writeContents_eq (htoml : f.manifestToToml contents.manifest = .ok toml)
    (hjson : provenanceText f contents = some json) (artifactPath outputDir : PathBuf) :
    writeContents f artifactPath outputDir contents =
      contractSteps outputDir contents.wasmBytes (Utf8.encode toml) contents.witFiles ++
        [.write (outputDir.join (fileName "provenance.json")) (Utf8.encode json)] := by
  unfold writeContents
  rw [htoml, hjson]
  rfl

theorem store_eq (htoml : f.manifestToToml contents.manifest = .ok toml)
    (hjson : provenanceText f contents = some json) (root : PathBuf) (reference : OciReference)
    (digest : ContentDigest) :
    store f root reference contents digest =
      contractSteps (artifactDir root reference) contents.wasmBytes (Utf8.encode toml)
          contents.witFiles ++
        ([.tryWrite ((artifactDir root reference).join (fileName "provenance.json"))
            (Utf8.encode json)] ++
          [.write (digestPath root reference) (Utf8.encode digest.prefixed)]) := by
  unfold store
  dsimp only
  rw [htoml, hjson, contractSteps, layerSteps]
  simp only [List.append_assoc]
  rfl

variable {artifactPath outputDir : PathBuf}

/-- **When `unpack_to_dir` goes through.** -/
theorem takes_writeContents (hfiles : Collected files contents.witFiles)
    (htoml : f.manifestToToml contents.manifest = .ok toml)
    (hjson : provenanceText f contents = some json) {io : PathBuf → ArtifactError} :
    Takes (storage cwd) io (writeContents f artifactPath outputDir contents) disk ↔
      Room disk (outputDir.resolve cwd) ["component.wasm", "Torvyn.toml", "provenance.json"]
        (files.map Prod.fst) := by
  have hlayers : ["component.wasm", "Torvyn.toml", "provenance.json"] =
      ["component.wasm", "Torvyn.toml"] ++ ["provenance.json"] := rfl
  rw [writeContents_eq htoml hjson, takes_append, hlayers, room_cons]
  constructor
  · rintro ⟨hcontracts, hprovenance⟩
    exact ⟨(takes_contractSteps hfiles).mp hcontracts,
      (takes_write_child plain_layers.2.2 (by decide) hcontracts).mp hprovenance⟩
  · rintro ⟨hroom, hprovenance⟩
    have hcontracts : Takes (storage cwd) io (contractSteps outputDir contents.wasmBytes
        (Utf8.encode toml) contents.witFiles) disk := (takes_contractSteps hfiles).mpr hroom
    exact ⟨hcontracts,
      (takes_write_child plain_layers.2.2 (by decide) hcontracts).mpr hprovenance⟩

/-- **`unpack_to_dir` reproduces the contracts** when it goes through. -/
theorem reproduced_writeContents (hfiles : Collected files contents.witFiles)
    (htoml : f.manifestToToml contents.manifest = .ok toml)
    (hjson : provenanceText f contents = some json) {io : PathBuf → ArtifactError}
    (h : Takes (storage cwd) io (writeContents f artifactPath outputDir contents) disk) :
    Reproduced files (witDir (outputDir.resolve cwd))
      (after (storage cwd) io (writeContents f artifactPath outputDir contents) disk) := by
  rw [writeContents_eq htoml hjson] at h ⊢
  obtain ⟨hcontracts, -⟩ := takes_append.mp h
  rw [after_append hcontracts, after_write, resolve_layer plain_layers.2.2]
  exact (reproduced_contractSteps hfiles hcontracts).write fun file _ =>
    contract_ne_child (by decide) file.1

/-! ### The cache -/

variable {root : PathBuf} {reference : OciReference} {digest : ContentDigest}

/-- The file of the digest is the directory of the artifact, or lies beside it. -/
theorem resolve_digestPath (cwd : List OsString) (root : PathBuf) (reference : OciReference) :
    (digestPath root reference).resolve cwd = (artifactDir root reference).resolve cwd ∨
      ∃ parent last name, (artifactDir root reference).resolve cwd = parent ++ [last] ∧
        (digestPath root reference).resolve cwd = parent ++ [name] := by
  unfold digestPath withExtension
  generalize artifactDir root reference = dir
  split
  · exact .inl rfl
  · rename_i last hlast
    split
    · exact .inl rfl
    · rename_i hup
      have hcomponents : dir.components = dir.components.dropLast ++ [last] :=
        (List.dropLast_append_getLast? last hlast).symm
      have hname : stemOf last ++ dot :: fileName "digest" ≠ up := by
        intro heq
        have hlength := congrArg List.length heq
        have hdigest : (fileName "digest").length = 6 := by decide
        simp [up, hdigest] at hlength
      refine .inr ⟨LexicalPath.walk up (if dir.isAbsolute then [] else cwd)
        dir.components.dropLast, last, stemOf last ++ dot :: fileName "digest", ?_, ?_⟩
      · rw [resolve, hcomponents, LexicalPath.walk_append]
        simp [LexicalPath.walk, LexicalPath.enter, hup]
      · rw [resolve, LexicalPath.walk_append]
        simp [LexicalPath.walk, LexicalPath.enter, hname]

/-- **When `store` goes through.** -/
theorem takes_store (hfiles : Collected files contents.witFiles)
    (htoml : f.manifestToToml contents.manifest = .ok toml)
    (hjson : provenanceText f contents = some json) {io : PathBuf → CacheError} :
    Takes (storage cwd) io (store f root reference contents digest) disk ↔
      Room disk ((artifactDir root reference).resolve cwd) ["component.wasm", "Torvyn.toml"]
        (files.map Prod.fst) ∧
      (digestPath root reference).resolve cwd ≠ (artifactDir root reference).resolve cwd ∧
      ¬ disk.IsDir ((digestPath root reference).resolve cwd) := by
  have hdigest : Takes (storage cwd) io (contractSteps (artifactDir root reference)
      contents.wasmBytes (Utf8.encode toml) contents.witFiles) disk →
      ((after (storage cwd) io (contractSteps (artifactDir root reference) contents.wasmBytes
        (Utf8.encode toml) contents.witFiles) disk).Writable
          ((digestPath root reference).resolve cwd) ↔
        (digestPath root reference).resolve cwd ≠ (artifactDir root reference).resolve cwd ∧
        ¬ disk.IsDir ((digestPath root reference).resolve cwd)) := by
    intro hcontracts
    have hmade := fun p => isDir_after_contractSteps (p := p) hcontracts
    obtain heq | ⟨parent, last, name, hdir, hpath⟩ := resolve_digestPath cwd root
      reference
    · rw [heq]
      refine iff_of_false (fun hwritable => hwritable.2.2 ?_) fun h => h.1 rfl
      exact (hmade _).mpr (.inl (List.prefix_append _ _))
    · have hparent : parent <+: witDir ((artifactDir root reference).resolve cwd) := by
        rw [witDir, hdir]
        exact (List.prefix_append parent [last]).trans (List.prefix_append _ _)
      have hprefix : parent ++ [name] <+: witDir ((artifactDir root reference).resolve cwd) ↔
          parent ++ [name] = parent ++ [last] := by
        rw [witDir, hdir, List.prefix_concat_iff, List.prefix_concat_iff]
        simp [not_prefix_child]
      rw [hpath, writable_child ((hmade _).mpr (.inl hparent)), hmade, hprefix, hdir, not_or]
  rw [store_eq htoml hjson, takes_append]
  constructor
  · rintro ⟨hcontracts, hrest⟩
    rw [takes_append, after_tryWrite, takes_write, writable_write, hdigest hcontracts] at hrest
    exact ⟨(takes_contractSteps hfiles).mp hcontracts, hrest.2⟩
  · rintro ⟨hroom, hrest⟩
    have hcontracts : Takes (storage cwd) io (contractSteps (artifactDir root reference)
        contents.wasmBytes (Utf8.encode toml) contents.witFiles) disk :=
      (takes_contractSteps hfiles).mpr hroom
    refine ⟨hcontracts, ?_⟩
    rw [takes_append, after_tryWrite, takes_write, writable_write, hdigest hcontracts]
    exact ⟨takes_tryWrite, hrest⟩

/-- **`store` reproduces the contracts** when it goes through. -/
theorem reproduced_store (hfiles : Collected files contents.witFiles)
    (htoml : f.manifestToToml contents.manifest = .ok toml)
    (hjson : provenanceText f contents = some json) {io : PathBuf → CacheError}
    (h : Takes (storage cwd) io (store f root reference contents digest) disk) :
    Reproduced files (witDir ((artifactDir root reference).resolve cwd))
      (after (storage cwd) io (store f root reference contents digest) disk) := by
  have hdigest : ∀ below : List OsString, witDir ((artifactDir root reference).resolve cwd) ++
      below ≠ (digestPath root reference).resolve cwd := by
    intro below heq
    have hlength := congrArg List.length heq
    -- the directory of the contracts lies deeper than the digest
    obtain hsame | ⟨parent, last, name, hdir, hpath⟩ := resolve_digestPath cwd root
      reference
    · rw [hsame] at hlength
      simp [witDir] at hlength
    · rw [hpath, hdir] at hlength
      simp [witDir] at hlength
  rw [store_eq htoml hjson] at h ⊢
  obtain ⟨hcontracts, hrest⟩ := takes_append.mp h
  obtain ⟨hprovenance, -⟩ := takes_append.mp hrest
  rw [after_append hcontracts, after_append hprovenance, after_tryWrite, after_write,
    resolve_layer plain_layers.2.2]
  exact ((reproduced_contractSteps hfiles hcontracts).write fun file _ =>
    contract_ne_child (by decide) file.1).write fun file _ => hdigest file.1

end Writers

end Disks

end Torvyn.Packaging
