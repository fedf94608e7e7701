/-
# Where an artifact is extracted

The files of an artifact are written below directories that are given, except that the names of its
WIT files come from the archive as they are.  A name that starts with a slash replaces the
directory that it is joined to, and `..` climbs out of it; `contained_iff` says which archives
stay below the directories all the same.
-/
import Torvyn.Packaging.Cache

namespace Torvyn.Packaging

open PathBuf FsStep

/-- The names under which an archive keeps WIT files. -/
def witNames (archive : List (Option ArchiveEntry)) : List String :=
  archive.filterMap fun entry => entry.bind fun e => witName (Utf8.decodeLossy e.path)

/-- Whatever fails, and whatever is there already, the steps write only below the directory. -/
def Contained {E : Type} (io : PathBuf → E) (cwd : List OsString) (dir : PathBuf)
    (steps : List (FsStep E)) : Prop :=
  ∀ (σ : Type) (st : Storage σ) (s : σ), ∀ path ∈ written st io steps s,
    Under (dir.resolve cwd) (path.resolve cwd)

/-! ## The WIT files that are read -/

/-- No other layer has the path of a WIT file. -/
theorem witName_eq_none_of_layer {path : String}
    (h : path = "component.wasm" ∨ path = "Torvyn.toml" ∨ path = "provenance.json") :
    witName path = none := by
  obtain rfl | rfl | rfl := h <;> decide

theorem mem_witFiles_read {layers : Layers} {entry : ArchiveEntry} {name : String} :
    name ∈ (layers.read entry).witFiles ↔
      name ∈ layers.witFiles ∨ witName (Utf8.decodeLossy entry.path) = some name := by
  have hother : ∀ {files : KeyMap String String}, witName (Utf8.decodeLossy entry.path) = none →
      (name ∈ files ↔ name ∈ files ∨ witName (Utf8.decodeLossy entry.path) = some name) := by
    intro files hnone
    rw [hnone]
    simp
  unfold Layers.read
  dsimp only
  split
  · rename_i hpath
    exact hother (witName_eq_none_of_layer (.inl hpath))
  · split
    · rename_i hpath
      exact hother (witName_eq_none_of_layer (.inr (.inl hpath)))
    · split
      · rename_i hpath
        exact hother (witName_eq_none_of_layer (.inr (.inr hpath)))
      · split
        · rename_i found hfound
          rw [hfound, AList.mem_insert, Option.some.injEq, or_comm, eq_comm]
        · rename_i hnone
          exact hother hnone

theorem mem_witFiles_foldl {entries : List ArchiveEntry} {layers : Layers} {name : String} :
    name ∈ (entries.foldl Layers.read layers).witFiles ↔ name ∈ layers.witFiles ∨
      ∃ entry ∈ entries, witName (Utf8.decodeLossy entry.path) = some name := by
  induction entries generalizing layers with
  | nil => simp
  | cons entry entries ih =>
    rw [List.foldl_cons, ih, mem_witFiles_read, or_assoc]
    simp

/-- All entries of an archive have been read. -/
theorem mapM_entries {error : ArtifactError} {archive : List (Option ArchiveEntry)}
    {entries : List ArchiveEntry}
    (h : (archive.mapM fun entry => entry.elim (.error error) Except.ok) = .ok entries) :
    archive = entries.map some := by
  induction archive generalizing entries with
  | nil =>
    obtain rfl := Except.ok.inj h
    rfl
  | cons entry archive ih =>
    rw [List.mapM_cons] at h
    cases entry with
    | none => cases h
    | some entry =>
      cases hrest : archive.mapM fun entry => entry.elim (.error error) Except.ok with
      | error e =>
        rw [hrest] at h
        cases h
      | ok rest =>
        rw [hrest] at h
        obtain rfl := Except.ok.inj h
        rw [ih hrest]
        rfl

variable {Manifest Provenance : Type} {f : Formats Manifest Provenance}

/-- What has been read of an archive that is accepted. -/
theorem unpack_ok {artifactPath : PathBuf} {archive : List (Option ArchiveEntry)}
    {contents : ArtifactContents Manifest Provenance}
    (h : unpack f artifactPath archive = .ok contents) :
    ∃ entries : List ArchiveEntry, archive = entries.map some ∧
      contents.witFiles = (entries.foldl Layers.read ⟨none, none, ∅, none⟩).witFiles := by
  unfold unpack at h
  cases hentries : archive.mapM fun entry : Option ArchiveEntry =>
      entry.elim (.error (ArtifactError.io artifactPath)) Except.ok with
  | error e =>
    rw [hentries] at h
    cases h
  | ok entries =>
    rw [hentries] at h
    refine ⟨entries, mapM_entries hentries, ?_⟩
    simp only [bind, Except.bind] at h
    split at h
    · cases h
    · cases h
    · split at h
      · cases h
      · split at h
        · cases h
        · obtain rfl := Except.ok.inj h
          rfl

/-- **The WIT files of an artifact** have the names that the archive keeps them under. -/
theorem mem_witFiles_iff {artifactPath : PathBuf} {archive : List (Option ArchiveEntry)}
    {contents : ArtifactContents Manifest Provenance}
    (h : unpack f artifactPath archive = .ok contents) {name : String} :
    name ∈ contents.witFiles ↔ name ∈ witNames archive := by
  obtain ⟨entries, rfl, hfiles⟩ := unpack_ok h
  rw [hfiles, mem_witFiles_foldl, witNames, List.filterMap_map, List.mem_filterMap]
  simp

/-! ## The files that are written -/

/-- The paths to which WIT files are written. -/
theorem mem_targets_writeWitFiles {E : Type} {witDir path : PathBuf}
    {witFiles : KeyMap String String} :
    path ∈ (writeWitFiles witDir witFiles : List (FsStep E)).filterMap target ↔
      ∃ name ∈ witFiles, path = witDir.join (fileName name) := by
  unfold writeWitFiles
  rw [List.filterMap_map, List.mem_filterMap]
  constructor
  · rintro ⟨file, hfile, htarget⟩
    exact ⟨file.1, KeyMap.mem_iff_exists.mpr ⟨file.2, mem_inKeyOrder.mp hfile⟩,
      (Option.some.inj htarget).symm⟩
  · rintro ⟨name, hname, rfl⟩
    obtain ⟨content, hlookup⟩ := KeyMap.mem_iff_exists.mp hname
    exact ⟨(name, content), mem_inKeyOrder.mpr hlookup, rfl⟩

theorem writeWitFiles_isFail {E : Type} {witDir : PathBuf} {witFiles : KeyMap String String} :
    ∀ step ∈ (writeWitFiles witDir witFiles : List (FsStep E)), step.isFail = false := by
  intro step hstep
  obtain ⟨file, -, rfl⟩ := List.mem_map.mp hstep
  rfl

/-- The layers that are written after the component, up to what follows them. -/
theorem mem_planned_layers {E : Type} {dir path : PathBuf} {toml : List UInt8}
    {witFiles : KeyMap String String} {provenance : Option String} {write : String → FsStep E}
    (rest : List (FsStep E))
    (hwrite : ∀ json, (write json).target = some (dir.join (fileName "provenance.json")) ∧
      (write json).isFail = false) :
    path ∈ planned ([.write (dir.join (fileName "Torvyn.toml")) toml,
        .createDirAll (dir.join (fileName "wit"))] ++
        writeWitFiles (dir.join (fileName "wit")) witFiles ++ (provenance.map write).toList ++
        rest) ↔
      path = dir.join (fileName "Torvyn.toml") ∨
      (∃ name ∈ witFiles, path = (dir.join (fileName "wit")).join (fileName name)) ∨
      ((∃ json, provenance = some json) ∧ path = dir.join (fileName "provenance.json")) ∨
      path ∈ planned rest := by
  rw [planned_append]
  · simp only [List.filterMap_append, List.mem_append, mem_targets_writeWitFiles, or_assoc]
    have hfile : ∀ p data, (FsStep.write p data : FsStep E).target = some p := fun _ _ => rfl
    have hdir : ∀ p, (FsStep.createDirAll p : FsStep E).target = none := fun _ => rfl
    cases provenance with
    | none => simp [hfile, hdir, eq_comm]
    | some json => simp [hfile, hdir, (hwrite json).1, eq_comm]
  · intro step hstep
    simp only [List.mem_append] at hstep
    rcases hstep with (hstep | hstep) | hstep
    · simp only [List.mem_cons, List.not_mem_nil, or_false] at hstep
      rcases hstep with rfl | rfl <;> rfl
    · exact writeWitFiles_isFail step hstep
    · obtain ⟨json, -, rfl⟩ := Option.map_eq_some_iff.mp (Option.mem_toList.mp hstep)
      exact (hwrite json).2

/-- **What `unpack_to_dir` plans to write** of an artifact. -/
theorem mem_planned_writeContents {artifactPath outputDir path : PathBuf}
    {contents : ArtifactContents Manifest Provenance} :
    path ∈ planned (writeContents f artifactPath outputDir contents) ↔
      path = outputDir.join (fileName "component.wasm") ∨
      (∃ toml, f.manifestToToml contents.manifest = .ok toml) ∧
        (path = outputDir.join (fileName "Torvyn.toml") ∨
        (∃ name ∈ contents.witFiles,
          path = (outputDir.join (fileName "wit")).join (fileName name)) ∨
        (∃ json, provenanceText f contents = some json) ∧
          path = outputDir.join (fileName "provenance.json")) := by
  unfold writeContents
  cases htoml : f.manifestToToml contents.manifest with
  | error e => simp [target, planned, isFail, eq_comm]
  | ok toml =>
    dsimp only
    rw [planned_append _ (by simp [isFail]), List.mem_append,
      ← List.append_nil (_ ++ Option.toList _), mem_planned_layers [] fun json => ⟨rfl, rfl⟩]
    simp [target, planned, eq_comm]

/-- **What `store` plans to write** of an artifact. -/
theorem mem_planned_store {root path : PathBuf} {reference : OciReference}
    {contents : ArtifactContents Manifest Provenance} {digest : ContentDigest} :
    path ∈ planned (store f root reference contents digest) ↔
      path = (artifactDir root reference).join (fileName "component.wasm") ∨
      (∃ toml, f.manifestToToml contents.manifest = .ok toml) ∧
        (path = (artifactDir root reference).join (fileName "Torvyn.toml") ∨
        (∃ name ∈ contents.witFiles,
          path = ((artifactDir root reference).join (fileName "wit")).join (fileName name)) ∨
        ((∃ json, provenanceText f contents = some json) ∧
          path = (artifactDir root reference).join (fileName "provenance.json")) ∨
        path = digestPath root reference) := by
  unfold store
  dsimp only
  cases htoml : f.manifestToToml contents.manifest with
  | error e => simp [target, planned, isFail, eq_comm]
  | ok toml =>
    dsimp only
    rw [planned_append _ (by simp [isFail]), List.mem_append,
      mem_planned_layers _ fun json => ⟨rfl, rfl⟩]
    simp [target, planned, isFail, eq_comm]

/-! ## Containment -/

theorem contained_iff_planned {E : Type} {io : PathBuf → E} {cwd : List OsString} {dir : PathBuf}
    {steps : List (FsStep E)} : Contained io cwd dir steps ↔
      ∀ path ∈ planned steps, Under (dir.resolve cwd) (path.resolve cwd) :=
  forall_written_iff

/-- Where the WIT files below a directory are kept. -/
def witDir (dir : List OsString) : List OsString := dir ++ [fileName "wit"]

theorem resolve_witFile {cwd : List OsString} {dir : PathBuf} (name : String) :
    ((dir.join (fileName "wit")).join (fileName name)).resolve cwd =
      leadsTo (witDir (dir.resolve cwd)) (fileName name) := by
  have hplain : Plain (fileName "wit") := by decide
  rw [resolve_join_eq, resolve_join_plain hplain]
  rfl

/-- A plain name in a directory lies below what the directory lies at or below. -/
theorem under_join_plain {cwd : List OsString} {dir parent : PathBuf} {name : String}
    (hplain : Plain (fileName name)) :
    Under (dir.resolve cwd) ((parent.join (fileName name)).resolve cwd) ↔
      dir.resolve cwd <+: parent.resolve cwd := by
  rw [resolve_join_plain hplain]
  exact under_concat_iff

/-- The names of the layers are plain. -/
theorem plain_layers : Plain (fileName "component.wasm") ∧ Plain (fileName "Torvyn.toml") ∧
    Plain (fileName "provenance.json") := by
  decide

section Contained

variable {cwd : List OsString} {artifactPath outputDir root : PathBuf}
  {archive : List (Option ArchiveEntry)} {contents : ArtifactContents Manifest Provenance}
  {reference : OciReference} {digest : ContentDigest}

theorem contained_writeContents_iff :
    Contained ArtifactError.io cwd outputDir (writeContents f artifactPath outputDir contents) ↔
      ((∃ toml, f.manifestToToml contents.manifest = .ok toml) → ∀ name ∈ contents.witFiles,
        Under (outputDir.resolve cwd)
          (leadsTo (witDir (outputDir.resolve cwd)) (fileName name))) := by
  obtain ⟨hwasm, htoml, hprovenance⟩ := plain_layers
  have hbelow : ∀ {name : String}, Plain (fileName name) →
      Under (outputDir.resolve cwd) ((outputDir.join (fileName name)).resolve cwd) :=
    fun hplain => (under_join_plain hplain).mpr (List.prefix_refl _)
  rw [contained_iff_planned]
  constructor
  · intro h hrender name hname
    rw [← resolve_witFile]
    apply h
    rw [mem_planned_writeContents]
    exact .inr ⟨hrender, .inr (.inl ⟨name, hname, rfl⟩)⟩
  · intro h path hpath
    rcases mem_planned_writeContents.mp hpath with rfl | ⟨hrender, hpath⟩
    · exact hbelow hwasm
    · rcases hpath with rfl | ⟨name, hname, rfl⟩ | ⟨-, rfl⟩
      · exact hbelow htoml
      · rw [resolve_witFile]
        exact h hrender name hname
      · exact hbelow hprovenance

theorem contained_store_iff :
    Contained CacheError.io cwd root (store f root reference contents digest) ↔
      root.resolve cwd <+: (artifactDir root reference).resolve cwd ∧
      ((∃ toml, f.manifestToToml contents.manifest = .ok toml) →
        Under (root.resolve cwd) ((digestPath root reference).resolve cwd) ∧
        ∀ name ∈ contents.witFiles, Under (root.resolve cwd)
          (leadsTo (witDir ((artifactDir root reference).resolve cwd)) (fileName name))) := by
  obtain ⟨hwasm, htoml, hprovenance⟩ := plain_layers
  rw [contained_iff_planned]
  constructor
  · intro h
    refine ⟨?_, fun hrender => ⟨?_, fun name hname => ?_⟩⟩
    · apply (under_join_plain hwasm).mp
      apply h
      exact mem_planned_store.mpr (.inl rfl)
    · apply h
      exact mem_planned_store.mpr (.inr ⟨hrender, .inr (.inr (.inr rfl))⟩)
    · rw [← resolve_witFile]
      apply h
      exact mem_planned_store.mpr (.inr ⟨hrender, .inr (.inl ⟨name, hname, rfl⟩)⟩)
  · rintro ⟨hdir, hnames⟩ path hpath
    rcases mem_planned_store.mp hpath with rfl | ⟨hrender, hpath⟩
    · exact (under_join_plain hwasm).mpr hdir
    · obtain ⟨hdigest, hwit⟩ := hnames hrender
      rcases hpath with rfl | ⟨name, hname, rfl⟩ | ⟨-, rfl⟩ | rfl
      · exact (under_join_plain htoml).mpr hdir
      · rw [resolve_witFile]
        exact hwit name hname
      · exact (under_join_plain hprovenance).mpr hdir
      · exact hdigest

end Contained

/-- **Which archives stay below the directories** that they are extracted to: those that are not
accepted; and of the others those whose WIT names lead nowhere else, in a cache in which the
directory of the reference and the file beside it lie. -/
theorem contained_iff (f : Formats Manifest Provenance) (cwd : List OsString)
    (artifactPath outputDir root : PathBuf) (archive : List (Option ArchiveEntry))
    (reference : OciReference) (digest : ContentDigest) :
    (Contained ArtifactError.io cwd outputDir (unpackToDir f artifactPath archive outputDir) ∧
      ∀ contents, unpack f artifactPath archive = .ok contents →
        Contained CacheError.io cwd root (store f root reference contents digest)) ↔
      ∀ contents, unpack f artifactPath archive = .ok contents →
        root.resolve cwd <+: (artifactDir root reference).resolve cwd ∧
        ((∃ toml, f.manifestToToml contents.manifest = .ok toml) →
          Under (root.resolve cwd) ((digestPath root reference).resolve cwd) ∧
          ∀ name ∈ witNames archive,
            Under (outputDir.resolve cwd)
              (leadsTo (witDir (outputDir.resolve cwd)) (fileName name)) ∧
            Under (root.resolve cwd)
              (leadsTo (witDir ((artifactDir root reference).resolve cwd)) (fileName name))) := by
  unfold unpackToDir
  cases hunpack : unpack f artifactPath archive with
  | error e =>
    refine iff_of_true ⟨?_, fun _ h => by cases h⟩ fun _ h => by cases h
    rw [contained_iff_planned]
    intro path hpath
    cases hpath
  | ok contents =>
    have hnames : ∀ {name}, name ∈ contents.witFiles ↔ name ∈ witNames archive :=
      mem_witFiles_iff hunpack
    simp only [Except.ok.injEq, forall_eq', contained_writeContents_iff, contained_store_iff,
      hnames]
    constructor
    · rintro ⟨hout, hdir, hcache⟩
      refine ⟨hdir, fun hrender => ⟨(hcache hrender).1, fun name hname => ?_⟩⟩
      exact ⟨hout hrender name hname, (hcache hrender).2 name hname⟩
    · rintro ⟨hdir, hboth⟩
      exact ⟨fun hrender name hname => ((hboth hrender).2 name hname).1, hdir, fun hrender =>
        ⟨(hboth hrender).1, fun name hname => ((hboth hrender).2 name hname).2⟩⟩

/-- Texts as manifests, without provenance. -/
def plainFormats : Formats String Unit where
  manifestFromToml := .ok
  manifestToToml := .ok
  provenanceFromIntoto := fun _ => .error "no provenance"
  provenanceToIntoto := fun _ => .error "no provenance"
  ofBytes := fun _ => ⟨"", ""⟩

/-- An archive whose WIT file has a name with parents in it. -/
def climbing : List (Option ArchiveEntry) :=
  [some ⟨fileName "component.wasm", [0, 97, 115, 109]⟩, some ⟨fileName "Torvyn.toml", []⟩,
    some ⟨fileName "wit/../../evil.wit", []⟩]

/-- **A file beside the output directory**: the name climbs out of `wit`, and out of `/out`. -/
theorem climbing_escapes : ¬ (Contained ArtifactError.io [] (.parse (fileName "/out"))
      (unpackToDir plainFormats (.parse (fileName "/a.torvyn")) climbing
        (.parse (fileName "/out"))) ∧
    ∀ contents, unpack plainFormats (.parse (fileName "/a.torvyn")) climbing = .ok contents →
      Contained CacheError.io [] (.parse (fileName "/cache"))
        (store plainFormats (.parse (fileName "/cache"))
          ⟨"ghcr.io", "acme/filter", some "1.0.0", none⟩ contents ⟨"", ""⟩)) := by
  rintro ⟨h, -⟩
  have hname : "../../evil.wit" ∈ witNames climbing := by decide
  have hout : ¬ Under ((PathBuf.parse (fileName "/out")).resolve [])
      (leadsTo (witDir ((PathBuf.parse (fileName "/out")).resolve []))
        (fileName "../../evil.wit")) := by decide
  unfold unpackToDir at h
  cases hunpack : unpack plainFormats (.parse (fileName "/a.torvyn")) climbing with
  | error e =>
    have hok : (unpack plainFormats (.parse (fileName "/a.torvyn")) climbing).isOk = true := by
      decide
    rw [hunpack] at hok
    cases hok
  | ok contents =>
    rw [hunpack] at h
    apply hout
    apply contained_writeContents_iff.mp h ⟨_, rfl⟩
    exact (mem_witFiles_iff hunpack).mpr hname

end Torvyn.Packaging
