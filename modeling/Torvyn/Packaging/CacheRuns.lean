/-
# Histories of the cache

`is_cached`, `cached_digest`, `store` and `remove` of `torvyn-packaging/src/cache.rs`, over files
whose operations may fail.  A reference is found by the directory and by the file of a digest that
it names.  `answers_of_tidy` says in which histories the cache tells the truth: the references must
keep apart, an artifact must be stored as a whole, and its digest must be removed with it.
-/
import Torvyn.Data.FaultyFiles
import Torvyn.Data.GuardedRun
import Torvyn.Packaging.Containment
import Torvyn.Packaging.Resolution

namespace Torvyn.Packaging

open PathBuf FsStep FileMap

/-! ## Digests -/

/-- `char::is_ascii_hexdigit`. -/
def isAsciiHexdigit (c : Char) : Bool :=
  let n := c.toNat
  (48 ≤ n && n ≤ 57) || (97 ≤ n && n ≤ 102) || (65 ≤ n && n ≤ 70)

/-- `ContentDigest::parse`. -/
def ContentDigest.parse (s : String) : Option ContentDigest :=
  match stripPrefix s "sha256:" with
  | none => none
  | some hex =>
      if (Utf8.encode hex).length ≠ 64 ∨ !hex.toList.all isAsciiHexdigit then none
      else
        let hex := String.ofList (hex.toList.map Char.toLower)
        some ⟨hex, "sha256:" ++ hex⟩

/-- The invariants of a digest: 64 lowercase digits, and the same behind the algorithm. -/
structure ContentDigest.WellFormed (digest : ContentDigest) : Prop where
  length : digest.hex.toList.length = 64
  digits : ∀ c ∈ digest.hex.toList, isAsciiHexdigit c = true ∧ c.isUpper = false
  prefixed : digest.prefixed = "sha256:" ++ digest.hex

theorem not_isWhitespace_of_hexdigit {c : Char} (h : isAsciiHexdigit c = true) :
    isWhitespace c = false := by
  simp only [isAsciiHexdigit, Bool.or_eq_true, Bool.and_eq_true, decide_eq_true_eq] at h
  simp only [isWhitespace, Bool.or_eq_false_iff, Bool.and_eq_false_iff, decide_eq_false_iff_not,
    beq_eq_false_iff_ne]
  omega

theorem length_encode_of_hexdigits {hex : String}
    (h : ∀ c ∈ hex.toList, isAsciiHexdigit c = true) :
    (Utf8.encode hex).length = hex.toList.length := by
  have hone : ∀ c ∈ hex.toList, (String.utf8EncodeChar c).length = 1 := by
    intro c hc
    have hdigit := h c hc
    simp only [isAsciiHexdigit, Bool.or_eq_true, Bool.and_eq_true, decide_eq_true_eq] at hdigit
    rw [String.length_utf8EncodeChar, Char.utf8Size_eq_one_iff, UInt32.le_iff_toNat_le]
    show c.toNat ≤ 127
    omega
  rw [Utf8.encode, List.length_flatMap, List.map_congr_left hone]
  simp

/-- What a digest is written as is read again. -/
theorem ContentDigest.WellFormed.parse_trim {digest : ContentDigest} (h : digest.WellFormed) :
    ContentDigest.parse (trim digest.prefixed) = some digest := by
  have htrim : trim digest.prefixed = digest.prefixed := by
    apply trim_eq_self_of_forall
    intro c hc
    rw [h.prefixed, String.toList_append, List.mem_append] at hc
    rcases hc with hc | hc
    · have hall : ∀ c ∈ "sha256:".toList, isWhitespace c = false := by simp [isWhitespace]
      exact hall c hc
    · exact not_isWhitespace_of_hexdigit (h.digits c hc).1
  have hstrip : stripPrefix digest.prefixed "sha256:" = some digest.hex :=
    stripPrefix_eq_some_iff.mpr h.prefixed
  have hlower : digest.hex.toList.map Char.toLower = digest.hex.toList := by
    refine (List.map_congr_left fun c hc => ?_).trans (List.map_id' _)
    have hupper : ¬ (c.val ≥ 'A'.val ∧ c.val ≤ 'Z'.val) := of_decide_eq_false (h.digits c hc).2
    exact dif_neg hupper
  have hall : digest.hex.toList.all isAsciiHexdigit = true :=
    List.all_eq_true.mpr fun c hc => (h.digits c hc).1
  rw [htrim, parse, hstrip]
  dsimp only
  rw [length_encode_of_hexdigits fun c hc => (h.digits c hc).1, h.length, hall, hlower,
    String.ofList_toList, ← h.prefixed]
  rfl

/-! ## The cache -/

/-- What the file system tells of the files. -/
def localFiles (cwd : List OsString) (files : FileMap) : LocalFiles where
  exist path := files.there (path.resolve cwd)
  readDir path :=
    let dir := path.resolve cwd
    if files.there dir then
      some ((files.keys.filterMap fun file =>
        if dir.isPrefixOf file then (file.drop dir.length).head? else none).dedup.map some)
    else none

section Places

variable (cwd : List OsString) (root : PathBuf) (reference : OciReference)

/-- Where the directory of an artifact is. -/
def dirPlace : List OsString := (artifactDir root reference).resolve cwd

/-- Where the digest of an artifact is. -/
def digestPlace : List OsString := (digestPath root reference).resolve cwd

/-- `cached_digest`. -/
def cachedDigest (files : FileMap) : Option ContentDigest :=
  ((files.lookup (digestPlace cwd root reference)).bind Utf8.decode).bind fun content =>
    ContentDigest.parse (trim content)

/-- `remove`.  That the digest cannot be removed is ignored. -/
def remove (s : FileMap × List Bool) : Except CacheError Unit × FileMap × List Bool :=
  let (removed, s) :=
    if s.1.there (dirPlace cwd root reference) then removeDirAll (dirPlace cwd root reference) s
    else (true, s)
  if removed then
    if s.1.there (digestPlace cwd root reference) then
      (.ok (), (removeFile (digestPlace cwd root reference) s).2)
    else (.ok (), s)
  else (.error (.io (artifactDir root reference)), s)

end Places

section Histories

variable {Manifest Provenance : Type}

/-- An operation on the cache, with the faults that it meets. -/
inductive CacheOp (Manifest Provenance : Type) where
  | store (reference : OciReference) (contents : ArtifactContents Manifest Provenance)
      (digest : ContentDigest) (faults : List Bool)
  | remove (reference : OciReference) (faults : List Bool)

/-- The reference that is operated on. -/
def CacheOp.reference : CacheOp Manifest Provenance → OciReference
  | .store reference _ _ _ => reference
  | .remove reference _ => reference

/-- What is stored when the operation succeeds. -/
def CacheOp.stores :
    CacheOp Manifest Provenance → Option (ArtifactContents Manifest Provenance × ContentDigest)
  | .store _ contents digest _ => some (contents, digest)
  | .remove _ _ => none

/-- The files of the cache, and what the latest store of a reference that has succeeded and has
not been removed since has stored. -/
structure CacheHistory (Manifest Provenance : Type) where
  files : FileMap
  stored : OciReference → Option (ArtifactContents Manifest Provenance × ContentDigest)

variable (f : Formats Manifest Provenance) (cwd : List OsString) (root : PathBuf)

/-- An operation: its result, and the files that it leaves. -/
def CacheOp.run (files : FileMap) : CacheOp Manifest Provenance → Except CacheError Unit × FileMap
  | .store reference contents digest faults =>
      let (result, s) := runAll (scripted cwd) CacheError.io
        (Packaging.store f root reference contents digest) (files, faults)
      (result, s.1)
  | .remove reference faults =>
      let (result, s) := Packaging.remove cwd root reference (files, faults)
      (result, s.1)

/-- The history goes on. -/
def CacheHistory.step (s : CacheHistory Manifest Provenance) (op : CacheOp Manifest Provenance) :
    CacheHistory Manifest Provenance where
  files := (op.run f cwd root s.files).2
  stored :=
    if (op.run f cwd root s.files).1.isOk then Function.update s.stored op.reference op.stores
    else s.stored

/-- The cache before anything has been stored. -/
def CacheHistory.start : CacheHistory Manifest Provenance := ⟨∅, fun _ => none⟩

/-- The files of an artifact, in its directory. -/
def artifactFiles (dir : List OsString) (contents : ArtifactContents Manifest Provenance) :
    List (List OsString × List UInt8) :=
  [(dir ++ [fileName "component.wasm"], contents.wasmBytes)] ++
  ((f.manifestToToml contents.manifest).toOption.map fun toml =>
    (dir ++ [fileName "Torvyn.toml"], Utf8.encode toml)).toList ++
  (inKeyOrder contents.witFiles).map (fun file =>
    (leadsTo (witDir dir) (fileName file.1), Utf8.encode file.2)) ++
  ((provenanceText f contents).map fun json =>
    (dir ++ [fileName "provenance.json"], Utf8.encode json)).toList

/-- **What the cache tells of a reference** is what has been stored: whether it is cached, with
which digest, and with which files. -/
structure Truthful (s : CacheHistory Manifest Provenance) (reference : OciReference) : Prop where
  cached : isCached (localFiles cwd s.files) root reference = (s.stored reference).isSome
  digest : cachedDigest cwd root reference s.files = (s.stored reference).map Prod.snd
  files : ∀ contents digest, s.stored reference = some (contents, digest) →
    ∀ path data, dirPlace cwd root reference <+: path → (s.files.lookup path = some data ↔
      (path, data) ∈ artifactFiles f (dirPlace cwd root reference) contents)

/-- The cache tells the same of a reference. -/
structure SameAnswers (files files' : FileMap) (reference : OciReference) : Prop where
  cached : isCached (localFiles cwd files') root reference =
    isCached (localFiles cwd files) root reference
  digest : cachedDigest cwd root reference files' = cachedDigest cwd root reference files
  files : ∀ path, dirPlace cwd root reference <+: path → files'.lookup path = files.lookup path

/-- An operation leaves the truth about all references, says nothing new about others, and caches
nothing where it fails. -/
structure Answers (references : Set OciReference) (s : CacheHistory Manifest Provenance)
    (op : CacheOp Manifest Provenance) : Prop where
  truthful : ∀ reference ∈ references, Truthful f cwd root (s.step f cwd root op) reference
  others : ∀ reference ∈ references, reference ≠ op.reference →
    SameAnswers cwd root s.files (s.step f cwd root op).files reference
  failed : (op.run f cwd root s.files).1.isOk = false →
    isCached (localFiles cwd s.files) root op.reference = false →
    isCached (localFiles cwd (s.step f cwd root op).files) root op.reference = false

/-! ## What the code relies on -/

/-- The references keep apart: no directory lies in another, and digests have files of their own,
outside the directories. -/
structure Separated (references : Set OciReference) : Prop where
  outside : ∀ a ∈ references, ∀ b ∈ references, ¬ dirPlace cwd root a <+: digestPlace cwd root b
  apart : ∀ a ∈ references, ∀ b ∈ references, a ≠ b →
    ¬ dirPlace cwd root a <+: dirPlace cwd root b ∧ digestPlace cwd root a ≠ digestPlace cwd root b

/-- An artifact is stored as a whole: nothing fails, its files are different ones in its
directory, and they replace all that is there. -/
structure Whole (files : FileMap) (reference : OciReference)
    (contents : ArtifactContents Manifest Provenance) (digest : ContentDigest)
    (faults : List Bool) : Prop where
  manifest : ∃ toml, f.manifestToToml contents.manifest = .ok toml
  valid : digest.WellFormed
  faultless : Faultless faults (store f root reference contents digest).length
  distinct : ((artifactFiles f (dirPlace cwd root reference) contents).map Prod.fst).Nodup
  inside : ∀ file ∈ artifactFiles f (dirPlace cwd root reference) contents,
    dirPlace cwd root reference <+: file.1
  replaced : ∀ path ∈ files.keys, dirPlace cwd root reference <+: path →
    path ∈ (artifactFiles f (dirPlace cwd root reference) contents).map Prod.fst

/-- Storing an artifact fails before it has an effect: before anything is written, or before there
is a manifest. -/
def Early (files : FileMap) (reference : OciReference)
    (contents : ArtifactContents Manifest Provenance) (faults : List Bool) : Prop :=
  ¬ Faultless faults 2 ∨
    files.lookup (dirPlace cwd root reference ++ [fileName "Torvyn.toml"]) = none ∧
      (¬ Faultless faults 3 ∨ ¬ ∃ toml, f.manifestToToml contents.manifest = .ok toml)

/-- An operation that can be relied on: an artifact is stored as a whole or not at all, and
removed with its digest or not at all. -/
def Tidy (references : Set OciReference) (s : CacheHistory Manifest Provenance) :
    CacheOp Manifest Provenance → Prop
  | .store reference contents digest faults => reference ∈ references ∧
      (Whole f cwd root s.files reference contents digest faults ∨
        Early f cwd root s.files reference contents faults)
  | .remove reference faults => reference ∈ references ∧
      (s.files.there (digestPlace cwd root reference) = true →
        fails faults = true ∨ fails faults.tail = false)

/-! ## What an operation does -/

variable {f cwd root} {references : Set OciReference} {s s' : CacheHistory Manifest Provenance}
  {reference : OciReference} {contents : ArtifactContents Manifest Provenance}
  {digest : ContentDigest} {files files' : FileMap} {faults : List Bool} {toml : String}

/-- `store`, when the manifest can be written. -/
theorem store_of_toml (htoml : f.manifestToToml contents.manifest = .ok toml) :
    store f root reference contents digest =
      [.createDirAll (artifactDir root reference),
        .write ((artifactDir root reference).join (fileName "component.wasm"))
          contents.wasmBytes] ++
      ([.write ((artifactDir root reference).join (fileName "Torvyn.toml")) (Utf8.encode toml),
        .createDirAll ((artifactDir root reference).join (fileName "wit"))] ++
      writeWitFiles ((artifactDir root reference).join (fileName "wit")) contents.witFiles ++
      ((provenanceText f contents).map fun json =>
        .tryWrite ((artifactDir root reference).join (fileName "provenance.json"))
          (Utf8.encode json)).toList ++
      [.write (digestPath root reference) (Utf8.encode digest.prefixed)]) := by
  unfold store
  dsimp only
  rw [htoml]

/-- No step of it fails by itself. -/
theorem isFail_store (htoml : f.manifestToToml contents.manifest = .ok toml) :
    ∀ step ∈ store f root reference contents digest, step.isFail = false := by
  intro step hstep
  rw [store_of_toml htoml] at hstep
  simp only [List.mem_append, List.mem_cons, List.not_mem_nil, or_false, Option.mem_toList,
    Option.map_eq_some_iff] at hstep
  rcases hstep with (rfl | rfl) | (((rfl | rfl) | hfile) | ⟨json, -, rfl⟩) | rfl
  · rfl
  · rfl
  · rfl
  · rfl
  · exact writeWitFiles_isFail step hfile
  · rfl
  · rfl

/-- It writes the files of the artifact, and the digest. -/
theorem written_store (htoml : f.manifestToToml contents.manifest = .ok toml) :
    (store f root reference contents digest).filterMap (FileMap.written cwd) =
      artifactFiles f (dirPlace cwd root reference) contents ++
        [(digestPlace cwd root reference, Utf8.encode digest.prefixed)] := by
  obtain ⟨hwasm, hmanifest, hprovenance⟩ := plain_layers
  have hplace : ∀ {name : String}, Plain (fileName name) →
      ((artifactDir root reference).join (fileName name)).resolve cwd =
        dirPlace cwd root reference ++ [fileName name] := fun hplain => resolve_join_plain hplain
  have hwit : (writeWitFiles ((artifactDir root reference).join (fileName "wit"))
      contents.witFiles : List (FsStep CacheError)).filterMap (FileMap.written cwd) =
        (inKeyOrder contents.witFiles).map fun file =>
          (leadsTo (witDir (dirPlace cwd root reference)) (fileName file.1),
            Utf8.encode file.2) := by
    rw [writeWitFiles, List.filterMap_map, ← List.filterMap_eq_map]
    apply List.filterMap_congr
    intro file _
    exact congrArg (fun place => some (place, Utf8.encode file.2)) (resolve_witFile file.1)
  have hjson : ((provenanceText f contents).map fun json =>
      (.tryWrite ((artifactDir root reference).join (fileName "provenance.json"))
        (Utf8.encode json) : FsStep CacheError)).toList.filterMap (FileMap.written cwd) =
      ((provenanceText f contents).map fun json =>
        (dirPlace cwd root reference ++ [fileName "provenance.json"],
          Utf8.encode json)).toList := by
    cases provenanceText f contents with
    | none => rfl
    | some json => exact congrArg (fun place => [(place, Utf8.encode json)]) (hplace hprovenance)
  rw [store_of_toml htoml, List.filterMap_append, List.filterMap_append, List.filterMap_append,
    List.filterMap_append, hwit, hjson, artifactFiles, htoml, ← hplace hwasm, ← hplace hmanifest]
  simp only [List.append_assoc]
  rfl

/-- An artifact that is stored without faults is there, with its digest. -/
theorem run_store (hmanifest : ∃ toml, f.manifestToToml contents.manifest = .ok toml)
    (hfaultless : Faultless faults (store f root reference contents digest).length) :
    (CacheOp.store reference contents digest faults).run f cwd root files =
      (.ok (), files.putAll (artifactFiles f (dirPlace cwd root reference) contents ++
        [(digestPlace cwd root reference, Utf8.encode digest.prefixed)])) := by
  obtain ⟨toml, htoml⟩ := hmanifest
  rw [CacheOp.run, runAll_scripted (isFail_store htoml) hfaultless, written_store htoml]

/-- The history of a store without faults. -/
theorem step_store (hmanifest : ∃ toml, f.manifestToToml contents.manifest = .ok toml)
    (hfaultless : Faultless faults (store f root reference contents digest).length) :
    s.step f cwd root (.store reference contents digest faults) =
      ⟨s.files.putAll (artifactFiles f (dirPlace cwd root reference) contents ++
        [(digestPlace cwd root reference, Utf8.encode digest.prefixed)]),
        Function.update s.stored reference (some (contents, digest))⟩ := by
  unfold CacheHistory.step
  rw [run_store hmanifest hfaultless]
  rfl

/-- A store that fails early leaves a component at most. -/
theorem Early.run_eq (h : Early f cwd root files reference contents faults)
    (digest : ContentDigest) : ∃ error files',
      (CacheOp.store reference contents digest faults).run f cwd root files =
        (.error error, files') ∧
      (files' = files ∨
        files.lookup (dirPlace cwd root reference ++ [fileName "Torvyn.toml"]) = none ∧
        files' = files.insert (dirPlace cwd root reference ++ [fileName "component.wasm"])
          contents.wasmBytes) := by
  have hwasm : ((artifactDir root reference).join (fileName "component.wasm")).resolve cwd =
      dirPlace cwd root reference ++ [fileName "component.wasm"] :=
    resolve_join_plain plain_layers.1
  obtain ⟨rest, hstore, hrest⟩ : ∃ rest : List (FsStep CacheError),
      store f root reference contents digest = .createDirAll (artifactDir root reference) ::
        .write ((artifactDir root reference).join (fileName "component.wasm")) contents.wasmBytes ::
          rest ∧
      ((∃ toml steps, f.manifestToToml contents.manifest = .ok toml ∧ rest =
        .write ((artifactDir root reference).join (fileName "Torvyn.toml")) (Utf8.encode toml) ::
          steps) ∨ ∃ error, rest = [.fail error]) := by
    unfold store
    cases htoml : f.manifestToToml contents.manifest with
    | error e => exact ⟨_, rfl, .inr ⟨_, rfl⟩⟩
    | ok toml => exact ⟨_, rfl, .inl ⟨toml, _, rfl, rfl⟩⟩
  rw [CacheOp.run, hstore, runAll_createDirAll]
  by_cases hfirst : fails faults = true
  · rw [if_pos hfirst]
    exact ⟨_, _, rfl, .inl rfl⟩
  rw [if_neg hfirst, runAll_write]
  by_cases hsecond : fails faults.tail = true
  · rw [if_pos hsecond]
    exact ⟨_, _, rfl, .inl rfl⟩
  rw [if_neg hsecond, hwasm]
  have htwo : Faultless faults 2 := faultless_succ.mpr ⟨by simpa using hfirst,
    faultless_succ.mpr ⟨by simpa using hsecond, by simp [Faultless]⟩⟩
  obtain ⟨hnone, hthird⟩ := h.resolve_left (not_not_intro htwo)
  obtain ⟨toml, steps, htoml, rfl⟩ | ⟨error, rfl⟩ := hrest
  · have hfault : fails faults.tail.tail = true := by
      by_contra hfault
      refine hthird.elim (fun hthree => hthree ?_) fun hno => hno ⟨toml, htoml⟩
      exact faultless_succ.mpr ⟨by simpa using hfirst, faultless_succ.mpr ⟨by simpa using hsecond,
        faultless_succ.mpr ⟨by simpa using hfault, by simp [Faultless]⟩⟩⟩
    rw [runAll_write, if_pos hfault]
    exact ⟨_, _, rfl, .inr ⟨hnone, rfl⟩⟩
  · exact ⟨error, _, rfl, .inr ⟨hnone, rfl⟩⟩

/-- An artifact is removed with its digest, or not at all. -/
theorem remove_cases (hdigest : files.there (digestPlace cwd root reference) = true →
      fails faults = true ∨ fails faults.tail = false)
    (hgone : files.there (dirPlace cwd root reference) = false →
      files.lookup (digestPlace cwd root reference) = none) :
    (remove cwd root reference (files, faults)).1.isOk = false ∧
      (remove cwd root reference (files, faults)).2.1 = files ∨
    (remove cwd root reference (files, faults)).1.isOk = true ∧
      ∀ path, (remove cwd root reference (files, faults)).2.1.lookup path =
        if dirPlace cwd root reference <+: path ∨ path = digestPlace cwd root reference then none
        else files.lookup path := by
  by_cases hdir : files.there (dirPlace cwd root reference) = true
  · by_cases hfirst : fails faults = true
    · left
      simp [remove, removeDirAll, hdir, hfirst, Except.isOk, Except.toBool]
    · right
      have hremove : remove cwd root reference (files, faults) =
          if (files.removeAll (dirPlace cwd root reference)).there
              (digestPlace cwd root reference) then
            (.ok (), (removeFile (digestPlace cwd root reference)
              (files.removeAll (dirPlace cwd root reference), faults.tail)).2)
          else (.ok (), files.removeAll (dirPlace cwd root reference), faults.tail) := by
        simp [remove, removeDirAll, hdir, hfirst]
      rw [hremove]
      split_ifs with hthere
      · have hsecond : fails faults.tail = false :=
          (hdigest (there_of_there_removeAll hthere)).resolve_left hfirst
        refine ⟨rfl, fun path => ?_⟩
        simp only [removeFile, hsecond, Bool.false_eq_true, if_false]
        by_cases hpath : path = digestPlace cwd root reference
        · subst hpath
          simp [AList.lookup_erase]
        · rw [AList.lookup_erase_ne hpath, lookup_removeAll]
          simp [hpath]
      · refine ⟨rfl, fun path => ?_⟩
        by_cases hpath : path = digestPlace cwd root reference
        · subst hpath
          rw [lookup_of_not_there (by simpa using hthere) (List.prefix_refl _)]
          simp
        · rw [lookup_removeAll]
          simp [hpath]
  · right
    have hfalse : files.there (dirPlace cwd root reference) = false := by simpa using hdir
    have hkeep : ∀ path, files.lookup path =
        if dirPlace cwd root reference <+: path ∨ path = digestPlace cwd root reference then none
        else files.lookup path := by
      intro path
      split_ifs with hpath
      · rcases hpath with hpath | rfl
        · exact lookup_of_not_there hfalse hpath
        · exact hgone hfalse
      · rfl
    have hremove : remove cwd root reference (files, faults) =
        if files.there (digestPlace cwd root reference) then
          (.ok (), (removeFile (digestPlace cwd root reference) (files, faults)).2)
        else (.ok (), files, faults) := by
      simp [remove, hfalse]
    rw [hremove]
    have hnone := hgone hfalse
    split_ifs
    · refine ⟨rfl, fun path => ?_⟩
      rw [← hkeep]
      unfold removeFile
      dsimp only
      by_cases hfirst : fails faults = true
      · rw [if_pos hfirst]
      · rw [if_neg hfirst]
        by_cases hpath : path = digestPlace cwd root reference
        · subst hpath
          rw [AList.lookup_erase, hnone]
        · exact AList.lookup_erase_ne hpath
    · exact ⟨rfl, hkeep⟩

/-! ## What is settled of a reference -/

/-- There is a manifest where it has been stored. -/
theorem isCached_iff : isCached (localFiles cwd files) root reference = true ↔
    ∃ path, dirPlace cwd root reference ++ [fileName "Torvyn.toml"] <+: path ∧ path ∈ files := by
  show files.there (((artifactDir root reference).join (fileName "Torvyn.toml")).resolve cwd) =
    true ↔ _
  rw [there_iff, resolve_join_plain plain_layers.2.1]
  rfl

theorem sameAnswers (hdigest : files'.lookup (digestPlace cwd root reference) =
      files.lookup (digestPlace cwd root reference))
    (hfiles : ∀ path, dirPlace cwd root reference <+: path →
      files'.lookup path = files.lookup path) : SameAnswers cwd root files files' reference := by
  refine ⟨?_, by rw [cachedDigest, cachedDigest, hdigest], hfiles⟩
  rw [Bool.eq_iff_iff, isCached_iff, isCached_iff]
  refine exists_congr fun path => and_congr_right fun hbelow => ?_
  rw [← AList.lookup_isSome, ← AList.lookup_isSome,
    hfiles path ((List.prefix_append _ _).trans hbelow)]

/-- The component is all that there may be of a reference for which nothing is stored; what is
stored is there. -/
structure Settled (f : Formats Manifest Provenance) (cwd : List OsString) (root : PathBuf)
    (s : CacheHistory Manifest Provenance) (reference : OciReference) : Prop where
  absent : s.stored reference = none →
    s.files.lookup (digestPlace cwd root reference) = none ∧
      ∀ path ∈ s.files, dirPlace cwd root reference <+: path →
        path = dirPlace cwd root reference ++ [fileName "component.wasm"]
  present : ∀ contents digest, s.stored reference = some (contents, digest) →
    (∃ toml, f.manifestToToml contents.manifest = .ok toml) ∧ digest.WellFormed ∧
      s.files.lookup (digestPlace cwd root reference) = some (Utf8.encode digest.prefixed) ∧
      ∀ path data, dirPlace cwd root reference <+: path → (s.files.lookup path = some data ↔
        (path, data) ∈ artifactFiles f (dirPlace cwd root reference) contents)

namespace Settled

/-- The files of one reference decide. -/
theorem congr (h : Settled f cwd root s reference) (hstored : s'.stored reference =
      s.stored reference)
    (hdigest : s'.files.lookup (digestPlace cwd root reference) =
      s.files.lookup (digestPlace cwd root reference))
    (hfiles : ∀ path, dirPlace cwd root reference <+: path →
      s'.files.lookup path = s.files.lookup path) : Settled f cwd root s' reference := by
  constructor
  · intro hnone
    obtain ⟨hdigest', hfiles'⟩ := h.absent (hstored ▸ hnone)
    refine ⟨hdigest.trans hdigest', fun path hpath hbelow => hfiles' path ?_ hbelow⟩
    rwa [← AList.lookup_isSome, ← hfiles path hbelow, AList.lookup_isSome]
  · intro contents digest hsome
    obtain ⟨htoml, hwf, hdigest', hfiles'⟩ := h.present contents digest (hstored ▸ hsome)
    refine ⟨htoml, hwf, hdigest.trans hdigest', fun path data hbelow => ?_⟩
    rw [hfiles path hbelow]
    exact hfiles' path data hbelow

/-- Where there is a manifest, something is stored. -/
theorem lookup_manifest (h : Settled f cwd root s reference)
    (hstored : s.stored reference = some (contents, digest)) :
    s.files.lookup (dirPlace cwd root reference ++ [fileName "Torvyn.toml"]) ≠ none := by
  obtain ⟨⟨toml, htoml⟩, -, -, hfiles⟩ := h.present contents digest hstored
  rw [(hfiles _ (Utf8.encode toml) (List.prefix_append _ _)).mpr]
  · exact Option.some_ne_none _
  · simp [artifactFiles, htoml, Except.toOption]

/-- Without a directory there is no digest. -/
theorem gone (h : Settled f cwd root s reference)
    (hdir : s.files.there (dirPlace cwd root reference) = false) :
    s.files.lookup (digestPlace cwd root reference) = none := by
  cases hstored : s.stored reference with
  | none => exact (h.absent hstored).1
  | some artifact =>
    have hnone : s.files.lookup (dirPlace cwd root reference ++ [fileName "Torvyn.toml"]) = none :=
      lookup_of_not_there hdir (List.prefix_append _ _)
    exact absurd hnone (h.lookup_manifest hstored)

/-- **Where a reference is settled, the cache tells the truth about it.** -/
theorem truthful (h : Settled f cwd root s reference) : Truthful f cwd root s reference := by
  cases hstored : s.stored reference with
  | none =>
    obtain ⟨hdigest, hfiles⟩ := h.absent hstored
    refine ⟨?_, by rw [cachedDigest, hdigest, hstored]; rfl, fun _ _ hsome => ?_⟩
    · rw [hstored, Option.isSome_none, ← Bool.not_eq_true, isCached_iff]
      rintro ⟨path, hmanifest, hpath⟩
      rw [hfiles path hpath ((List.prefix_append _ _).trans hmanifest),
        List.prefix_append_right_inj] at hmanifest
      revert hmanifest
      decide
    · rw [hstored] at hsome
      cases hsome
  | some artifact =>
    obtain ⟨contents, digest⟩ := artifact
    obtain ⟨-, hwf, hdigest, hfiles⟩ := h.present contents digest hstored
    refine ⟨?_, ?_, fun contents' digest' hsome => ?_⟩
    · rw [hstored, Option.isSome_some, isCached_iff]
      refine ⟨_, List.prefix_refl _, ?_⟩
      rw [← AList.lookup_isSome, Option.isSome_iff_ne_none]
      exact h.lookup_manifest hstored
    · rw [cachedDigest, hdigest, Option.bind_some, Utf8.decode_eq_some_iff.mpr rfl,
        Option.bind_some, hwf.parse_trim, hstored]
      rfl
    · rw [hstored] at hsome
      cases hsome
      exact hfiles

end Settled

/-! ## Histories of tidy operations -/

/-- An operation changes nothing but the files of its reference. -/
theorem lookup_run_of_foreign {op : CacheOp Manifest Provenance}
    (h : Tidy f cwd root references s op) (hself : Settled f cwd root s op.reference)
    {path : List OsString} (hdir : ¬ dirPlace cwd root op.reference <+: path)
    (hdigest : path ≠ digestPlace cwd root op.reference) :
    (op.run f cwd root s.files).2.lookup path = s.files.lookup path := by
  cases op with
  | store reference contents digest faults =>
    obtain ⟨-, hwhole | hearly⟩ := h
    · rw [run_store hwhole.manifest hwhole.faultless]
      apply lookup_putAll_of_notMem
      rw [List.map_append, List.mem_append, not_or]
      refine ⟨fun hmem => ?_, fun hmem => hdigest (List.mem_singleton.mp hmem)⟩
      obtain ⟨file, hfile, rfl⟩ := List.mem_map.mp hmem
      exact hdir (hwhole.inside file hfile)
    · obtain ⟨error, files', hrun, rfl | ⟨-, rfl⟩⟩ := hearly.run_eq digest
      · rw [hrun]
      · rw [hrun]
        apply AList.lookup_insert_ne
        rintro rfl
        exact hdir (List.prefix_append _ _)
  | remove reference faults =>
    show (remove cwd root reference (s.files, faults)).2.1.lookup path = _
    obtain ⟨-, hfiles⟩ | ⟨-, hlookup⟩ := remove_cases h.2 hself.gone
    · rw [hfiles]
    · rw [hlookup]
      exact if_neg (not_or.mpr ⟨hdir, hdigest⟩)

theorem Tidy.mem {op : CacheOp Manifest Provenance} (h : Tidy f cwd root references s op) :
    op.reference ∈ references := by
  cases op with
  | store reference contents digest faults => exact h.1
  | remove reference faults => exact h.1

/-- Nothing changes of another reference. -/
theorem lookup_step_of_ne (hsep : Separated cwd root references)
    {op : CacheOp Manifest Provenance} (h : Tidy f cwd root references s op)
    (hself : Settled f cwd root s op.reference) {other : OciReference}
    (hother : other ∈ references) (hne : other ≠ op.reference) {path : List OsString}
    (hpath : dirPlace cwd root other <+: path ∨ path = digestPlace cwd root other) :
    (s.step f cwd root op).files.lookup path = s.files.lookup path := by
  apply lookup_run_of_foreign h hself
  · intro hbelow
    rcases hpath with hpath | rfl
    · rcases List.prefix_or_prefix_of_prefix hpath hbelow with hnest | hnest
      · exact (hsep.apart other hother _ h.mem hne).1 hnest
      · exact (hsep.apart _ h.mem other hother hne.symm).1 hnest
    · exact hsep.outside _ h.mem other hother hbelow
  · rintro rfl
    rcases hpath with hpath | hpath
    · exact hsep.outside other hother _ h.mem hpath
    · exact (hsep.apart _ h.mem other hother hne.symm).2 hpath

/-- An artifact that is stored as a whole is settled. -/
theorem Whole.settled (h : Whole f cwd root s.files reference contents digest faults)
    (houtside : ¬ dirPlace cwd root reference <+: digestPlace cwd root reference) :
    Settled f cwd root (s.step f cwd root (.store reference contents digest faults))
      reference := by
  have hnodup : ((artifactFiles f (dirPlace cwd root reference) contents ++
      [(digestPlace cwd root reference, Utf8.encode digest.prefixed)]).map Prod.fst).Nodup := by
    rw [List.map_append, List.nodup_append']
    refine ⟨h.distinct, List.nodup_singleton _, fun path hpath hdigest => ?_⟩
    obtain ⟨file, hfile, rfl⟩ := List.mem_map.mp hpath
    have hplace : file.1 = digestPlace cwd root reference := List.mem_singleton.mp hdigest
    exact houtside (hplace ▸ h.inside file hfile)
  have hlookup := fun path data => @lookup_putAll s.files path data _ hnodup
  rw [step_store h.manifest h.faultless]
  constructor
  · intro hnone
    exact absurd ((Function.update_self _ _ _).symm.trans hnone) nofun
  · intro contents' digest' hsome
    cases (Function.update_self _ _ _).symm.trans hsome
    refine ⟨h.manifest, h.valid, ?_, fun path data hbelow => ?_⟩
    · rw [hlookup]
      exact .inl (List.mem_append_right _ (List.mem_singleton_self _))
    · rw [hlookup, List.mem_append, List.mem_singleton]
      constructor
      · rintro ((hmem | heq) | ⟨hnot, hold⟩)
        · exact hmem
        · cases heq
          exact absurd hbelow houtside
        · -- what was there before has been replaced
          have hkey : path ∈ s.files.keys := by
            rw [← AList.mem_keys, ← AList.lookup_isSome, hold]
            rfl
          refine absurd ?_ hnot
          rw [List.map_append]
          exact List.mem_append_left _ (h.replaced path hkey hbelow)
      · intro hmem
        exact .inl (.inl hmem)

/-- A store that fails early leaves its reference settled. -/
theorem Early.settled (h : Early f cwd root s.files reference contents faults)
    (houtside : ¬ dirPlace cwd root reference <+: digestPlace cwd root reference)
    (hsettled : Settled f cwd root s reference) (digest : ContentDigest) :
    Settled f cwd root (s.step f cwd root (.store reference contents digest faults))
      reference := by
  obtain ⟨error, files', hrun, hfiles⟩ := h.run_eq digest
  have hstep : s.step f cwd root (.store reference contents digest faults) =
      ⟨files', s.stored⟩ := by
    unfold CacheHistory.step
    rw [hrun]
    rfl
  rw [hstep]
  obtain rfl | ⟨hnone, rfl⟩ := hfiles
  · exact hsettled
  · cases hstored : s.stored reference with
    | some artifact => exact absurd hnone (hsettled.lookup_manifest hstored)
    | none =>
      obtain ⟨hdigest, hfiles⟩ := hsettled.absent hstored
      refine ⟨fun _ => ⟨?_, fun path hpath hbelow => ?_⟩, fun contents' digest' hsome => ?_⟩
      · rw [AList.lookup_insert_ne, hdigest]
        intro heq
        apply houtside
        rw [heq]
        exact List.prefix_append _ _
      · rcases (AList.mem_insert s.files).mp hpath with rfl | hpath
        · rfl
        · exact hfiles path hpath hbelow
      · exact absurd (hstored.symm.trans hsome) nofun

/-- A removal leaves its reference settled. -/
theorem settled_remove (h : Tidy f cwd root references s (.remove reference faults))
    (hsettled : Settled f cwd root s reference) :
    Settled f cwd root (s.step f cwd root (.remove reference faults)) reference := by
  have hstored : (s.step f cwd root (.remove reference faults)).stored =
      if (remove cwd root reference (s.files, faults)).1.isOk then
        Function.update s.stored reference none else s.stored := rfl
  have hfiles : (s.step f cwd root (.remove reference faults)).files =
      (remove cwd root reference (s.files, faults)).2.1 := rfl
  obtain ⟨hfail, hsame⟩ | ⟨hok, hlookup⟩ := remove_cases h.2 hsettled.gone
  · rw [hfail] at hstored
    rw [hsame] at hfiles
    exact hsettled.congr (congrFun hstored reference) (by rw [hfiles]) fun _ _ => by rw [hfiles]
  · rw [hok] at hstored
    have hnone : (s.step f cwd root (.remove reference faults)).stored reference = none := by
      rw [hstored]
      exact Function.update_self _ _ _
    rw [← hfiles] at hlookup
    refine ⟨fun _ => ⟨?_, fun path hpath hbelow => ?_⟩, fun contents' digest' hsome => ?_⟩
    · exact (hlookup _).trans (if_pos (.inr rfl))
    · rw [← AList.lookup_isSome, hlookup, if_pos (.inl hbelow)] at hpath
      cases hpath
    · exact absurd (hnone.symm.trans hsome) nofun

/-- **A tidy operation leaves every reference settled.** -/
theorem settled_step (hsep : Separated cwd root references) {op : CacheOp Manifest Provenance}
    (h : Tidy f cwd root references s op)
    (hsettled : ∀ reference ∈ references, Settled f cwd root s reference) :
    ∀ reference ∈ references, Settled f cwd root (s.step f cwd root op) reference := by
  intro other hother
  have hself := hsettled _ h.mem
  by_cases hne : other = op.reference
  · subst hne
    have houtside := hsep.outside _ hother _ hother
    cases op with
    | store reference contents digest faults =>
      obtain ⟨-, hwhole | hearly⟩ := h
      · exact hwhole.settled houtside
      · exact hearly.settled houtside hself digest
    | remove reference faults => exact settled_remove h hself
  · have hlookup : ∀ path, dirPlace cwd root other <+: path ∨ path = digestPlace cwd root other →
        (s.step f cwd root op).files.lookup path = s.files.lookup path :=
      fun _ => lookup_step_of_ne hsep h hself hother hne
    refine (hsettled other hother).congr ?_ (hlookup _ (.inr rfl)) fun path hbelow =>
      hlookup path (.inl hbelow)
    unfold CacheHistory.step
    dsimp only
    split_ifs
    · exact Function.update_of_ne hne _ _
    · rfl

/-- **The cache tells the truth in every history of tidy operations** on references that keep
apart. -/
theorem answers_of_tidy (hsep : Separated cwd root references)
    {ops : List (CacheOp Manifest Provenance)}
    (h : Guarded (CacheHistory.step f cwd root) (Tidy f cwd root references) .start ops) :
    Guarded (CacheHistory.step f cwd root) (Answers f cwd root references) .start ops := by
  have hstart : ∀ reference ∈ references,
      Settled f cwd root (.start : CacheHistory Manifest Provenance) reference := by
    intro reference _
    exact ⟨fun _ => ⟨rfl, fun path hpath _ => absurd hpath (AList.notMem_empty path)⟩, nofun⟩
  refine (h.with_invariant (fun s op hop hsettled => settled_step hsep hop hsettled) hstart).mono ?_
  rintro s op ⟨hop, hsettled⟩
  have hself := hsettled _ hop.mem
  refine ⟨fun reference href => (settled_step hsep hop hsettled reference href).truthful,
    fun other hother hne => ?_, fun hfailed hnot => ?_⟩
  · exact sameAnswers (lookup_step_of_ne hsep hop hself hother hne (.inr rfl)) fun path hbelow =>
      lookup_step_of_ne hsep hop hself hother hne (.inl hbelow)
  · have htruth := (settled_step hsep hop hsettled _ hop.mem).truthful
    have hstored : (s.step f cwd root op).stored = s.stored := by
      unfold CacheHistory.step
      rw [hfailed]
      rfl
    rw [htruth.cached, hstored, ← hself.truthful.cached, hnot]

end Histories

/-! ## Small caches -/

/-- An artifact with empty files. -/
def bare : ArtifactContents String Unit := ⟨"", [], ∅, none, ∅⟩

/-- The digest of one digit. -/
def digestOf (c : Char) : ContentDigest :=
  ⟨String.ofList (List.replicate 64 c), "sha256:" ++ String.ofList (List.replicate 64 c)⟩

/-- The root of a cache. -/
def cacheRoot : PathBuf := .parse (fileName "/cache")

theorem artifactFiles_bare (dir : List OsString) : artifactFiles plainFormats dir bare =
    [(dir ++ [fileName "component.wasm"], []), (dir ++ [fileName "Torvyn.toml"], [])] := by
  have hempty : inKeyOrder bare.witFiles = [] := List.mergeSort_nil
  rw [artifactFiles, hempty]
  rfl

theorem wellFormed_digestOf {c : Char} (h : isAsciiHexdigit c = true ∧ c.isUpper = false) :
    (digestOf c).WellFormed := by
  refine ⟨by simp [digestOf], fun d hd => ?_, rfl⟩
  rw [digestOf, String.toList_ofList] at hd
  rwa [List.eq_of_mem_replicate hd]

/-- Two artifacts that keep apart. -/
def twoArtifacts : Set OciReference :=
  {⟨"ghcr.io", "org/filter", some "1", none⟩, ⟨"ghcr.io", "org/router", some "1", none⟩}

/-- The first is stored, storing the second fails, and the first is removed. -/
def tidyOps : List (CacheOp String Unit) :=
  [.store ⟨"ghcr.io", "org/filter", some "1", none⟩ bare (digestOf 'a') [],
    .store ⟨"ghcr.io", "org/router", some "1", none⟩ bare (digestOf 'b') [false, true],
    .remove ⟨"ghcr.io", "org/filter", some "1", none⟩ []]

/-- Artifacts of different repositories do not disturb each other. -/
theorem answers_of_tidy_twoArtifacts : Guarded (CacheHistory.step plainFormats [] cacheRoot)
    (Answers plainFormats [] cacheRoot twoArtifacts) .start tidyOps := by
  refine answers_of_tidy ⟨?_, ?_⟩ ⟨⟨.inl rfl, .inl ⟨⟨"", rfl⟩, wellFormed_digestOf (by decide), ?_,
    ?_, ?_, nofun⟩⟩, ⟨.inr rfl, .inr (.inl (by decide))⟩, ⟨.inl rfl, fun _ => .inr rfl⟩, trivial⟩
  · rintro a (rfl | rfl) b (rfl | rfl) <;> decide
  · rintro a (rfl | rfl) b (rfl | rfl) <;> decide
  · intro b hb
    simp at hb
  · rw [artifactFiles_bare]
    decide
  · rw [artifactFiles_bare]
    decide

/-- **The digest of another tag**: the two tags differ behind their last full stop, where the
extension of the digest's file goes. -/
theorem digest_of_other_tag : ¬∀ ops : List (CacheOp String Unit),
    Guarded (CacheHistory.step plainFormats [] cacheRoot)
      (Answers plainFormats [] cacheRoot {a | ∃ text, OciReference.parse text = some a})
      .start ops := by
  intro h
  let first : OciReference := ⟨"ghcr.io", "org/comp", some "1.2.0", none⟩
  let second : OciReference := ⟨"ghcr.io", "org/comp", some "1.2.1", none⟩
  obtain ⟨-, hsecond, -⟩ := h [.store first bare (digestOf 'a') [],
    .store second bare (digestOf 'b') []]
  have htruth := (hsecond.truthful first ⟨"ghcr.io/org/comp:1.2.0", by decide⟩).digest
  have hplace : digestPlace [] cacheRoot first = digestPlace [] cacheRoot second := by decide
  have hne : first ≠ second := by decide
  have hdistinct : ((artifactFiles plainFormats (dirPlace [] cacheRoot second) bare ++
      [(digestPlace [] cacheRoot second, Utf8.encode (digestOf 'b').prefixed)]).map
        Prod.fst).Nodup := by
    rw [artifactFiles_bare, List.map_append]
    show ([_, _] ++ [_]).Nodup
    decide
  rw [step_store ⟨"", rfl⟩ (by simp [Faultless]), step_store ⟨"", rfl⟩ (by simp [Faultless])]
    at htruth
  dsimp only at htruth
  rw [cachedDigest, hplace, (lookup_putAll hdistinct).mpr (.inl (List.mem_append_right _
    (List.mem_singleton_self _))), Option.bind_some, Utf8.decode_eq_some_iff.mpr rfl,
    Option.bind_some, (wellFormed_digestOf (by decide)).parse_trim, Function.update_of_ne hne,
    Function.update_self] at htruth
  have hdigit := congrArg (fun d => d.map fun digest : ContentDigest => digest.hex.toList.head?)
    htruth
  simp [digestOf] at hdigit

end Torvyn.Packaging
