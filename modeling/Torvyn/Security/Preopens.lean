/-
# The preopened directories of a sandbox

`from_resolved` adds a directory for every read capability, and makes the first directory with the
path of a write capability writable.  A write capability that comes first is therefore not merged
with the read capability after it.  `orderIndependent_iff` says for which lists of capabilities
the configuration does not depend on their order and has one directory for each path.
-/
import Torvyn.Security.Sandbox

namespace Torvyn.Security

/-! ## The granted paths -/

/-- The paths that may be read. -/
def readRoots (caps : List Capability) : List String :=
  caps.filterMap fun
    | .filesystemRead path => some path.root
    | _ => none

/-- The paths that may be written. -/
def writeRoots (caps : List Capability) : List String :=
  caps.filterMap fun
    | .filesystemWrite path => some path.root
    | _ => none

/-- The directory that a granted path should have. -/
def dirFor (caps : List Capability) (root : String) : PreopenedDir :=
  ⟨root, root, decide (root ∈ readRoots caps), decide (root ∈ writeRoots caps)⟩

namespace WasiConfiguration

/-- The same flags, and the same directories in any order. -/
structure SameEffect (config other : WasiConfiguration) : Prop where
  dirs : config.preopenedDirs.Perm other.preopenedDirs
  flags : { config with preopenedDirs := [] } = { other with preopenedDirs := [] }

/-- There is one directory for each granted path, with the permissions that are granted. -/
structure Exact (config : WasiConfiguration) (caps : List Capability) : Prop where
  nodup : (config.preopenedDirs.map PreopenedDir.hostPath).Nodup
  mem_iff : ∀ d, d ∈ config.preopenedDirs ↔
    ∃ root, (root ∈ readRoots caps ∨ root ∈ writeRoots caps) ∧ d = dirFor caps root

/-- Every order of the capabilities gives the same configuration, and the right one. -/
def OrderIndependent (caps : List Capability) : Prop :=
  ∀ caps', caps.Perm caps' → SameEffect (fromResolved (.new caps)) (fromResolved (.new caps')) ∧
    Exact (fromResolved (.new caps')) caps

/-! ## The flags -/

section Flags

variable {caps caps' : List Capability}

/-- A flag that one kind of capability sets does not depend on the order. -/
theorem flag_eq_of_perm (flag : WasiConfiguration → Bool) (Sets : Capability → Prop)
    (hnone : flag denyAll = false)
    (hrecord : ∀ config c, flag (config.record c) = true ↔ flag config = true ∨ Sets c)
    (hperm : caps.Perm caps') :
    flag (fromResolved (.new caps)) = flag (fromResolved (.new caps')) := by
  rw [Bool.eq_iff_iff, flag_fromResolved hnone hrecord, flag_fromResolved hnone hrecord]
  simp only [hperm.mem_iff]

theorem flags_eq_of_perm (hperm : caps.Perm caps') :
    { fromResolved (.new caps) with preopenedDirs := [] } =
      { fromResolved (.new caps') with preopenedDirs := [] } := by
  simp only [mk.injEq, true_and]
  refine ⟨?_, ?_, ?_, ?_, ?_, ?_, ?_, ?_, ?_, ?_, ?_⟩
  · exact flag_eq_of_perm (·.allowWallClock) (· = .wallClock) rfl
      (fun config c => by cases c <;> simp [record]) hperm
  · exact flag_eq_of_perm (·.allowMonotonicClock) (· = .monotonicClock) rfl
      (fun config c => by cases c <;> simp [record]) hperm
  · exact flag_eq_of_perm (·.allowCryptoRandom) (· = .cryptoRandom) rfl
      (fun config c => by cases c <;> simp [record]) hperm
  · exact flag_eq_of_perm (·.allowInsecureRandom) (· = .insecureRandom) rfl
      (fun config c => by cases c <;> simp [record]) hperm
  · exact flag_eq_of_perm (·.allowEnvironment) (· = .environment) rfl
      (fun config c => by cases c <;> simp [record]) hperm
  · exact flag_eq_of_perm (·.allowStdout) (· = .stdout) rfl
      (fun config c => by cases c <;> simp [record]) hperm
  · exact flag_eq_of_perm (·.allowStderr) (· = .stderr) rfl
      (fun config c => by cases c <;> simp [record]) hperm
  · exact flag_eq_of_perm (·.allowTcpConnect)
      (fun c => ∃ scope, c = .tcpConnect scope) rfl
      (fun config c => by cases c <;> simp [record]) hperm
  · exact flag_eq_of_perm (·.allowTcpListen)
      (fun c => ∃ scope, c = .tcpListen scope) rfl
      (fun config c => by cases c <;> simp [record]) hperm
  · exact flag_eq_of_perm (·.allowUdp) (fun c => ∃ scope, c = .udpAccess scope)
      rfl (fun config c => by cases c <;> simp [record]) hperm
  · exact flag_eq_of_perm (·.allowHttpOutgoing)
      (fun c => ∃ scope, c = .httpOutgoing scope) rfl
      (fun config c => by cases c <;> simp [record]) hperm

end Flags

/-! ## The directories -/

section Dirs

variable {caps caps' : List Capability} {config : WasiConfiguration} {dirs : List PreopenedDir}
  {root : String}

theorem readRoots_append (caps caps' : List Capability) :
    readRoots (caps ++ caps') = readRoots caps ++ readRoots caps' :=
  List.filterMap_append

theorem writeRoots_append (caps caps' : List Capability) :
    writeRoots (caps ++ caps') = writeRoots caps ++ writeRoots caps' :=
  List.filterMap_append

/-- A path without a directory gets one. -/
theorem preopenWrite_of_notMem (h : root ∉ dirs.map PreopenedDir.hostPath) :
    preopenWrite root dirs = dirs ++ [⟨root, root, false, true⟩] := by
  induction dirs with
  | nil => rfl
  | cons d dirs ih =>
      rw [List.map_cons, List.mem_cons, not_or] at h
      rw [preopenWrite, if_neg (Ne.symm h.1), ih h.2, List.cons_append]

/-- A path whose directory is writable keeps it. -/
theorem preopenWrite_of_mem (h : root ∈ dirs.map PreopenedDir.hostPath)
    (hwrite : ∀ d ∈ dirs, d.hostPath = root → d.write = true) : preopenWrite root dirs = dirs := by
  induction dirs with
  | nil => cases h
  | cons d dirs ih =>
      rw [preopenWrite]
      split
      · rename_i hroot
        have hd := hwrite d List.mem_cons_self hroot
        obtain ⟨hostPath, guestPath, read, write⟩ := d
        obtain rfl : write = true := hd
        rfl
      · rename_i hroot
        rw [List.map_cons, List.mem_cons] at h
        rw [ih (h.resolve_left (Ne.symm hroot)) fun d' hd' =>
          hwrite d' (List.mem_cons_of_mem _ hd')]

/-- Each path is read at most once, and then not written. -/
structure Separate (caps : List Capability) : Prop where
  nodup : (readRoots caps).Nodup
  disjoint : (readRoots caps).Disjoint (writeRoots caps)

theorem Separate.of_append (h : Separate (caps ++ caps')) : Separate caps := by
  obtain ⟨hnodup, hdisjoint⟩ := h
  rw [readRoots_append] at hnodup hdisjoint
  rw [writeRoots_append] at hdisjoint
  exact ⟨hnodup.of_append_left, fun root hread hwrite =>
    hdisjoint (List.mem_append_left _ hread) (List.mem_append_left _ hwrite)⟩

theorem Separate.perm (h : Separate caps) (hperm : caps.Perm caps') : Separate caps' := by
  have hreads : (readRoots caps).Perm (readRoots caps') := hperm.filterMap _
  have hwrites : (writeRoots caps).Perm (writeRoots caps') := hperm.filterMap _
  refine ⟨hreads.nodup_iff.mp h.nodup, fun root hread hwrite => ?_⟩
  exact h.disjoint (hreads.mem_iff.mpr hread) (hwrites.mem_iff.mpr hwrite)

/-- What counts of the capabilities is which paths they name. -/
theorem Exact.congr (h : Exact config caps) (hread : ∀ root, root ∈ readRoots caps' ↔
    root ∈ readRoots caps) (hwrite : ∀ root, root ∈ writeRoots caps' ↔ root ∈ writeRoots caps) :
    Exact config caps' := by
  have hdir : ∀ root, dirFor caps' root = dirFor caps root := by
    intro root
    unfold dirFor
    simp only [hread, hwrite]
  refine ⟨h.nodup, fun d => ?_⟩
  simp only [hread, hwrite, hdir]
  exact h.mem_iff d

/-- The paths that have a directory. -/
theorem Exact.mem_hostPath (h : Exact config caps) : root ∈
    config.preopenedDirs.map PreopenedDir.hostPath ↔ root ∈ readRoots caps ∨
      root ∈ writeRoots caps := by
  rw [List.mem_map]
  constructor
  · rintro ⟨d, hd, rfl⟩
    obtain ⟨root, hroot, rfl⟩ := (h.mem_iff d).mp hd
    exact hroot
  · intro hroot
    exact ⟨dirFor caps root, (h.mem_iff _).mpr ⟨root, hroot, rfl⟩, rfl⟩

/-- A directory is added for a path that has none. -/
theorem Exact.add (h : Exact config caps) {c : Capability}
    (hnew : root ∉ readRoots caps ∧ root ∉ writeRoots caps)
    (hread : ∀ other, other ∈ readRoots (caps ++ [c]) ∨ other ∈ writeRoots (caps ++ [c]) ↔
      (other ∈ readRoots caps ∨ other ∈ writeRoots caps) ∨ other = root)
    (hold : ∀ other, other ≠ root → dirFor (caps ++ [c]) other = dirFor caps other) :
    Exact { config with
      preopenedDirs := config.preopenedDirs ++ [dirFor (caps ++ [c]) root] } (caps ++ [c]) := by
  have hpath : root ∉ config.preopenedDirs.map PreopenedDir.hostPath := by
    rw [h.mem_hostPath]
    exact not_or.mpr hnew
  refine ⟨?_, fun d => ?_⟩
  · rw [List.map_append, List.map_singleton]
    refine h.nodup.append (List.nodup_singleton _) fun other hother hroot => ?_
    rw [List.mem_singleton.mp hroot] at hother
    exact hpath hother
  · rw [List.mem_append, List.mem_singleton, h.mem_iff]
    constructor
    · rintro (⟨other, hother, rfl⟩ | rfl)
      · have hne : other ≠ root := by
          rintro rfl
          exact not_or.mpr hnew hother
        exact ⟨other, (hread other).mpr (.inl hother), (hold other hne).symm⟩
      · exact ⟨root, (hread root).mpr (.inr rfl), rfl⟩
    · rintro ⟨other, hother, rfl⟩
      by_cases hne : other = root
      · subst hne
        exact .inr rfl
      · exact .inl ⟨other, ((hread other).mp hother).resolve_right hne, hold other hne⟩

/-- One capability more. -/
theorem Exact.record (h : Exact config caps) {c : Capability} (hsep : Separate (caps ++ [c])) :
    Exact (config.record c) (caps ++ [c]) := by
  obtain ⟨hnodup, hdisjoint⟩ := hsep
  cases c
  case filesystemRead path =>
    have hreads : readRoots (caps ++ [.filesystemRead path]) = readRoots caps ++ [path.root] :=
      readRoots_append _ _
    have hwrites : writeRoots (caps ++ [.filesystemRead path]) = writeRoots caps :=
      (writeRoots_append _ _).trans (List.append_nil _)
    rw [hreads] at hnodup hdisjoint
    rw [hwrites] at hdisjoint
    have hread : path.root ∉ readRoots caps := fun hmem =>
      (List.nodup_append.mp hnodup).2.2 _ hmem _ (List.mem_singleton_self _) rfl
    have hwrite : path.root ∉ writeRoots caps :=
      hdisjoint (List.mem_append_right _ (List.mem_singleton_self _))
    have hadd := h.add (c := .filesystemRead path) ⟨hread, hwrite⟩ (fun other => ?_)
      fun other hne => ?_
    · have hdir : dirFor (caps ++ [.filesystemRead path]) path.root =
          ⟨path.root, path.root, true, false⟩ := by
        unfold dirFor
        rw [hreads, hwrites]
        simp [hwrite]
      rw [hdir] at hadd
      exact hadd
    · rw [hreads, hwrites, List.mem_append, List.mem_singleton]
      tauto
    · unfold dirFor
      simp [hreads, hwrites, hne]
  case filesystemWrite path =>
    have hreads : readRoots (caps ++ [.filesystemWrite path]) = readRoots caps :=
      (readRoots_append _ _).trans (List.append_nil _)
    have hwrites : writeRoots (caps ++ [.filesystemWrite path]) = writeRoots caps ++ [path.root] :=
      writeRoots_append _ _
    rw [hreads, hwrites] at hdisjoint
    have hread : path.root ∉ readRoots caps := fun hmem =>
      hdisjoint hmem (List.mem_append_right _ (List.mem_singleton_self _))
    by_cases hwrite : path.root ∈ writeRoots caps
    · -- the directory is there and writable
      have hsame : preopenWrite path.root config.preopenedDirs = config.preopenedDirs := by
        refine preopenWrite_of_mem (h.mem_hostPath.mpr (.inr hwrite)) fun d hd hroot => ?_
        obtain ⟨root, -, rfl⟩ := (h.mem_iff d).mp hd
        obtain rfl : root = path.root := hroot
        exact decide_eq_true hwrite
      have hconfig : config.record (.filesystemWrite path) = config := by
        show { config with preopenedDirs := preopenWrite path.root config.preopenedDirs } = config
        rw [hsame]
      rw [hconfig]
      refine h.congr (fun root => by rw [hreads]) fun root => ?_
      rw [hwrites, List.mem_append, List.mem_singleton]
      refine or_iff_left_of_imp ?_
      rintro rfl
      exact hwrite
    · have hadd := h.add (c := .filesystemWrite path) ⟨hread, hwrite⟩ (fun other => ?_)
        fun other hne => ?_
      · have hdir : dirFor (caps ++ [.filesystemWrite path]) path.root =
            ⟨path.root, path.root, false, true⟩ := by
          unfold dirFor
          rw [hreads, hwrites]
          simp [hread]
        rw [hdir] at hadd
        have hnew := @preopenWrite_of_notMem config.preopenedDirs path.root
          (by rw [h.mem_hostPath]; exact not_or.mpr ⟨hread, hwrite⟩)
        show Exact { config with
          preopenedDirs := preopenWrite path.root config.preopenedDirs } _
        rw [hnew]
        exact hadd
      · rw [hreads, hwrites, List.mem_append, List.mem_singleton]
        tauto
      · unfold dirFor
        simp [hreads, hwrites, hne]
  all_goals
    refine @Exact.congr caps _ _ ⟨h.nodup, h.mem_iff⟩ (fun root => ?_) fun root => ?_
    · rw [readRoots_append]
      simp [readRoots]
    · rw [writeRoots_append]
      simp [writeRoots]

/-- **Separate capabilities give one directory for each path.** -/
theorem exact_fromResolved (hsep : Separate caps) : Exact (fromResolved (.new caps)) caps := by
  induction caps using List.reverseRecOn with
  | nil => exact ⟨List.nodup_nil, fun d => by simp [fromResolved, ResolvedCapabilitySet.new, denyAll,
      readRoots, writeRoots]⟩
  | append_singleton caps c ih =>
      have hlast : fromResolved (.new (caps ++ [c])) = (fromResolved (.new caps)).record c :=
        List.foldl_concat _ _ _ _
      rw [hlast]
      exact (ih hsep.of_append).record hsep

/-! ## Capabilities that are not separate -/

/-- The number of directories with a path. -/
def dirCount (config : WasiConfiguration) (root : String) : ℕ :=
  (config.preopenedDirs.map PreopenedDir.hostPath).count root

theorem count_preopenWrite_le (path : String) (dirs : List PreopenedDir) :
    (dirs.map PreopenedDir.hostPath).count root ≤
      ((preopenWrite path dirs).map PreopenedDir.hostPath).count root := by
  induction dirs with
  | nil => exact Nat.zero_le _
  | cons d dirs ih =>
      rw [preopenWrite]
      split
      · exact le_rfl
      · simp only [List.map_cons, List.count_cons]
        omega

/-- No directory goes, and every read capability adds one. -/
theorem dirCount_foldl (config : WasiConfiguration) (caps : List Capability) (root : String) :
    dirCount config root + (readRoots caps).count root ≤
      dirCount (caps.foldl record config) root := by
  induction caps generalizing config with
  | nil => exact le_rfl
  | cons c caps ih =>
      refine le_trans ?_ (ih (config.record c))
      have happend := readRoots_append [c] caps
      rw [List.singleton_append] at happend
      rw [happend, List.count_append]
      have hstep : dirCount config root + (readRoots [c]).count root ≤
          dirCount (config.record c) root := by
        unfold dirCount
        cases c
        case filesystemRead path =>
          show _ + [path.root].count root ≤ ((config.preopenedDirs ++ _).map _).count root
          rw [List.map_append, List.count_append]
          exact le_rfl
        case filesystemWrite path =>
          exact count_preopenWrite_le path.root config.preopenedDirs
        all_goals exact le_rfl
      omega

/-- A path that is written before it is read gets two directories. -/
theorem two_le_dirCount {path : PathScope} (hread : path.root ∈ readRoots caps) :
    2 ≤ dirCount (fromResolved (.new (.filesystemWrite path :: caps))) path.root := by
  have hcount := dirCount_foldl (denyAll.record (.filesystemWrite path)) caps path.root
  have hfirst : dirCount (denyAll.record (.filesystemWrite path)) path.root = 1 := by
    show [path.root].count path.root = 1
    rw [List.count_singleton_self]
  have hpos := List.count_pos_iff.mpr hread
  rw [hfirst] at hcount
  exact le_trans (by omega) hcount

/-- **The configuration does not depend on the order of the capabilities exactly when each path is
read at most once, and then not written.** -/
theorem orderIndependent_iff (caps : List Capability) : OrderIndependent caps ↔
    (readRoots caps).Nodup ∧ (readRoots caps).Disjoint (writeRoots caps) := by
  constructor
  · intro h
    constructor
    · -- two read capabilities add two directories
      obtain ⟨-, hexact⟩ := h caps (.refl _)
      rw [List.nodup_iff_count_le_one]
      intro root
      have hcount := dirCount_foldl denyAll caps root
      exact le_trans (le_trans (Nat.le_add_left _ _) hcount)
        (List.nodup_iff_count_le_one.mp hexact.nodup root)
    · -- in the order with the write capability first there are two directories
      intro root hread hwrite
      obtain ⟨c, hc, hroot⟩ := List.mem_filterMap.mp hwrite
      cases c <;> simp only [reduceCtorEq, Option.some.injEq] at hroot
      rename_i path
      subst hroot
      obtain ⟨before, after, rfl⟩ := List.append_of_mem hc
      have hperm : (before ++ .filesystemWrite path :: after).Perm
          (.filesystemWrite path :: (before ++ after)) := List.perm_middle
      have hrest : path.root ∈ readRoots (before ++ after) := by
        have hmem := (hperm.filterMap _).mem_iff.mp hread
        exact hmem
      obtain ⟨-, hexact⟩ := h _ hperm
      have hle := List.nodup_iff_count_le_one.mp hexact.nodup path.root
      exact absurd (le_trans (two_le_dirCount hrest) hle) (by decide)
  · rintro ⟨hnodup, hdisjoint⟩ caps' hperm
    have hsep : Separate caps := ⟨hnodup, hdisjoint⟩
    have hexact := exact_fromResolved hsep
    have hexact' : Exact (fromResolved (.new caps')) caps :=
      (exact_fromResolved (hsep.perm hperm)).congr
        (fun root => (hperm.filterMap _).mem_iff) fun root => (hperm.filterMap _).mem_iff
    refine ⟨⟨?_, flags_eq_of_perm hperm⟩, hexact'⟩
    refine (List.perm_ext_iff_of_nodup (List.Nodup.of_map _ hexact.nodup)
      (List.Nodup.of_map _ hexact'.nodup)).mpr fun d => ?_
    rw [hexact.mem_iff, hexact'.mem_iff]

/-- **A write capability before a read capability for the same path**: two directories for the
path, each with one of the permissions; the other order gives one directory with both. -/
theorem write_before_read_splits :
    let read : Capability := .filesystemRead ⟨"/data"⟩
    let write : Capability := .filesystemWrite ⟨"/data"⟩
    (fromResolved (.new [read, write])).preopenedDirs = [⟨"/data", "/data", true, true⟩] ∧
      (fromResolved (.new [write, read])).preopenedDirs =
        [⟨"/data", "/data", false, true⟩, ⟨"/data", "/data", true, false⟩] ∧
      ¬ OrderIndependent [read, write] := by
  intro read write
  have htwo : (fromResolved (.new [write, read])).preopenedDirs =
      [⟨"/data", "/data", false, true⟩, ⟨"/data", "/data", true, false⟩] := by decide
  refine ⟨by decide, htwo, fun h => ?_⟩
  obtain ⟨-, hexact⟩ := h [write, read] (List.Perm.swap _ _ _)
  have hnodup := hexact.nodup
  rw [htwo] at hnodup
  exact absurd hnodup (by decide)

end Dirs

end WasiConfiguration

end Torvyn.Security
