/-
# The WASI configuration of a sandbox

`WasiConfiguration::from_resolved` of `torvyn-security/src/sandbox.rs`: every resolved
filesystem capability becomes a preopened directory, every other WASI capability a
flag.  `from_grant_strings` reads the capabilities from their texts first.
-/
import Torvyn.Security.CapabilityText
import Torvyn.Security.Resolver

namespace Torvyn.Security

/-- A directory preopened for the component. -/
structure PreopenedDir where
  hostPath : String
  guestPath : String
  read : Bool
  write : Bool
  deriving DecidableEq, Repr

/-- What the WASI context of a component is configured with. -/
structure WasiConfiguration where
  preopenedDirs : List PreopenedDir
  allowWallClock : Bool
  allowMonotonicClock : Bool
  allowCryptoRandom : Bool
  allowInsecureRandom : Bool
  allowEnvironment : Bool
  allowStdout : Bool
  allowStderr : Bool
  allowTcpConnect : Bool
  allowTcpListen : Bool
  allowUdp : Bool
  allowHttpOutgoing : Bool
  deriving DecidableEq, Repr

namespace WasiConfiguration

/-- The configuration that denies everything. -/
def denyAll : WasiConfiguration :=
  ⟨[], false, false, false, false, false, false, false, false, false, false, false⟩

/-- A write capability: the first directory with this host path becomes writable, or a
new one is added. -/
def preopenWrite (root : String) : List PreopenedDir → List PreopenedDir
  | [] => [⟨root, root, false, true⟩]
  | d :: dirs =>
      if d.hostPath = root then { d with write := true } :: dirs else d :: preopenWrite root dirs

/-- The loop body of `from_resolved`. -/
def record (config : WasiConfiguration) : Capability → WasiConfiguration
  | .filesystemRead path =>
      { config with
        preopenedDirs := config.preopenedDirs ++ [⟨path.root, path.root, true, false⟩] }
  | .filesystemWrite path =>
      { config with preopenedDirs := preopenWrite path.root config.preopenedDirs }
  | .tcpConnect _ => { config with allowTcpConnect := true }
  | .tcpListen _ => { config with allowTcpListen := true }
  | .udpAccess _ => { config with allowUdp := true }
  | .httpOutgoing _ => { config with allowHttpOutgoing := true }
  | .wallClock => { config with allowWallClock := true }
  | .monotonicClock => { config with allowMonotonicClock := true }
  | .cryptoRandom => { config with allowCryptoRandom := true }
  | .insecureRandom => { config with allowInsecureRandom := true }
  | .environment => { config with allowEnvironment := true }
  | .stdout => { config with allowStdout := true }
  | .stderr => { config with allowStderr := true }
  | _ => config

/-- `from_resolved`. -/
def fromResolved (resolved : ResolvedCapabilitySet) : WasiConfiguration :=
  resolved.capabilities.foldl record denyAll

/-- `from_grant_strings`: the first text that is no capability is the error. -/
def fromGrantStrings (lc : Lowercase) (grants : List String) :
    Except CapabilityParseError WasiConfiguration :=
  (grants.mapM (Capability.fromStr lc)).map fun capabilities => fromResolved (.new capabilities)

/-! ## Flags -/

/-- A flag of the configuration that one kind of capability sets. -/
theorem flag_fromResolved {flag : WasiConfiguration → Bool} {Sets : Capability → Prop}
    (hnone : flag denyAll = false)
    (hrecord : ∀ config c, flag (config.record c) = true ↔ flag config = true ∨ Sets c)
    (caps : List Capability) :
    flag (fromResolved (.new caps)) = true ↔ ∃ c ∈ caps, Sets c := by
  have hrun := flag_foldl_iff hrecord caps denyAll
  rw [hnone] at hrun
  show flag (caps.foldl record denyAll) = true ↔ _
  simpa using hrun

/-! ## Where preopened directories come from -/

/-- Making a path writable adds no other host path. -/
theorem mem_preopenWrite {root : String} {dirs : List PreopenedDir} {d : PreopenedDir}
    (h : d ∈ preopenWrite root dirs) :
    d.hostPath = root ∨ ∃ d' ∈ dirs, d'.hostPath = d.hostPath := by
  induction dirs with
  | nil =>
      rw [preopenWrite, List.mem_singleton] at h
      exact Or.inl (by rw [h])
  | cons d' dirs ih =>
      rw [preopenWrite] at h
      split at h
      · rcases List.mem_cons.mp h with rfl | h
        · exact Or.inr ⟨d', List.mem_cons_self, rfl⟩
        · exact Or.inr ⟨d, List.mem_cons_of_mem _ h, rfl⟩
      · rcases List.mem_cons.mp h with rfl | h
        · exact Or.inr ⟨d, List.mem_cons_self, rfl⟩
        · refine (ih h).imp_right ?_
          rintro ⟨d'', hmem, heq⟩
          exact ⟨d'', List.mem_cons_of_mem _ hmem, heq⟩

/-- One capability adds at most the host path it names. -/
theorem mem_preopenedDirs_record {config : WasiConfiguration} {c : Capability} {d : PreopenedDir}
    (h : d ∈ (config.record c).preopenedDirs) :
    (∃ path, c.pathScope? = some path ∧ path.root = d.hostPath) ∨
      ∃ d' ∈ config.preopenedDirs, d'.hostPath = d.hostPath := by
  cases c
  case filesystemRead path =>
      rcases List.mem_append.mp h with h | h
      · exact Or.inr ⟨d, h, rfl⟩
      · rw [List.mem_singleton] at h
        exact Or.inl ⟨path, rfl, by rw [h]⟩
  case filesystemWrite path =>
      rcases mem_preopenWrite h with heq | h
      · exact Or.inl ⟨path, rfl, heq.symm⟩
      · exact Or.inr h
  all_goals exact Or.inr ⟨d, h, rfl⟩

/-- Every preopened directory is the root of a resolved filesystem capability. -/
theorem exists_of_mem_preopenedDirs {resolved : ResolvedCapabilitySet} {d : PreopenedDir}
    (h : d ∈ (fromResolved resolved).preopenedDirs) :
    ∃ c ∈ resolved.capabilities, ∃ path, c.pathScope? = some path ∧ path.root = d.hostPath := by
  have hrun : ∀ (caps : List Capability) (config : WasiConfiguration),
      d ∈ (caps.foldl record config).preopenedDirs →
        (∃ c ∈ caps, ∃ path, c.pathScope? = some path ∧ path.root = d.hostPath) ∨
          ∃ d' ∈ config.preopenedDirs, d'.hostPath = d.hostPath := by
    intro caps
    induction caps with
    | nil => exact fun config h => Or.inr ⟨d, h, rfl⟩
    | cons c caps ih =>
        intro config h
        rcases ih _ h with ⟨c', hc', hpath⟩ | ⟨d', hd', heq⟩
        · exact Or.inl ⟨c', List.mem_cons_of_mem _ hc', hpath⟩
        · rcases mem_preopenedDirs_record hd' with ⟨path, hpath, hroot⟩ | ⟨d'', hd'', heq'⟩
          · exact Or.inl ⟨c, List.mem_cons_self, path, hpath, hroot.trans heq⟩
          · exact Or.inr ⟨d'', hd'', heq'.trans heq⟩
  rcases hrun _ _ h with h | ⟨d', hd', -⟩
  · exact h
  · exact absurd hd' (by simp [denyAll])

end WasiConfiguration

end Torvyn.Security
