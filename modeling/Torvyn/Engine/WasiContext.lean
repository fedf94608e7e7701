/-
# The WASI context of a store

`build_wasi_ctx` of `torvyn-engine/src/host_state.rs` turns the configuration of a sandbox
into the context that the guest's system calls are checked against.  Of the context this is
kept of `wasmtime-wasi`: a preopened directory gives its permissions to what lies below it,
inheriting the network opens every address, and the two socket families are switched on and
off as a whole.

Files are reached only below a granted path, and the streams and the environment only with
their own grants.  The host and the ports of a network grant are not carried over: any TCP
grant allows connecting and listening anywhere (`allows_spec`).
-/
import Torvyn.Security.Sandbox

namespace Torvyn.Engine

open Security

/-! ## The context -/

/-- The permissions of a directory, or of the files in it. -/
structure Perms where
  read : Bool
  write : Bool
  deriving DecidableEq, Repr

/-- A directory that is open to the guest. -/
structure Preopen where
  hostPath : String
  guestPath : String
  dirPerms : Perms
  filePerms : Perms
  deriving DecidableEq, Repr

/-- What the builder has been told. -/
structure WasiCtx where
  stdout : Bool
  stderr : Bool
  env : Bool
  preopens : List Preopen
  network : Bool
  tcp : Bool
  udp : Bool
  deriving DecidableEq, Repr

/-- `WasiCtxBuilder::new`: nothing is inherited. -/
def WasiCtx.new : WasiCtx := ⟨false, false, false, [], false, false, false⟩

/-- The path is a directory, or is reached from it through names. -/
def Below (dir path : String) : Prop :=
  path = dir ∨ ∃ rest, ".." ∉ split rest '/' ∧
    path = (if dir = "/" then "/" else dir ++ "/") ++ rest

section Flags

variable (caps : List Capability)

end Flags

/-- The permissions of a preopened directory are granted for its path. -/
def DirsGranted (caps : List Capability) (dirs : List PreopenedDir) : Prop :=
  ∀ d ∈ dirs, (d.read = true → .filesystemRead ⟨d.hostPath⟩ ∈ caps) ∧
    (d.write = true → .filesystemWrite ⟨d.hostPath⟩ ∈ caps)

theorem DirsGranted.preopenWrite {caps : List Capability} {dirs : List PreopenedDir}
    (h : DirsGranted caps dirs) {root : String} (hgrant : .filesystemWrite ⟨root⟩ ∈ caps) :
    DirsGranted caps (WasiConfiguration.preopenWrite root dirs) := by
  induction dirs with
  | nil =>
      intro d hd
      obtain rfl := List.mem_singleton.mp hd
      exact ⟨fun hread => (by cases hread), fun _ => hgrant⟩
  | cons first dirs ih =>
      have hrest : DirsGranted caps dirs := fun d hd => h d (List.mem_cons_of_mem _ hd)
      rw [WasiConfiguration.preopenWrite]
      split
      · rename_i hroot
        intro d hd
        rcases List.mem_cons.mp hd with rfl | hd
        · exact ⟨(h first List.mem_cons_self).1, fun _ => by rw [← hroot] at hgrant; exact hgrant⟩
        · exact hrest d hd
      · intro d hd
        rcases List.mem_cons.mp hd with rfl | hd
        · exact h d List.mem_cons_self
        · exact ih hrest d hd

end Torvyn.Engine
