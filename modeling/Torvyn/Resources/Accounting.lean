/-
# Copy accounting

The copy ledger of `accounting.rs`: per-flow statistics of the copies between host and
component memory. The counters are 64-bit and wrap around. The metadata counter, which the
resource manager never touches, and the events sent to the observability sink are left out.
-/
import Torvyn.Types

namespace Torvyn

/-- Why a copy was made. -/
inductive CopyReason where
  | hostToComponent
  | componentToHost
  | crossComponent
  | poolReturn
  deriving DecidableEq, Repr

instance : Fintype CopyReason where
  elems := {.hostToComponent, .componentToHost, .crossComponent, .poolReturn}
  complete reason := by cases reason <;> decide

/-- The copy statistics of a flow. -/
structure FlowCopyStats where
  totalPayloadBytes : ℕ
  totalCopyOps : ℕ
  copiesByReason : CopyReason → ℕ

namespace FlowCopyStats

/-- All counters at zero. -/
def new : FlowCopyStats where
  totalPayloadBytes := 0
  totalCopyOps := 0
  copiesByReason _ := 0

/-- Record a copy. -/
def record (byteCount : ℕ) (reason : CopyReason) (stats : FlowCopyStats) : FlowCopyStats where
  totalPayloadBytes := (stats.totalPayloadBytes + byteCount) % 2 ^ 64
  totalCopyOps := (stats.totalCopyOps + 1) % 2 ^ 64
  copiesByReason := Function.update stats.copiesByReason reason
    ((stats.copiesByReason reason + 1) % 2 ^ 64)

end FlowCopyStats

/-- The statistics of the registered flows. -/
abbrev CopyLedger := FlowId → Option FlowCopyStats

namespace CopyLedger

/-- A ledger without flows. -/
def new : CopyLedger := fun _ => none

/-- Make sure a flow has an entry. -/
def registerFlow (flowId : FlowId) (ledger : CopyLedger) : CopyLedger :=
  Function.update ledger flowId (some ((ledger flowId).getD .new))

/-- Record a copy for a flow; one that is not registered is not counted. -/
def recordCopy (flowId : FlowId) (byteCount : ℕ) (reason : CopyReason) (ledger : CopyLedger) :
    CopyLedger :=
  match ledger flowId with
  | none => ledger
  | some stats => Function.update ledger flowId (some (stats.record byteCount reason))

/-- The statistics of a flow, all zero when it has no entry. -/
def flowStats (flowId : FlowId) (ledger : CopyLedger) : FlowCopyStats :=
  (ledger flowId).getD .new

/-- Drop the entry of a flow. -/
def removeFlow (flowId : FlowId) (ledger : CopyLedger) : CopyLedger :=
  Function.update ledger flowId none

/-- A copy changes the statistics of its own flow only. -/
theorem recordCopy_of_ne {flowId other : FlowId} (h : other ≠ flowId) (byteCount : ℕ)
    (reason : CopyReason) (ledger : CopyLedger) :
    recordCopy flowId byteCount reason ledger other = ledger other := by
  cases hflow : ledger flowId with
  | none => simp only [recordCopy, hflow]
  | some stats => simp only [recordCopy, hflow, Function.update_of_ne h]

theorem recordCopy_self {flowId : FlowId} {byteCount : ℕ} {reason : CopyReason}
    {ledger : CopyLedger} {stats : FlowCopyStats} (h : ledger flowId = some stats) :
    recordCopy flowId byteCount reason ledger flowId = some (stats.record byteCount reason) := by
  simp only [recordCopy, h, Function.update_self]

end CopyLedger

end Torvyn
