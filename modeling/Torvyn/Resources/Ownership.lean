/-
# The ownership state machine

The transitions of `ownership.rs`. Each one checks the state of an entry and returns the
entry after the transition, or the error without one.
-/
import Torvyn.Resources.Handle

namespace Torvyn

/-- Record a borrow. The borrower is not checked. -/
def borrowStart (handle : BufferHandle) (entry : ResourceEntry) :
    Except ResourceError ResourceEntry :=
  match entry.state with
  | .owned | .borrowed =>
    .ok { entry with borrowCount := (entry.borrowCount + 1) % 2 ^ 32, state := .borrowed }
  | .pooled => .error (.notAllocated handle.resourceId)
  | _ => .error (.staleHandle handle.resourceId)

/-- Record the end of a borrow. -/
def borrowEnd (handle : BufferHandle) (entry : ResourceEntry) :
    Except ResourceError ResourceEntry :=
  match entry.state with
  | .borrowed =>
    if entry.borrowCount = 0 then .error (.staleHandle handle.resourceId)
    else
      let borrowCount := entry.borrowCount - 1
      .ok { entry with
        borrowCount := borrowCount
        state := if borrowCount = 0 then .owned else entry.state }
  | _ => .error (.staleHandle handle.resourceId)

/-- The checks that `begin_transfer` and `release_to_pool` both make: the entry is owned by
the caller and nobody borrows it. -/
def checkOwnedBy (handle : BufferHandle) (caller : OwnerId) (entry : ResourceEntry) :
    Except ResourceError Unit :=
  if entry.state ≠ .owned then
    match entry.state with
    | .borrowed => .error (.borrowsOutstanding handle.resourceId entry.borrowCount)
    | .pooled => .error (.notAllocated handle.resourceId)
    | _ => .error (.staleHandle handle.resourceId)
  else if entry.owner ≠ caller then
    .error (.notOwner handle.resourceId (toString entry.owner) (toString caller))
  else if entry.borrowCount > 0 then
    .error (.borrowsOutstanding handle.resourceId entry.borrowCount)
  else .ok ()

/-- Owned to transit. -/
def beginTransfer (handle : BufferHandle) (caller : OwnerId) (entry : ResourceEntry) :
    Except ResourceError ResourceEntry :=
  match checkOwnedBy handle caller entry with
  | .error e => .error e
  | .ok () => .ok { entry with state := .transit, owner := .transit }

/-- Transit to owned. -/
def completeTransfer (handle : BufferHandle) (newOwner : OwnerId) (entry : ResourceEntry) :
    Except ResourceError ResourceEntry :=
  if entry.state ≠ .transit then .error (.staleHandle handle.resourceId)
  else .ok { entry with state := .owned, owner := newOwner }

/-- Owned to pooled. -/
def releaseToPool (handle : BufferHandle) (caller : OwnerId) (entry : ResourceEntry) :
    Except ResourceError ResourceEntry :=
  match checkOwnedBy handle caller entry with
  | .error e => .error e
  | .ok () => .ok { entry with state := .pooled }

/-! ## What the transitions keep -/

/-- The two entries are one resource: same slot, buffer, capacity and flow. -/
structure SameResource (entry entry' : ResourceEntry) : Prop where
  generation : entry'.generation = entry.generation
  buffer : entry'.buffer = entry.buffer
  payloadCapacity : entry'.payloadCapacity = entry.payloadCapacity
  flowId : entry'.flowId = entry.flowId

variable {handle : BufferHandle} {caller : OwnerId} {entry entry' : ResourceEntry}

/-- Only the owner passes the checks. -/
theorem owner_eq_of_checkOwnedBy (h : checkOwnedBy handle caller entry = .ok ()) :
    entry.state = .owned ∧ entry.owner = caller := by
  unfold checkOwnedBy at h
  split_ifs at h with hstate howner
  · split at h <;> cases h
  · exact ⟨not_not.1 hstate, not_not.1 howner⟩

theorem borrowStart_same (h : borrowStart handle entry = .ok entry') :
    SameResource entry entry' ∧ entry'.owner = entry.owner ∧
    entry'.payloadLen = entry.payloadLen := by
  unfold borrowStart at h
  split at h
  · obtain rfl := Except.ok.inj h
    exact ⟨⟨rfl, rfl, rfl, rfl⟩, rfl, rfl⟩
  · obtain rfl := Except.ok.inj h
    exact ⟨⟨rfl, rfl, rfl, rfl⟩, rfl, rfl⟩
  · cases h
  · cases h

theorem borrowEnd_same (h : borrowEnd handle entry = .ok entry') :
    SameResource entry entry' ∧ entry'.owner = entry.owner ∧
    entry'.payloadLen = entry.payloadLen := by
  unfold borrowEnd at h
  split at h
  · split_ifs at h
    obtain rfl := Except.ok.inj h
    exact ⟨⟨rfl, rfl, rfl, rfl⟩, rfl, rfl⟩
  · cases h

/-- A release passes the checks and keeps everything but the state. -/
theorem releaseToPool_spec (h : releaseToPool handle caller entry = .ok entry') :
    checkOwnedBy handle caller entry = .ok () ∧ entry' = { entry with state := .pooled } := by
  unfold releaseToPool at h
  split at h
  · cases h
  · rename_i hcheck
    exact ⟨hcheck, (Except.ok.inj h).symm⟩

/-- A transfer that begins also completes: the entry changes its owner only. -/
theorem beginTransfer_spec (owner : OwnerId)
    (h : beginTransfer handle caller entry = .ok entry') :
    checkOwnedBy handle caller entry = .ok () ∧
    completeTransfer handle owner entry' = .ok { entry with owner := owner } := by
  unfold beginTransfer at h
  split at h
  · cases h
  · rename_i hcheck
    obtain rfl := Except.ok.inj h
    obtain ⟨hstate, -⟩ := owner_eq_of_checkOwnedBy hcheck
    refine ⟨hcheck, ?_⟩
    simp [completeTransfer, ← hstate]

end Torvyn
