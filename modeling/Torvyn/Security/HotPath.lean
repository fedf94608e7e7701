/-
# The hot-path bitmask

The checks that are made for each element read a precomputed bitmask, `HotPathCapabilities` of
`torvyn-security/src/guard.rs`, instead of asking `permits`.  The mask has one bit for resource
allocation and forgets the pools that a grant names.  `allows_eq_permits_iff` says for which
capabilities and requests the two checks agree all the same.
-/
import Torvyn.Security.Resolver

namespace Torvyn.Security

namespace HotPathCapabilities

/-- `can_allocate_resource`. -/
def canAllocateResource (mask : HotPathCapabilities) : Bool := mask.resourceAllocate

/-- `can_emit_backpressure`. -/
def canEmitBackpressure (mask : HotPathCapabilities) : Bool := mask.emitBackpressure

/-- `can_emit_custom_metrics`. -/
def canEmitCustomMetrics (mask : HotPathCapabilities) : Bool := mask.customMetrics

/-- `can_inspect_flow_meta`. -/
def canInspectFlowMeta (mask : HotPathCapabilities) : Bool := mask.inspectFlowMeta

end HotPathCapabilities

/-- `empty`. -/
def ResolvedCapabilitySet.empty : ResolvedCapabilitySet := ⟨[], .denyAll⟩

/-- What a component may ask for with each element. -/
inductive HotPathRequest where
  | allocateResource (pool : Option PoolScope)
  | emitBackpressure
  | emitCustomMetrics
  | inspectFlowMeta
  deriving DecidableEq, Repr

namespace HotPathRequest

/-- The capability that the full check is asked for. -/
def capability : HotPathRequest → Capability
  | allocateResource pool => .resourceAllocate pool
  | emitBackpressure => .emitBackpressure
  | emitCustomMetrics => .customMetrics
  | inspectFlowMeta => .inspectFlowMeta

/-- The accessor of the bitmask that is read for a request. -/
def allowedBy (mask : HotPathCapabilities) : HotPathRequest → Bool
  | allocateResource _ => mask.canAllocateResource
  | emitBackpressure => mask.canEmitBackpressure
  | emitCustomMetrics => mask.canEmitCustomMetrics
  | inspectFlowMeta => mask.canInspectFlowMeta

/-- An allocation is asked for where no allocation is granted, or one from all pools, or one from
the same pool.  The other requests have no scope. -/
def PoolGranted (caps : List Capability) : HotPathRequest → Prop
  | allocateResource pool => (∀ granted, .resourceAllocate granted ∉ caps) ∨
      .resourceAllocate none ∈ caps ∨ .resourceAllocate pool ∈ caps
  | _ => True

end HotPathRequest

open HotPathRequest

section Agreement

variable {caps : List Capability}

/-- A bit of the mask that one kind of capability sets. -/
theorem bit_fromCapabilities (bit : HotPathCapabilities → Bool) (Sets : Capability → Prop)
    (hnone : bit .denyAll = false)
    (hrecord : ∀ mask c, bit (.record mask c) = true ↔ bit mask = true ∨ Sets c)
    (caps : List Capability) :
    bit (.fromCapabilities caps) = true ↔ ∃ c ∈ caps, Sets c := by
  have hrun := flag_foldl_iff hrecord caps .denyAll
  rw [hnone] at hrun
  show bit (caps.foldl HotPathCapabilities.record .denyAll) = true ↔ _
  simpa using hrun

/-- The mask allows a request exactly when some capability is of its kind. -/
theorem allowedBy_iff (caps : List Capability) (request : HotPathRequest) :
    request.allowedBy (.fromCapabilities caps) = true ↔
      ∃ c ∈ caps, c.sameKind request.capability = true := by
  cases request with
  | allocateResource pool =>
      exact bit_fromCapabilities (·.resourceAllocate) _ rfl
        (fun mask c => by cases c <;> simp [HotPathCapabilities.record, Capability.sameKind,
          capability, Capability.ctorIdx]) caps
  | emitBackpressure =>
      exact bit_fromCapabilities (·.emitBackpressure) _ rfl
        (fun mask c => by cases c <;> simp [HotPathCapabilities.record, Capability.sameKind,
          capability, Capability.ctorIdx]) caps
  | emitCustomMetrics =>
      exact bit_fromCapabilities (·.customMetrics) _ rfl
        (fun mask c => by cases c <;> simp [HotPathCapabilities.record, Capability.sameKind,
          capability, Capability.ctorIdx]) caps
  | inspectFlowMeta =>
      exact bit_fromCapabilities (·.inspectFlowMeta) _ rfl
        (fun mask c => by cases c <;> simp [HotPathCapabilities.record, Capability.sameKind,
          capability, Capability.ctorIdx]) caps

theorem permits_iff (request : Capability) :
    (ResolvedCapabilitySet.new caps).permits request = true ↔
      ∃ c ∈ caps, c.satisfies request = true :=
  List.any_eq_true

/-- A request without a scope is covered by the capabilities of its kind. -/
theorem satisfies_eq_sameKind (c : Capability) {request : HotPathRequest}
    (h : ∀ pool, request ≠ .allocateResource pool) :
    c.satisfies request.capability = c.sameKind request.capability := by
  cases request with
  | allocateResource pool => exact absurd rfl (h pool)
  | emitBackpressure => cases c <;> rfl
  | emitCustomMetrics => cases c <;> rfl
  | inspectFlowMeta => cases c <;> rfl

/-- An allocation is covered by the grant for all pools and by those for its own. -/
theorem satisfies_resourceAllocate_iff (c : Capability) (pool : Option PoolScope) :
    c.satisfies (.resourceAllocate pool) = true ↔
      c = .resourceAllocate none ∨ c = .resourceAllocate pool := by
  cases c <;> simp only [Capability.satisfies, Bool.false_eq_true, reduceCtorEq, or_self]
  rename_i granted
  rcases granted with _ | ⟨⟨granted⟩⟩ <;> rcases pool with _ | ⟨⟨pool⟩⟩ <;> simp

/-- **The bitmask and the full check agree on a request exactly when the pool it names is
granted**, or no allocation at all. -/
theorem allows_eq_permits_iff (caps : List Capability) (request : HotPathRequest) :
    request.allowedBy (ResolvedCapabilitySet.new caps).hotPath =
        (ResolvedCapabilitySet.new caps).permits request.capability ↔
      PoolGranted caps request := by
  rw [Bool.eq_iff_iff, permits_iff]
  show (request.allowedBy (.fromCapabilities caps) = true ↔ _) ↔ _
  rw [allowedBy_iff]
  by_cases hscoped : ∃ pool, request = .allocateResource pool
  · obtain ⟨pool, rfl⟩ := hscoped
    have hkind : (∃ c ∈ caps, c.sameKind (.resourceAllocate pool) = true) ↔
        ∃ granted, .resourceAllocate granted ∈ caps := by
      constructor
      · rintro ⟨c, hc, hsame⟩
        cases c <;> simp [Capability.sameKind, Capability.ctorIdx] at hsame
        exact ⟨_, hc⟩
      · rintro ⟨granted, hmem⟩
        exact ⟨_, hmem, rfl⟩
    have hcovers : (∃ c ∈ caps, c.satisfies (.resourceAllocate pool) = true) ↔
        .resourceAllocate none ∈ caps ∨ .resourceAllocate pool ∈ caps := by
      simp only [satisfies_resourceAllocate_iff, and_or_left, exists_or, exists_eq_right]
    show (_ ↔ ∃ c ∈ caps, c.satisfies (.resourceAllocate pool) = true) ↔ _
    rw [show (HotPathRequest.allocateResource pool).capability = .resourceAllocate pool from rfl,
      hkind, hcovers, PoolGranted]
    constructor
    · intro h
      by_cases hany : ∃ granted, .resourceAllocate granted ∈ caps
      · exact .inr (h.mp hany)
      · exact .inl (not_exists.mp hany)
    · rintro (hnone | hgranted)
      · refine iff_of_false (not_exists.mpr hnone) ?_
        rintro (hmem | hmem)
        · exact hnone _ hmem
        · exact hnone _ hmem
      · exact iff_of_true (hgranted.elim (⟨_, ·⟩) (⟨_, ·⟩)) hgranted
  · have hunscoped : ∀ pool, request ≠ .allocateResource pool := not_exists.mp hscoped
    refine iff_of_true ?_ ?_
    · simp only [fun c => satisfies_eq_sameKind c hunscoped]
    · cases request with
      | allocateResource pool => exact absurd rfl (hunscoped pool)
      | _ => trivial

/-- **A grant for one pool allows allocation from every pool**: the bitmask lets a component
allocate from a pool that it was not granted. -/
theorem scoped_grant_allows_other_pool :
    let set := ResolvedCapabilitySet.new [.resourceAllocate (some ⟨"small"⟩)]
    let request := HotPathRequest.allocateResource (some ⟨"huge"⟩)
    request.allowedBy set.hotPath = true ∧ set.permits request.capability = false := by
  decide

end Agreement

end Torvyn.Security
