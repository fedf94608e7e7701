/-
# Capability resolution

`DefaultCapabilityResolver::resolve` of `torvyn-security/src/resolver.rs`, with the
manifest types it reads and the hot-path bitmask that the resolved set carries.  A
required capability without a matching grant is an error, an optional one a warning,
and a grant that nothing was matched with is a warning too.
-/
import Torvyn.Security.Capability

namespace Torvyn.Security

/-! ## Declarations and grants -/

/-- What a component declares that it needs. -/
structure ComponentCapabilities where
  required : List Capability
  optional : List Capability

/-- Required and optional capabilities. -/
def ComponentCapabilities.all (caps : ComponentCapabilities) : List Capability :=
  caps.required ++ caps.optional

/-- What the operator permits. -/
structure OperatorGrants where
  grants : List Capability

/-! ## The resolved set -/

/-- The bitmask of the capabilities that are checked for each element. -/
structure HotPathCapabilities where
  resourceAllocate : Bool
  emitBackpressure : Bool
  customMetrics : Bool
  inspectFlowMeta : Bool
  deriving DecidableEq, Repr

/-- A flag that a loop raises at some elements and never lowers. -/
theorem flag_foldl_iff {σ β : Type*} {f : σ → β → σ} {flag : σ → Bool} {Sets : β → Prop}
    (hstep : ∀ s b, flag (f s b) = true ↔ flag s = true ∨ Sets b) (l : List β) (s : σ) :
    flag (l.foldl f s) = true ↔ flag s = true ∨ ∃ b ∈ l, Sets b := by
  induction l generalizing s with
  | nil => simp
  | cons b l ih => rw [List.foldl_cons, ih, hstep, List.exists_mem_cons_iff, or_assoc]

namespace HotPathCapabilities

/-- The bitmask that denies everything. -/
def denyAll : HotPathCapabilities := ⟨false, false, false, false⟩

/-- The loop body of `from_capabilities`. -/
def record (mask : HotPathCapabilities) : Capability → HotPathCapabilities
  | .resourceAllocate _ => { mask with resourceAllocate := true }
  | .emitBackpressure => { mask with emitBackpressure := true }
  | .customMetrics => { mask with customMetrics := true }
  | .inspectFlowMeta => { mask with inspectFlowMeta := true }
  | _ => mask

/-- The bitmask of a list of resolved capabilities. -/
def fromCapabilities (capabilities : List Capability) : HotPathCapabilities :=
  capabilities.foldl record denyAll

end HotPathCapabilities

/-- The effective capabilities of a component. -/
structure ResolvedCapabilitySet where
  capabilities : List Capability
  hotPath : HotPathCapabilities

namespace ResolvedCapabilitySet

/-- The set of a list of capabilities. -/
def new (capabilities : List Capability) : ResolvedCapabilitySet :=
  ⟨capabilities, HotPathCapabilities.fromCapabilities capabilities⟩

/-- Whether some resolved capability covers the requested one. -/
def permits (set : ResolvedCapabilitySet) (requested : Capability) : Bool :=
  set.capabilities.any fun granted => granted.satisfies requested

end ResolvedCapabilitySet

/-! ## Errors and warnings -/

/-- Why a required capability is not resolved. -/
inductive CapabilityResolutionError where
  | missingRequired (capability : String)
  | incompatibleScope (capability : String) (detail : String)
  deriving DecidableEq, Repr

/-- The capability an error is about. -/
def CapabilityResolutionError.capability : CapabilityResolutionError → String
  | missingRequired capability => capability
  | incompatibleScope capability _ => capability

/-- What resolution only warns about. -/
inductive ResolutionWarning where
  | optionalNotGranted (capability : String)
  | unusedGrant (capability : String)
  deriving DecidableEq, Repr

/-- A successful resolution. -/
structure ResolutionResult where
  resolved : ResolvedCapabilitySet
  warnings : List ResolutionWarning

/-! ## Resolving -/

/-- `find_matching_grant`: the first grant that intersects the request, with its index. -/
def findMatchingGrant (request : Capability) (grants : OperatorGrants) : Option (ℕ × Capability) :=
  grants.grants.zipIdx.findSome? fun (grant, idx) =>
    (grant.intersect request).map fun effective => (idx, effective)

/-- The local variables of `resolve`. -/
structure Resolution where
  errors : List CapabilityResolutionError
  warnings : List ResolutionWarning
  resolved : List Capability
  matchedGrantIndices : List ℕ

/-- The error for a required capability that no grant matches. -/
def unmatchedError (grants : OperatorGrants) (required : Capability) : CapabilityResolutionError :=
  if grants.grants.any fun g => g.sameKind required then
    .incompatibleScope required.display
      ("a grant of the same kind exists but its scope does not cover " ++
        s!"the requested scope '{required.display}'")
  else .missingRequired required.display

/-- Phase 1, one required capability. -/
def resolveRequired (grants : OperatorGrants) (st : Resolution) (required : Capability) :
    Resolution :=
  match findMatchingGrant required grants with
  | some (grantIdx, effective) =>
      { st with
        matchedGrantIndices := grantIdx :: st.matchedGrantIndices
        resolved := st.resolved ++ [effective] }
  | none => { st with errors := st.errors ++ [unmatchedError grants required] }

/-- Phase 2, one optional capability. -/
def resolveOptional (grants : OperatorGrants) (st : Resolution) (optional : Capability) :
    Resolution :=
  match findMatchingGrant optional grants with
  | some (grantIdx, effective) =>
      { st with
        matchedGrantIndices := grantIdx :: st.matchedGrantIndices
        resolved := st.resolved ++ [effective] }
  | none => { st with warnings := st.warnings ++ [.optionalNotGranted optional.display] }

/-- Phase 3: a warning for each grant that nothing was matched with. -/
def unusedWarnings (grants : OperatorGrants) (st : Resolution) : List ResolutionWarning :=
  grants.grants.zipIdx.filterMap fun (grant, idx) =>
    if idx ∈ st.matchedGrantIndices then none else some (.unusedGrant grant.display)

/-- Phases 1 and 2. -/
def resolveDeclared (caps : ComponentCapabilities) (grants : OperatorGrants) : Resolution :=
  caps.optional.foldl (resolveOptional grants)
    (caps.required.foldl (resolveRequired grants) ⟨[], [], [], []⟩)

/-- `resolve`. -/
def resolve (caps : ComponentCapabilities) (grants : OperatorGrants) :
    Except (List CapabilityResolutionError) ResolutionResult :=
  let st := resolveDeclared caps grants
  if st.errors ≠ [] then .error st.errors
  else .ok ⟨.new st.resolved, st.warnings ++ unusedWarnings grants st⟩

/-! ## What resolution computes -/

/-- Whether some grant covers a capability. -/
def OperatorGrants.covers (grants : OperatorGrants) (request : Capability) : Bool :=
  grants.grants.any fun grant => grant.satisfies request

/-- A match is the request itself, under the index of a grant that covers it. -/
theorem findMatchingGrant_spec {request effective : Capability} {grants : OperatorGrants} {idx : ℕ}
    (h : findMatchingGrant request grants = some (idx, effective)) :
    effective = request ∧ ∃ grant, grants.grants[idx]? = some grant ∧ grant.satisfies request := by
  obtain ⟨⟨grant, i⟩, hmem, hf⟩ := List.exists_of_findSome?_eq_some h
  simp only [Capability.intersect_eq] at hf
  by_cases hs : grant.satisfies request
  · simp only [hs, if_true, Option.map_some, Option.some.injEq, Prod.mk.injEq] at hf
    obtain ⟨rfl, rfl⟩ := hf
    exact ⟨rfl, grant, List.mem_zipIdx_iff_getElem?.mp hmem, hs⟩
  · simp [hs] at hf

/-- No match is found exactly when no grant covers the request. -/
theorem findMatchingGrant_eq_none {request : Capability} {grants : OperatorGrants} :
    findMatchingGrant request grants = none ↔ grants.covers request = false := by
  rw [findMatchingGrant, List.findSome?_eq_none_iff, OperatorGrants.covers, List.any_eq_false]
  constructor
  · intro h grant hmem
    obtain ⟨i, hi, rfl⟩ := List.getElem_of_mem hmem
    have hnone := h (grants.grants[i], i) (List.mem_zipIdx_iff_getElem?.mpr (by simp [hi]))
    simpa [Capability.intersect_eq] using hnone
  · rintro h ⟨grant, i⟩ hmem
    have hg := h grant (List.fst_mem_of_mem_zipIdx hmem)
    simp [Capability.intersect_eq, hg]

end Torvyn.Security
