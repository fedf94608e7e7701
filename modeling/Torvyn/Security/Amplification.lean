/-
# Resolution never amplifies

What a resolved set permits was granted by the operator and declared by the component.
A resolved capability is a declared one that some grant covers, so the statement rests
on the transitivity of `satisfies`: if a grant covers a request and the request covers
a capability, the grant covers that capability (`satisfies_trans`).
-/
import Torvyn.Security.NetContainment
import Torvyn.Security.Resolver

namespace Torvyn.Security

/-! ## Transitivity of the scopes -/

/-- A path is absolute when it starts with a slash. -/
def PathScope.IsAbsolute (scope : PathScope) : Prop := startsWith scope.root "/" = true

/-- An absolute path is not empty. -/
theorem PathScope.IsAbsolute.root_ne {scope : PathScope} (h : scope.IsAbsolute) :
    scope.root ≠ "" := by
  intro hroot
  rw [PathScope.IsAbsolute, hroot] at h
  exact absurd h (by decide)

/-- What `contains_path` checks: the root itself, anything for the scope `/`, or the
root followed by a slash and more. -/
theorem PathScope.containsPath_iff {scope : PathScope} {path : String} :
    scope.containsPath path = true ↔
      path = scope.root ∨ scope.root = "/" ∨
        ∃ rest, path.toList = scope.root.toList ++ '/' :: rest := by
  simp only [containsPath, Bool.or_eq_true, beq_iff_eq, Bool.and_eq_true, startsWith,
    List.isPrefixOf_iff_prefix, or_assoc]
  refine or_congr_right (or_congr_right ?_)
  constructor
  · rintro ⟨⟨t, ht⟩, hslash⟩
    rw [← ht, ← String.length_toList, List.getElem?_append_right (Nat.le_refl _),
      Nat.sub_self] at hslash
    obtain ⟨rest, rfl⟩ := List.head?_eq_some_iff.mp (List.head?_eq_getElem? ▸ hslash)
    exact ⟨rest, ht.symm⟩
  · rintro ⟨rest, hrest⟩
    refine ⟨⟨'/' :: rest, hrest.symm⟩, ?_⟩
    rw [hrest, ← String.length_toList, List.getElem?_append_right (Nat.le_refl _), Nat.sub_self]
    rfl

/-- Below a nonempty root, containment of paths is transitive. -/
theorem PathScope.containsPath_trans {g r : PathScope} {path : String} (hne : g.root ≠ "")
    (hgr : g.containsScope r = true) (hr : r.containsPath path = true) :
    g.containsPath path = true := by
  rw [PathScope.containsScope, containsPath_iff] at hgr
  rw [containsPath_iff] at hr ⊢
  rcases hgr with hgr | hgr | ⟨s, hs⟩
  · rwa [hgr] at hr
  · exact Or.inr (Or.inl hgr)
  · rcases hr with rfl | hr | ⟨t, ht⟩
    · exact Or.inr (Or.inr ⟨s, hs⟩)
    · -- the scope `/` lies below no nonempty root with a slash to spare
      have hlen : g.root.toList ++ '/' :: s = ['/'] := by rw [← hs, hr]; rfl
      rcases hroot : g.root.toList with _ | ⟨c, cs⟩
      · exact absurd (String.toList_inj.mp hroot) hne
      · rw [hroot] at hlen
        simp at hlen
    · refine Or.inr (Or.inr ⟨s ++ '/' :: t, ?_⟩)
      rw [ht, hs, List.append_assoc, List.cons_append]

/-- Covering of host patterns is transitive. -/
theorem hostCovers_trans {a b c : String} (hab : hostCovers a b = true)
    (hbc : hostCovers b c = true) : hostCovers a c = true := by
  by_cases h1 : a = b
  · rwa [h1]
  by_cases h2 : b = c
  · rwa [← h2]
  have heq1 : (a == b) = false := by simpa using h1
  have heq2 : (b == c) = false := by simpa using h2
  simp only [hostCovers, heq1, heq2, Bool.false_eq_true, if_false] at hab hbc ⊢
  by_cases h3 : a = c
  · simp [h3]
  have heq3 : (a == c) = false := by simpa using h3
  rw [heq3]
  cases ha : stripPrefix a "*." with
  | none => simp [ha] at hab
  | some s =>
      cases hb : stripPrefix b "*." with
      | none => simp [hb] at hbc
      | some t =>
          simp only [ha, hb, Bool.or_eq_true, beq_iff_eq] at hab hbc
          simp only [Bool.false_eq_true, if_false]
          have hlift : ∀ u : String, (u = t ∨ endsWith u ("." ++ t) = true) →
              u = s ∨ endsWith u ("." ++ s) = true := by
            intro u hu
            rcases hab with rfl | hts
            · exact hu
            · right
              rcases hu with rfl | hu
              · exact hts
              · exact endsWith_trans hu (endsWith_append hts)
          cases hc : stripPrefix c "*." with
          | none =>
              simp only [hc, Bool.or_eq_true, beq_iff_eq] at hbc
              simpa using hlift c hbc
          | some u =>
              simp only [hc, Bool.or_eq_true, beq_iff_eq] at hbc
              simpa using hlift u hbc

/-- Covering of port ranges is transitive. -/
theorem PortRange.containsRange_trans {a b c : PortRange} (hab : a.containsRange b = true)
    (hbc : b.containsRange c = true) : a.containsRange c = true := by
  simp only [PortRange.containsRange, Bool.and_eq_true, decide_eq_true_eq] at hab hbc ⊢
  exact ⟨UInt16.le_trans hab.1 hbc.1, UInt16.le_trans hbc.2 hab.2⟩

/-- Containment of network scopes is transitive. -/
theorem NetScope.containsScope_trans {g r q : NetScope} (hgr : g.containsScope r = true)
    (hrq : r.containsScope q = true) : g.containsScope q = true := by
  rcases hgu : g.isUnrestricted with _ | _
  · -- a restricted grant covers only restricted requests, and these only restricted ones
    have hru : r.isUnrestricted = false := by
      rw [← Bool.not_eq_true]
      intro hru
      simp [NetScope.containsScope, hgu, hru] at hgr
    have hqu : q.isUnrestricted = false := by
      rw [← Bool.not_eq_true]
      intro hqu
      simp [NetScope.containsScope, hru, hqu] at hrq
    obtain ⟨hosts, ports⟩ := (containsScope_iff hgu hru).mp hgr
    obtain ⟨hosts', ports'⟩ := (containsScope_iff hru hqu).mp hrq
    rw [containsScope_iff hgu hqu]
    constructor
    · intro oh hoh
      obtain ⟨rh, hrh, hcov'⟩ := hosts' oh hoh
      obtain ⟨gh, hgh, hcov⟩ := hosts rh hrh
      exact ⟨gh, hgh, hostCovers_trans hcov hcov'⟩
    · rcases ports with hgp | ⟨hrp, hcov⟩
      · exact Or.inl hgp
      · rcases ports' with hnil | ⟨hqp, hcov'⟩
        · exact absurd hnil hrp
        · refine Or.inr ⟨hqp, fun op hop => ?_⟩
          obtain ⟨rp, hrp', hr⟩ := hcov' op hop
          obtain ⟨gp, hgp, hg⟩ := hcov rp hrp'
          exact ⟨gp, hgp, PortRange.containsRange_trans hg hr⟩
  · simp [NetScope.containsScope, hgu]

/-! ## Transitivity of `satisfies` -/

/-- The path of a filesystem capability is absolute. -/
def Capability.IsAbsolute (c : Capability) : Prop :=
  ∀ path, c.pathScope? = some path → path.IsAbsolute

/-- **Coverage is transitive**, for every kind of capability. -/
theorem Capability.satisfies_trans {g r q : Capability} (habs : g.IsAbsolute)
    (hgr : g.satisfies r = true) (hrq : r.satisfies q = true) : g.satisfies q = true := by
  -- capabilities of different kinds never cover each other
  cases g <;> cases r <;> try (exact absurd hgr Bool.false_ne_true)
  all_goals cases q <;> try (exact absurd hrq Bool.false_ne_true)
  case filesystemRead.filesystemRead.filesystemRead g r q =>
      exact PathScope.containsPath_trans (habs g rfl).root_ne hgr hrq
  case filesystemWrite.filesystemWrite.filesystemWrite g r q =>
      exact PathScope.containsPath_trans (habs g rfl).root_ne hgr hrq
  case tcpConnect.tcpConnect.tcpConnect => exact NetScope.containsScope_trans hgr hrq
  case tcpListen.tcpListen.tcpListen => exact NetScope.containsScope_trans hgr hrq
  case udpAccess.udpAccess.udpAccess => exact NetScope.containsScope_trans hgr hrq
  case httpOutgoing.httpOutgoing.httpOutgoing => exact NetScope.containsScope_trans hgr hrq
  case resourceAllocate.resourceAllocate.resourceAllocate g r q =>
      cases g with
      | none => rfl
      | some g =>
          cases r with
          | none => simp [satisfies] at hgr
          | some r =>
              cases q with
              | none => simp [satisfies] at hrq
              | some q =>
                  simp only [satisfies, beq_iff_eq] at hgr hrq ⊢
                  exact hgr.trans hrq
  case poolAccess.poolAccess.poolAccess g r q =>
      simp only [satisfies, beq_iff_eq] at hgr hrq ⊢
      exact hgr.trans hrq
  all_goals rfl

/-! ## What resolution computes -/

section Resolving

variable (grants : OperatorGrants)

/-- A match of a covered request is the request. -/
theorem findMatchingGrant_of_covers {request : Capability} (h : grants.covers request = true) :
    ∃ idx, findMatchingGrant request grants = some (idx, request) := by
  cases hm : findMatchingGrant request grants with
  | none =>
      rw [findMatchingGrant_eq_none] at hm
      rw [hm] at h
      exact absurd h (by decide)
  | some found =>
      obtain ⟨idx, effective⟩ := found
      obtain ⟨rfl, -⟩ := findMatchingGrant_spec hm
      exact ⟨idx, rfl⟩

/-- The required capabilities: the covered ones are resolved, the others are errors. -/
theorem foldl_resolveRequired (required : List Capability) (st : Resolution) :
    (required.foldl (resolveRequired grants) st).resolved =
        st.resolved ++ required.filter grants.covers ∧
      (required.foldl (resolveRequired grants) st).errors =
        st.errors ++ (required.filter fun c => !grants.covers c).map (unmatchedError grants) := by
  induction required generalizing st with
  | nil => simp
  | cons c required ih =>
      rw [List.foldl_cons]
      obtain ⟨hresolved, herrors⟩ := ih (resolveRequired grants st c)
      rw [hresolved, herrors]
      by_cases hc : grants.covers c
      · obtain ⟨idx, hm⟩ := findMatchingGrant_of_covers grants hc
        simp [resolveRequired, hm, hc]
      · have hm := findMatchingGrant_eq_none.mpr (Bool.not_eq_true _ ▸ hc)
        simp [resolveRequired, hm, hc]

/-- The optional capabilities: the covered ones are resolved, and nothing is an error. -/
theorem foldl_resolveOptional (optional : List Capability) (st : Resolution) :
    (optional.foldl (resolveOptional grants) st).resolved =
        st.resolved ++ optional.filter grants.covers ∧
      (optional.foldl (resolveOptional grants) st).errors = st.errors := by
  induction optional generalizing st with
  | nil => simp
  | cons c optional ih =>
      rw [List.foldl_cons]
      obtain ⟨hresolved, herrors⟩ := ih (resolveOptional grants st c)
      rw [hresolved, herrors]
      by_cases hc : grants.covers c
      · obtain ⟨idx, hm⟩ := findMatchingGrant_of_covers grants hc
        simp [resolveOptional, hm, hc]
      · have hm := findMatchingGrant_eq_none.mpr (Bool.not_eq_true _ ▸ hc)
        simp [resolveOptional, hm, hc]

variable (caps : ComponentCapabilities)

/-- The resolved capabilities are the declared ones that some grant covers. -/
theorem resolved_resolveDeclared :
    (resolveDeclared caps grants).resolved = caps.all.filter grants.covers := by
  rw [resolveDeclared, (foldl_resolveOptional grants _ _).1, (foldl_resolveRequired grants _ _).1,
    ComponentCapabilities.all, List.filter_append, List.nil_append]

/-- The errors are those of the required capabilities that no grant covers. -/
theorem errors_resolveDeclared :
    (resolveDeclared caps grants).errors =
      (caps.required.filter fun c => !grants.covers c).map (unmatchedError grants) := by
  rw [resolveDeclared, (foldl_resolveOptional grants _ _).2, (foldl_resolveRequired grants _ _).2,
    List.nil_append]

variable {caps grants}

/-- A successful resolution resolves the declared capabilities that some grant covers. -/
theorem resolve_ok {result : ResolutionResult} (h : resolve caps grants = .ok result) :
    result.resolved.capabilities = caps.all.filter grants.covers := by
  unfold resolve at h
  simp only at h
  split at h
  · cases h
  · cases h
    exact resolved_resolveDeclared grants caps

/-- Resolution fails exactly when some required capability is not covered, and its
errors are those of the required capabilities that are not covered. -/
theorem resolve_error_iff {errors : List CapabilityResolutionError} :
    resolve caps grants = .error errors ↔
      errors = (caps.required.filter fun c => !grants.covers c).map (unmatchedError grants) ∧
        errors ≠ [] := by
  rw [← errors_resolveDeclared]
  unfold resolve
  by_cases hne : (resolveDeclared caps grants).errors ≠ []
  · simp only [if_pos hne, Except.error.injEq]
    constructor
    · rintro rfl
      exact ⟨rfl, hne⟩
    · rintro ⟨rfl, -⟩
      rfl
  · simp only [if_neg hne, reduceCtorEq, false_iff, not_and]
    rintro rfl
    exact hne

end Resolving

/-- The error for an unmatched capability is about that capability. -/
theorem capability_unmatchedError (grants : OperatorGrants) (required : Capability) :
    (unmatchedError grants required).capability = required.display := by
  unfold unmatchedError
  split <;> rfl

/-- **Resolution never amplifies.**  With absolute paths in the grants, whatever the
resolved set permits is covered by a grant and by a declared capability; resolution
fails exactly when a required capability is covered by no grant, and it then reports
each of these and nothing else. -/
theorem resolve_never_amplifies (caps : ComponentCapabilities) (grants : OperatorGrants)
    (habs : ∀ grant ∈ grants.grants, grant.IsAbsolute) :
    (∀ result, resolve caps grants = .ok result → ∀ q, result.resolved.permits q = true →
      (∃ grant ∈ grants.grants, grant.satisfies q = true) ∧
        ∃ declared ∈ caps.all, declared.satisfies q = true) ∧
    ((∃ errors, resolve caps grants = .error errors) ↔
      ∃ c ∈ caps.required, ∀ grant ∈ grants.grants, grant.satisfies c = false) ∧
    ∀ errors, resolve caps grants = .error errors →
      errors.map CapabilityResolutionError.capability =
        (caps.required.filter fun c => grants.grants.all fun g => !g.satisfies c).map
          Capability.display := by
  have hcovers : ∀ c, (!grants.covers c) = grants.grants.all fun g => !g.satisfies c := by
    intro c
    rw [OperatorGrants.covers, List.not_any_eq_all_not]
  refine ⟨?_, ?_, ?_⟩
  · intro result hok q hq
    obtain ⟨c, hc, hcq⟩ := List.any_eq_true.mp hq
    rw [resolve_ok hok, List.mem_filter] at hc
    obtain ⟨hdeclared, hcov⟩ := hc
    obtain ⟨grant, hgrant, hgc⟩ := List.any_eq_true.mp hcov
    exact ⟨⟨grant, hgrant, Capability.satisfies_trans (habs grant hgrant) hgc hcq⟩,
      c, hdeclared, hcq⟩
  · constructor
    · rintro ⟨errors, herr⟩
      obtain ⟨rfl, hne⟩ := resolve_error_iff.mp herr
      obtain ⟨e, he⟩ := List.exists_mem_of_ne_nil _ hne
      obtain ⟨c, hc, -⟩ := List.mem_map.mp he
      obtain ⟨hreq, hun⟩ := List.mem_filter.mp hc
      refine ⟨c, hreq, fun grant hgrant => ?_⟩
      rw [hcovers, List.all_eq_true] at hun
      simpa using hun grant hgrant
    · rintro ⟨c, hreq, hun⟩
      refine ⟨_, resolve_error_iff.mpr ⟨rfl, ?_⟩⟩
      apply List.ne_nil_of_mem (a := unmatchedError grants c)
      refine List.mem_map_of_mem (List.mem_filter.mpr ⟨hreq, ?_⟩)
      rw [hcovers, List.all_eq_true]
      intro grant hgrant
      simp [hun grant hgrant]
  · intro errors herr
    obtain ⟨rfl, -⟩ := resolve_error_iff.mp herr
    rw [List.map_map, List.filter_congr fun c _ => hcovers c]
    apply List.map_congr_left
    intro c _
    exact capability_unmatchedError grants c

/-- A grant of `/data` and a request below it: the resolved set permits what lies below
the request, and that is granted. -/
theorem resolve_never_amplifies_data :
    let caps : ComponentCapabilities := ⟨[.filesystemRead ⟨"/data/in"⟩, .stderr], [.wallClock]⟩
    let grants : OperatorGrants := ⟨[.filesystemRead ⟨"/data"⟩, .stderr]⟩
    let q : Capability := .filesystemRead ⟨"/data/in/a"⟩
    ∃ result, resolve caps grants = .ok result ∧ result.resolved.permits q = true ∧
      ∃ grant ∈ grants.grants, grant.satisfies q = true := by
  intro caps grants q
  have habs : ∀ grant ∈ grants.grants, grant.IsAbsolute := by
    intro grant hmem path hpath
    simp only [grants, List.mem_cons, List.not_mem_nil, or_false] at hmem
    rcases hmem with rfl | rfl
    · cases hpath
      exact (by decide : startsWith "/data" "/" = true)
    · cases hpath
  have hok : resolve caps grants = .ok ⟨.new caps.required, [.optionalNotGranted "clock:wall"]⟩ := by
    rfl
  have hq : (ResolvedCapabilitySet.new caps.required).permits q = true := by decide
  exact ⟨_, hok, hq, ((resolve_never_amplifies caps grants habs).1 _ hok q hq).1⟩

end Torvyn.Security
