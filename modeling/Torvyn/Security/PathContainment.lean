/-
# Containment of filesystem scopes

A path scope contains a path when the path's text is the root, or the root followed by
a slash.  What a path means is decided by resolving it: empty components and `.` lead
nowhere and `..` leads back to the parent.  A path inside a scope can therefore resolve
outside it, and it resolves inside exactly when the part below the root descends into
whatever it has climbed out of.
-/
import Torvyn.Data.LexicalPath
import Torvyn.Security.Amplification
import Torvyn.Security.Sandbox

namespace Torvyn.Security

open LexicalPath

/-! ## Resolved paths -/

/-- The components of a path, without empty ones and without `.`. -/
def pathComponents (path : List Char) : List (List Char) := components '/' ['.'] path

/-- The directory that an absolute path names, as the list of its components. -/
def resolvePath (path : String) : List (List Char) :=
  walk ['.', '.'] [] (pathComponents path.toList)

/-- A path lies under a root when it resolves to the directory of the root or to
something below it. -/
def LiesUnder (root path : String) : Prop := resolvePath root <+: resolvePath path

instance (root path : String) : Decidable (LiesUnder root path) :=
  inferInstanceAs (Decidable (_ <+: _))

/-- The components of a path below a root that it begins with. -/
def below (root path : String) : List (List Char) :=
  pathComponents (path.toList.drop root.length)

/-- The path does not leave the root: the part below the root descends again into every
directory of the root that its `..` have climbed out of. -/
def StaysBelow (root path : String) : Prop :=
  Returns ['.', '.'] (resolvePath root) (below root path)

instance (root path : String) : Decidable (StaysBelow root path) :=
  inferInstanceAs (Decidable (Returns _ _ _))

/-- Resolving a path that begins with a root and a slash: first the root, then the part
below it. -/
theorem resolvePath_append {root path : String} {rest : List Char}
    (h : path.toList = root.toList ++ '/' :: rest) :
    resolvePath path = walk ['.', '.'] (resolvePath root) (below root path) := by
  have hbelow : below root path = pathComponents rest := by
    rw [below, h, ← String.length_toList, List.drop_left]
    exact components_sep_cons rest
  rw [resolvePath, h, pathComponents, components_append_sep, walk_append, hbelow]
  rfl

/-- **A path inside a scope lies under its root exactly when it does not leave it.** -/
theorem liesUnder_iff_staysBelow {scope : PathScope} {path : String}
    (h : scope.containsPath path = true) :
    LiesUnder scope.root path ↔ StaysBelow scope.root path := by
  rcases PathScope.containsPath_iff.mp h with rfl | hroot | ⟨rest, hrest⟩
  · -- the root itself: nothing is below it
    have hbelow : below scope.root scope.root = [] := by
      rw [below, ← String.length_toList, List.drop_length]
      exact components_nil
    constructor
    · intro _
      rw [StaysBelow, hbelow]
      exact returns_of_climb_eq_zero _ rfl
    · exact fun _ => List.prefix_rfl
  · -- everything lies under the root of the filesystem
    have hres : resolvePath scope.root = [] := by
      rw [hroot]
      decide
    constructor
    · intro _
      rw [StaysBelow, hres]
      exact returns_root _ _
    · intro _
      rw [LiesUnder, hres]
      exact List.nil_prefix
  · rw [LiesUnder, StaysBelow, returns_iff, ← resolvePath_append hrest]

/-- Inside a covered scope, too, a path lies under the grant's root exactly when it
does not leave it. -/
theorem liesUnder_iff_of_containsScope {grant request : PathScope} {path : String}
    (hcov : grant.containsScope request = true) (hin : request.containsPath path = true) :
    LiesUnder grant.root path ↔ StaysBelow grant.root path := by
  by_cases habs : grant.root = ""
  · -- the empty root resolves to the root of the filesystem
    have hres : resolvePath grant.root = [] := by
      rw [habs]
      decide
    simp only [LiesUnder, StaysBelow, hres, List.nil_prefix, true_iff]
    exact returns_root _ _
  · exact liesUnder_iff_staysBelow (PathScope.containsPath_trans habs hcov hin)

/-! ## Grants and requests -/

/-- The two kinds of filesystem capability. -/
def filesystemKinds : List (PathScope → Capability) := [.filesystemRead, .filesystemWrite]

/-- A filesystem grant covers a request exactly when it contains its scope. -/
theorem satisfies_filesystem {kind : PathScope → Capability} (hkind : kind ∈ filesystemKinds)
    (grant request : PathScope) :
    (kind grant).satisfies (kind request) = grant.containsScope request := by
  simp only [filesystemKinds, List.mem_cons, List.not_mem_nil, or_false] at hkind
  rcases hkind with rfl | rfl <;> rfl

/-- A covered filesystem request and its grant are of one kind. -/
theorem exists_kind_of_satisfies {grant request : Capability} {r : PathScope}
    (hr : request.pathScope? = some r) (h : grant.satisfies request = true) :
    ∃ kind ∈ filesystemKinds, ∃ g, grant = kind g ∧ request = kind r := by
  cases request <;> cases hr
  all_goals cases grant <;> try (exact absurd h Bool.false_ne_true)
  · exact ⟨.filesystemRead, by simp [filesystemKinds], _, rfl, rfl⟩
  · exact ⟨.filesystemWrite, by simp [filesystemKinds], _, rfl, rfl⟩

/-- A preopened directory of a resolved set is the root of a declared filesystem
capability, and some grant covers that capability. -/
theorem preopenedDir_spec {caps : ComponentCapabilities} {grants : OperatorGrants}
    {result : ResolutionResult} (hok : resolve caps grants = .ok result) {d : PreopenedDir}
    (hd : d ∈ (WasiConfiguration.fromResolved result.resolved).preopenedDirs) :
    ∃ kind ∈ filesystemKinds, ∃ grant : PathScope, kind grant ∈ grants.grants ∧
      kind ⟨d.hostPath⟩ ∈ caps.all ∧ grant.containsPath d.hostPath = true := by
  obtain ⟨c, hc, path, hpath, hroot⟩ := WasiConfiguration.exists_of_mem_preopenedDirs hd
  rw [resolve_ok hok, List.mem_filter] at hc
  obtain ⟨hdeclared, hcov⟩ := hc
  obtain ⟨grant, hgrant, hs⟩ := List.any_eq_true.mp hcov
  obtain ⟨kind, hkind, g, rfl, rfl⟩ := exists_kind_of_satisfies hpath hs
  rw [satisfies_filesystem hkind, PathScope.containsScope, hroot] at hs
  obtain ⟨root⟩ := path
  cases hroot
  exact ⟨kind, hkind, g, hgrant, hdeclared, hs⟩

/-- **Containment of filesystem scopes is exactly as sound as the `..` in them.**
First, if a grant covers a request, a path inside the request's scope resolves under
the grant's root exactly when the part of the path below that root does not leave it.
Second, all that resolves under the request's root resolves under the grant's root
exactly when the request's root does not leave it.  Third, every preopened directory is
the root of a declared capability that a grant covers, and for every grant that covers
it, it lies under the granted root exactly when it does not leave that root. -/
theorem filesystem_containment_iff (grant request : PathScope) (path : String)
    (caps : ComponentCapabilities) (grants : OperatorGrants) :
    (∀ kind ∈ filesystemKinds,
      ((kind grant).satisfies (kind request) = true → request.containsPath path = true →
          LiesUnder grant.root path) ↔
        ((kind grant).satisfies (kind request) = true → request.containsPath path = true →
          StaysBelow grant.root path)) ∧
    (∀ kind ∈ filesystemKinds,
      ((kind grant).satisfies (kind request) = true →
          ∀ path, LiesUnder request.root path → LiesUnder grant.root path) ↔
        ((kind grant).satisfies (kind request) = true →
          StaysBelow grant.root request.root)) ∧
    ∀ result, resolve caps grants = .ok result →
      ∀ d ∈ (WasiConfiguration.fromResolved result.resolved).preopenedDirs,
        (∃ kind ∈ filesystemKinds, ∃ grant : PathScope, kind grant ∈ grants.grants ∧
          kind ⟨d.hostPath⟩ ∈ caps.all ∧ (kind grant).satisfies (kind ⟨d.hostPath⟩) = true) ∧
        ∀ kind ∈ filesystemKinds, ∀ grant : PathScope, kind grant ∈ grants.grants →
          (kind grant).satisfies (kind ⟨d.hostPath⟩) = true →
            (LiesUnder grant.root d.hostPath ↔ StaysBelow grant.root d.hostPath) := by
  refine ⟨?_, ?_, ?_⟩
  · intro kind hkind
    rw [satisfies_filesystem hkind]
    constructor
    · exact fun h hcov hin => (liesUnder_iff_of_containsScope hcov hin).mp (h hcov hin)
    · exact fun h hcov hin => (liesUnder_iff_of_containsScope hcov hin).mpr (h hcov hin)
  · intro kind hkind
    rw [satisfies_filesystem hkind]
    refine imp_congr_right fun hcov => ?_
    rw [← liesUnder_iff_staysBelow hcov]
    constructor
    · exact fun h => h request.root List.prefix_rfl
    · exact fun h path hpath => List.IsPrefix.trans h hpath
  · intro result hok d hd
    obtain ⟨kind, hkind, grant, hgrant, hdeclared, hcov⟩ := preopenedDir_spec hok hd
    refine ⟨⟨kind, hkind, grant, hgrant, hdeclared, ?_⟩, ?_⟩
    · rw [satisfies_filesystem hkind]
      exact hcov
    · intro kind' hkind' grant' _ hs
      rw [satisfies_filesystem hkind'] at hs
      exact liesUnder_iff_staysBelow hs

/-- A request for `/data/../etc` is satisfied by a grant of `/data`; its preopened
directory resolves to `/etc`, outside the only granted root. -/
theorem filesystem_containment_gap :
    let caps : ComponentCapabilities := ⟨[.filesystemRead ⟨"/data/../etc"⟩], []⟩
    let grants : OperatorGrants := ⟨[.filesystemRead ⟨"/data"⟩]⟩
    (Capability.filesystemRead ⟨"/data"⟩).satisfies (.filesystemRead ⟨"/data/../etc"⟩) = true ∧
      (PathScope.mk "/data/../etc").containsPath "/data/../etc" = true ∧
      ¬ LiesUnder "/data" "/data/../etc" ∧
      ∃ result, resolve caps grants = .ok result ∧
        (WasiConfiguration.fromResolved result.resolved).preopenedDirs =
          [⟨"/data/../etc", "/data/../etc", true, false⟩] := by
  intro caps grants
  refine ⟨by decide, by decide, by decide, ⟨.new caps.required, []⟩, rfl, rfl⟩

end Torvyn.Security
