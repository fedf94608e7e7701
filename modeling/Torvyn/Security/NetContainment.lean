/-
# Containment of network scopes

A network scope denotes the set of endpoints it allows.  `contains_scope` is meant
to decide inclusion of these sets from above: a grant that contains a request
should allow every endpoint the request allows.  Host patterns and port ranges are
compared soundly one dimension at a time (`matchesHost_of_hostCovers`,
`matchesPort_of_ranges`); the one hole is the host dimension of a request that
names no host at all, which the empty-means-all encoding makes wider than any
host list of the grant.
-/
import Torvyn.Security.Capability

namespace Torvyn.Security

/-- The endpoints that a scope allows: host and port must both match. -/
def NetScope.endpoints (lc : Lowercase) (s : NetScope) : Set (String × UInt16) :=
  {e | s.matchesHost lc e.1 = true ∧ s.matchesPort e.2 = true}

/-! ## Host patterns -/

/-- A pattern that covers another one matches every hostname the other matches. -/
theorem hostMatches_of_hostCovers {sh oh host : String} (hc : hostCovers sh oh = true)
    (hm : hostMatches oh host = true) : hostMatches sh host = true := by
  unfold hostCovers at hc
  split at hc
  · rename_i heq
    rw [eq_of_beq heq]
    exact hm
  · unfold hostMatches at hm ⊢
    cases hs : stripPrefix sh "*." with
    | none => simp [hs] at hc
    | some suffix =>
        cases ho : stripPrefix oh "*." with
        | none =>
            -- an exact name below the wildcard
            simp only [hs, ho, Bool.or_eq_true, beq_iff_eq] at hc hm ⊢
            rw [hm]
            exact hc
        | some otherSuffix =>
            simp only [hs, ho, Bool.or_eq_true, beq_iff_eq] at hc hm ⊢
            rcases hc with rfl | hc
            · exact hm
            · -- a wildcard below the wildcard: suffixes compose
              right
              rcases hm with rfl | hm
              · exact hc
              · exact endsWith_trans hm (endsWith_append hc)

/-- A host list that covers each pattern of a nonempty list matches at least the
hostnames that list matches. -/
theorem matchesHost_of_hostCovers (lc : Lowercase) {g r : NetScope} {host : String}
    (hr : r.hosts ≠ [])
    (hc : ∀ oh ∈ r.hosts, ∃ sh ∈ g.hosts, hostCovers sh oh = true)
    (hm : r.matchesHost lc host = true) : g.matchesHost lc host = true := by
  unfold NetScope.matchesHost at hm ⊢
  rw [if_neg (by simpa using hr), List.any_eq_true] at hm
  obtain ⟨oh, hoh, hmatch⟩ := hm
  obtain ⟨sh, hsh, hcov⟩ := hc oh hoh
  split
  · rfl
  · exact List.any_eq_true.mpr ⟨sh, hsh, hostMatches_of_hostCovers hcov hmatch⟩

/-- The only name of a hostname's length or more that a pattern can match ends with
the pattern or with its dotted suffix, so a name without dots that is longer than
the pattern is never matched. -/
theorem hostMatches_eq_false_of_length_lt {pattern host : String}
    (hlen : pattern.length < host.length) (hdot : '.' ∉ host.toList) :
    hostMatches pattern host = false := by
  unfold hostMatches
  cases hp : stripPrefix pattern "*." with
  | none =>
      simp only [beq_eq_false_iff_ne]
      rintro rfl
      exact lt_irrefl _ hlen
  | some suffix =>
      simp only [Bool.or_eq_false_iff, beq_eq_false_iff_ne]
      constructor
      · rintro rfl
        rw [stripPrefix_eq_some_iff.mp hp, String.length_append] at hlen
        omega
      · rw [← Bool.not_eq_true]
        intro he
        obtain ⟨t, rfl⟩ := endsWith_iff.mp he
        exact hdot (by simp [String.toList_append])

/-- Every nonempty host list leaves some hostname out. -/
theorem exists_unmatched_host (lc : Lowercase) {g : NetScope} (hg : g.hosts ≠ []) :
    ∃ host, g.matchesHost lc host = false := by
  -- a run of `a`s longer than every pattern
  let host := String.ofList (List.replicate ((g.hosts.map String.length).sum + 1) 'a')
  have hlower : lc.toLowercase host = host := by
    apply lc.lower_ascii
    intro c hc
    rw [String.toList_ofList] at hc
    rw [List.eq_of_mem_replicate hc]
    decide
  have hdot : '.' ∉ host.toList := by
    rw [String.toList_ofList]
    intro hmem
    exact absurd (List.eq_of_mem_replicate hmem) (by decide)
  refine ⟨host, ?_⟩
  unfold NetScope.matchesHost
  rw [if_neg (by simpa using hg), List.any_eq_false]
  intro pattern hmem
  rw [hlower, Bool.not_eq_true]
  apply hostMatches_eq_false_of_length_lt _ hdot
  have hle : pattern.length ≤ (g.hosts.map String.length).sum :=
    List.single_le_sum (fun _ _ => Nat.zero_le _) _ (List.mem_map_of_mem hmem)
  simp only [host, ← String.length_toList, String.toList_ofList, List.length_replicate] at hle ⊢
  omega

/-! ## Port ranges -/

/-- Port ranges that cover each range of a request match at least its ports. -/
theorem matchesPort_of_ranges {g r : NetScope} {port : UInt16}
    (hr : r.ports ≠ [])
    (hc : ∀ op ∈ r.ports, ∃ sp ∈ g.ports, sp.containsRange op = true)
    (hm : r.matchesPort port = true) : g.matchesPort port = true := by
  unfold NetScope.matchesPort at hm ⊢
  rw [if_neg (by simpa using hr), List.any_eq_true] at hm
  obtain ⟨op, hop, hin⟩ := hm
  obtain ⟨sp, hsp, hcov⟩ := hc op hop
  split
  · rfl
  · exact List.any_eq_true.mpr ⟨sp, hsp, PortRange.contains_of_containsRange hcov hin⟩

/-- Every scope allows some port. -/
theorem exists_matched_port (s : NetScope) : ∃ port, s.matchesPort port = true := by
  unfold NetScope.matchesPort
  cases hp : s.ports with
  | nil => exact ⟨0, by simp⟩
  | cons range rest => exact ⟨range.start, by simp [PortRange.contains_start]⟩

/-! ## Containment -/

/-- The endpoint gap of `contains_scope`: the grant restricts its hosts, the request
names ports but no host, and its ports fit the grant.  `other.hosts.iter().all(..)`
then ranges over nothing. -/
def hostGap (g r : NetScope) : Prop :=
  g.hosts ≠ [] ∧ r.hosts = [] ∧ r.ports ≠ [] ∧
    (g.ports = [] ∨ ∀ op ∈ r.ports, ∃ sp ∈ g.ports, sp.containsRange op = true)

instance (g r : NetScope) : Decidable (hostGap g r) :=
  inferInstanceAs (Decidable (_ ∧ _))

/-- What `contains_scope` checks once both scopes restrict something. -/
theorem containsScope_iff {g r : NetScope} (hg : g.isUnrestricted = false)
    (hr : r.isUnrestricted = false) :
    g.containsScope r = true ↔
      (∀ oh ∈ r.hosts, ∃ sh ∈ g.hosts, hostCovers sh oh = true) ∧
        (g.ports = [] ∨ r.ports ≠ [] ∧
          ∀ op ∈ r.ports, ∃ sp ∈ g.ports, sp.containsRange op = true) := by
  unfold NetScope.containsScope
  rw [hg, hr]
  rcases hgp : g.ports with _ | ⟨gp, gps⟩ <;> rcases hrp : r.ports with _ | ⟨rp, rps⟩ <;>
    simp [List.all_eq_true, List.any_eq_true]

/-- Outside the gap, containment of scopes implies inclusion of their endpoints. -/
theorem endpoints_subset_of_containsScope (lc : Lowercase) {g r : NetScope}
    (hgap : ¬ hostGap g r) (h : g.containsScope r = true) :
    r.endpoints lc ⊆ g.endpoints lc := by
  rintro ⟨host, port⟩ ⟨hhost, hport⟩
  rcases hgu : g.isUnrestricted with _ | _
  · rcases hru : r.isUnrestricted with _ | _
    · obtain ⟨hosts, ports⟩ := (containsScope_iff hgu hru).mp h
      have hportG : g.matchesPort port = true := by
        rcases ports with hp | ⟨hne, hp⟩
        · simp [NetScope.matchesPort, hp]
        · exact matchesPort_of_ranges hne hp hport
      refine ⟨?_, hportG⟩
      by_cases hrh : r.hosts = []
      · -- the request leaves the host open: outside the gap, so does the grant
        have hgh : g.hosts = [] := by
          by_contra hgh
          have hrp : r.ports ≠ [] := by
            intro hrp
            simp [NetScope.isUnrestricted, hrh, hrp] at hru
          exact hgap ⟨hgh, hrh, hrp, ports.imp_right And.right⟩
        simp [NetScope.matchesHost, hgh]
      · exact matchesHost_of_hostCovers lc hrh hosts hhost
    · simp [NetScope.containsScope, hgu, hru] at h
  · simp only [NetScope.isUnrestricted, Bool.and_eq_true, List.isEmpty_iff] at hgu
    simp [NetScope.endpoints, NetScope.matchesHost, NetScope.matchesPort, hgu.1, hgu.2]

/-- In the gap the check succeeds and some endpoint of the request lies outside the
grant: any host the grant does not list, on any port of the request. -/
theorem not_subset_of_hostGap (lc : Lowercase) {g r : NetScope} (hgap : hostGap g r) :
    g.containsScope r = true ∧ ¬ r.endpoints lc ⊆ g.endpoints lc := by
  obtain ⟨hgh, hrh, hrp, hports⟩ := hgap
  have hgu : g.isUnrestricted = false := by simp [NetScope.isUnrestricted, hgh]
  have hru : r.isUnrestricted = false := by simp [NetScope.isUnrestricted, hrp]
  constructor
  · rw [containsScope_iff hgu hru]
    exact ⟨by simp [hrh], hports.imp_right fun hp => ⟨hrp, hp⟩⟩
  · intro hsub
    obtain ⟨host, hhost⟩ := exists_unmatched_host lc hgh
    obtain ⟨port, hport⟩ := exists_matched_port r
    have hmem : (host, port) ∈ r.endpoints lc :=
      ⟨by simp [NetScope.matchesHost, hrh], hport⟩
    exact absurd (hsub hmem).1 (by simp [hhost])

/-- **Containment of network scopes is sound exactly outside the host gap**, and the
check of a network capability is this containment, for each of the four kinds. -/
theorem netScope_containment_sound_iff (lc : Lowercase) (g r : NetScope) :
    ((g.containsScope r = true → r.endpoints lc ⊆ g.endpoints lc) ↔ ¬ hostGap g r) ∧
      (∀ kind ∈ [Capability.tcpConnect, .tcpListen, .udpAccess, .httpOutgoing],
        (kind g).satisfies (kind r) = g.containsScope r) := by
  constructor
  · constructor
    · intro h hgap
      obtain ⟨hc, hsub⟩ := not_subset_of_hostGap lc hgap
      exact hsub (h hc)
    · exact fun hgap h => endpoints_subset_of_containsScope lc hgap h
  · intro kind hkind
    simp only [List.mem_cons, List.not_mem_nil, or_false] at hkind
    rcases hkind with rfl | rfl | rfl | rfl <;> rfl

/-- Lowercasing on ASCII text. -/
def asciiLowercase : Lowercase where
  toLowercase s := String.ofList (s.toList.map Char.toLower)
  lower_ascii := by
    intro s hs
    have hmap : s.toList.map Char.toLower = s.toList := by
      conv_rhs => rw [← List.map_id s.toList]
      apply List.map_congr_left
      intro c hc
      have hlow := hs c hc
      unfold Char.isLower at hlow
      unfold Char.toLower
      simp only [Bool.and_eq_true, decide_eq_true_eq] at hlow
      rw [dif_neg]
      · rfl
      · intro hup
        exact absurd (UInt32.le_trans hlow.1 hup.2) (by decide)
    rw [hmap, String.ofList_toList]

/-- A grant for one host on port 443. -/
def apiGrant : NetScope := ⟨["api.example.com"], [.single 443]⟩

/-- A request for port 443 on any host. -/
def anyHostRequest : NetScope := ⟨[], [.single 443]⟩

/-- The grant for one host satisfies the request for every host, and the request then
reaches a host outside the grant. -/
theorem netScope_containment_gap :
    (Capability.tcpConnect apiGrant).satisfies (.tcpConnect anyHostRequest) = true ∧
      apiGrant.containsScope anyHostRequest = true ∧
      ("evil.com", 443) ∈ anyHostRequest.endpoints asciiLowercase ∧
      ("evil.com", 443) ∉ apiGrant.endpoints asciiLowercase := by
  refine ⟨by decide, by decide, ⟨by decide, by decide⟩, ?_⟩
  rintro ⟨hhost, -⟩
  exact absurd hhost (by decide)

end Torvyn.Security
