/-
# The text of capabilities

`FromStr for Capability` in `torvyn-security/src/capability.rs`, against the
printer `Capability.display`.  A capability that was read from a text prints to a
text that reads as itself, with one exception: the printer writes an open port
dimension as a star, which the reader does not take for a port list, so that a
scope of hosts without ports comes back with the star glued to its last host
(`fromStr_display_iff`).
-/
import Torvyn.Security.NetContainment

namespace Torvyn.Security

/-- Why a text is no capability. -/
inductive CapabilityParseError where
  | invalidFormat (input reason : String)
  | missingScope (input expected : String)
  | unknownCapability (input : String)
  deriving DecidableEq, Repr

/-- How the error is displayed. -/
def CapabilityParseError.display : CapabilityParseError → String
  | .invalidFormat input reason =>
      s!"[E0510] Invalid capability format '{input}': {reason}. " ++
        "Expected format: '<domain>:<action>[:<scope>]'."
  | .missingScope input expected =>
      s!"[E0511] Capability '{input}' requires a {expected} scope. " ++
        "Example: 'filesystem:read:/data/input'."
  | .unknownCapability input =>
      s!"[E0512] Unknown capability '{input}'. " ++
        "Run `torvyn inspect --capabilities` to see available capabilities."

/-! ## Reading network scopes -/

/-- The closure over the segments of the port part: a port, or two ports around a
dash.  Other segments are dropped. -/
def parsePortRange (seg : String) : Option PortRange :=
  let seg := trim seg
  if seg = "" then none
  else
    match splitOnce seg '-' with
    | some (s, e) =>
        match parseU16 s, parseU16 e with
        | some start, some stop => (PortRange.new start stop).toOption
        | _, _ => none
    | none => (parseU16 seg).map PortRange.single

/-- Whether the text after the last colon consists of digits, dashes and commas. -/
def isPortSpec (after : String) : Bool :=
  decide (after ≠ "") && after.toList.all fun c => c.isDigit || c == '-' || c == ','

/-- The host part and the port part of a network scope. -/
def splitScope (scopeStr : String) : String × Option String :=
  match rsplitOnce scopeStr ':' with
  | some (before, after) => if isPortSpec after then (before, some after) else (scopeStr, none)
  | none => (scopeStr, none)

/-- The host names of a host part. -/
def parseHosts (lc : Lowercase) (hostPart : String) : List String :=
  if hostPart = "*" ∨ hostPart = "" then []
  else ((split hostPart ',').map fun h => lc.toLowercase (trim h)).filter (· ≠ "")

/-- The port ranges of a port part. -/
def parsePorts : Option String → List PortRange
  | none => []
  | some p => (split p ',').filterMap parsePortRange

/-- `parse_net_scope_str`. -/
def parseNetScopeStr (lc : Lowercase) : Option String → NetScope
  | none => NetScope.unrestricted
  | some scopeStr =>
      if scopeStr = "*" ∨ scopeStr = "*:*" ∨ scopeStr = "" then NetScope.unrestricted
      else
        NetScope.new lc (parseHosts lc (splitScope scopeStr).1) (parsePorts (splitScope scopeStr).2)

/-! ## Reading capabilities -/

namespace Capability

/-- `Capability::from_str`. -/
def fromStr (lc : Lowercase) (s : String) : Except CapabilityParseError Capability :=
  match splitn 3 s ':' with
  | domain :: action :: rest =>
      let scopeStr := rest.head?
      match domain, action with
      | "filesystem", "read" =>
          match scopeStr with
          | some path => .ok (.filesystemRead (PathScope.new path))
          | none => .error (.missingScope s "path")
      | "filesystem", "write" =>
          match scopeStr with
          | some path => .ok (.filesystemWrite (PathScope.new path))
          | none => .error (.missingScope s "path")
      | "network", "tcp-connect" => .ok (.tcpConnect (parseNetScopeStr lc scopeStr))
      | "network", "tcp-listen" => .ok (.tcpListen (parseNetScopeStr lc scopeStr))
      | "network", "udp" => .ok (.udpAccess (parseNetScopeStr lc scopeStr))
      | "network", "http-outgoing" => .ok (.httpOutgoing (parseNetScopeStr lc scopeStr))
      | "clock", "wall" => .ok .wallClock
      | "clock", "monotonic" => .ok .monotonicClock
      | "random", "crypto" => .ok .cryptoRandom
      | "random", "insecure" => .ok .insecureRandom
      | "environment", "read" => .ok .environment
      | "stdio", "stdout" => .ok .stdout
      | "stdio", "stderr" => .ok .stderr
      | "torvyn", "resource-allocate" => .ok (.resourceAllocate (scopeStr.map PoolScope.mk))
      | "torvyn", "pool-access" =>
          match scopeStr with
          | some poolName => .ok (.poolAccess ⟨poolName⟩)
          | none => .error (.missingScope s "pool name")
      | "torvyn", "emit-backpressure" => .ok .emitBackpressure
      | "torvyn", "inspect-flow-meta" => .ok .inspectFlowMeta
      | "torvyn", "runtime-inspect" => .ok .runtimeInspect
      | "torvyn", "custom-metrics" => .ok .customMetrics
      | _, _ => .error (.unknownCapability s)
  | _ => .error (.invalidFormat s "expected format '<domain>:<action>[:<scope>]'")

end Capability

example : Capability.fromStr asciiLowercase "network:udp:a.com, B.com:80,90-95" =
    .ok (.udpAccess ⟨["a.com", "b.com"], [.single 80, ⟨90, 95, by decide⟩]⟩) := by
  decide

/-! ## Port lists -/

theorem isWhitespace_of_portChar {c : Char} (h : c.isDigit = true ∨ c = '-') :
    isWhitespace c = false := by
  rcases h with h | rfl
  · have hrange : 48 ≤ c.toNat ∧ c.toNat ≤ 57 := by
      unfold Char.isDigit at h
      simpa [UInt32.le_iff_toNat_le] using h
    unfold isWhitespace
    simp
    omega
  · decide

namespace PortRange

theorem display_chars {r : PortRange} {c : Char} (hc : c ∈ r.display.toList) :
    c.isDigit = true ∨ c = '-' := by
  unfold display at hc
  split at hc
  · exact .inl (isDigit_of_mem_toString hc)
  · rw [String.toList_append, String.toList_append, List.mem_append, List.mem_append] at hc
    rcases hc with (hc | hc) | hc
    · exact .inl (isDigit_of_mem_toString hc)
    · exact .inr (List.mem_singleton.mp hc)
    · exact .inl (isDigit_of_mem_toString hc)

theorem display_ne_empty (r : PortRange) : r.display ≠ "" := by
  unfold display
  split
  · exact toString_ne_empty r.start
  · intro h
    rw [← String.toList_inj, String.toList_append, String.toList_append] at h
    have hstart := (List.append_eq_nil_iff.mp (List.append_eq_nil_iff.mp h).1).1
    exact toString_ne_empty r.start (String.toList_inj.mp hstart)

/-- A port range that is printed is read. -/
theorem parsePortRange_display (r : PortRange) : parsePortRange r.display = some r := by
  have htrim : trim r.display = r.display :=
    trim_eq_self_of_forall fun c hc => isWhitespace_of_portChar (display_chars hc)
  have hdash : ∀ n : UInt16, '-' ∉ (toString n).toList := by
    intro n hmem
    have hdigit := isDigit_of_mem_toString hmem
    exact absurd hdigit (by decide)
  unfold parsePortRange
  simp only [htrim]
  rw [if_neg r.display_ne_empty]
  by_cases heq : r.start = r.stop
  · have hdisplay : r.display = toString r.start := if_pos heq
    rw [hdisplay, splitOnce_eq_none (hdash r.start), parseU16_toString]
    obtain ⟨start, stop, hle⟩ := r
    obtain rfl : start = stop := heq
    rfl
  · have hdisplay : r.display = toString r.start ++ "-" ++ toString r.stop := if_neg heq
    have hsplit : splitOnce r.display '-' = some (toString r.start, toString r.stop) := by
      refine splitOnce_eq ?_ (hdash r.start)
      rw [hdisplay, String.toList_append, String.toList_append, List.append_assoc]
      rfl
    rw [hsplit]
    simp only [parseU16_toString, PortRange.new, dif_pos r.start_le_stop]
    rfl

end PortRange

/-- The port part of a printed scope. -/
def portText (ports : List PortRange) : String := ",".intercalate (ports.map PortRange.display)

theorem split_portText {ports : List PortRange} (hne : ports ≠ []) :
    split (portText ports) ',' = ports.map PortRange.display := by
  refine split_intercalate ?_ ?_
  · rwa [Ne, List.map_eq_nil_iff]
  · intro piece hpiece hmem
    obtain ⟨r, -, rfl⟩ := List.mem_map.mp hpiece
    exact absurd (PortRange.display_chars hmem) (by decide)

/-- A port list that is printed is read. -/
theorem parsePorts_portText {ports : List PortRange} (hne : ports ≠ []) :
    parsePorts (some (portText ports)) = ports := by
  unfold parsePorts
  simp only
  rw [split_portText hne, List.filterMap_map]
  have hself : parsePortRange ∘ PortRange.display = some := by
    funext r
    rw [Function.comp_apply, r.parsePortRange_display]
  rw [hself, List.filterMap_some]

/-- The reader takes a printed port list for one. -/
theorem isPortSpec_portText {ports : List PortRange} (hne : ports ≠ []) :
    isPortSpec (portText ports) = true := by
  have hsplit := split_portText hne
  unfold isPortSpec
  rw [Bool.and_eq_true, decide_eq_true_eq, List.all_eq_true]
  constructor
  · intro hempty
    rw [hempty] at hsplit
    have hmem : "" ∈ ports.map PortRange.display := by
      rw [← hsplit]
      decide
    obtain ⟨r, -, hr⟩ := List.mem_map.mp hmem
    exact r.display_ne_empty hr
  · intro c hc
    by_cases hcomma : c = ','
    · rw [hcomma]
      decide
    · obtain ⟨piece, hpiece, hmem⟩ := exists_mem_split hcomma hc
      rw [hsplit] at hpiece
      obtain ⟨r, -, rfl⟩ := List.mem_map.mp hpiece
      rcases PortRange.display_chars hmem with h | h
      · rw [h]
        rfl
      · rw [h]
        decide

/-! ## Host lists -/

/-- A host name as the reader leaves it. -/
structure IsHost (lc : Lowercase) (host : String) : Prop where
  nonempty : host ≠ ""
  trimmed : trim host = host
  lower : lc.toLowercase host = host
  single : ',' ∉ host.toList

/-- The names of a host part, before they are lowered. -/
def hostTexts (hostPart : String) : List String :=
  if hostPart = "*" ∨ hostPart = "" then []
  else ((split hostPart ',').map trim).filter (· ≠ "")

theorem parseHosts_eq (lc : CharLowercase) (hostPart : String) :
    parseHosts lc.mapping hostPart = (hostTexts hostPart).map lc.toLowercase := by
  unfold parseHosts hostTexts
  split
  · rfl
  · have hsame : ∀ text : String, decide (lc.toLowercase text ≠ "") = decide (text ≠ "") :=
      fun text => by rw [decide_eq_decide, Ne, Ne, lc.toLowercase_eq_empty]
    induction split hostPart ',' with
    | nil => rfl
    | cons piece pieces ih =>
        rw [List.map_cons, List.map_cons, List.filter_cons, List.filter_cons, hsame]
        split
        · rw [ih, List.map_cons]
        · exact ih

/-- The hosts that `NetScope::new` stores. -/
theorem hosts_parse (lc : CharLowercase) (hostPart : String) (ports : List PortRange) :
    NetScope.new lc.mapping (parseHosts lc.mapping hostPart) ports =
      ⟨(hostTexts hostPart).map lc.toLowercase, ports⟩ := by
  unfold NetScope.new
  rw [parseHosts_eq, List.map_map]
  congr 1
  exact List.map_congr_left fun h _ => lc.idempotent h

/-- What is read as a host is one. -/
theorem isHost_of_mem (lc : CharLowercase) {hostPart host : String}
    (h : host ∈ (hostTexts hostPart).map lc.toLowercase) : IsHost lc.mapping host := by
  obtain ⟨text, htext, rfl⟩ := List.mem_map.mp h
  unfold hostTexts at htext
  split at htext
  · cases htext
  · obtain ⟨hmem, hne⟩ := List.mem_filter.mp htext
    obtain ⟨piece, hpiece, rfl⟩ := List.mem_map.mp hmem
    obtain ⟨hhead, hlast⟩ := ends_trim piece
    refine ⟨?_, ?_, lc.idempotent _, ?_⟩
    · rw [Ne, lc.toLowercase_eq_empty]
      exact of_decide_eq_true hne
    · exact lc.trim_toLowercase (trim_eq_self hhead hlast)
    · intro hcomma
      exact not_mem_of_mem_split hpiece
        (mem_of_mem_trim (lc.mem_of_mem_toLowercase (by decide) hcomma))

/-- The host part of a printed scope. -/
def hostText (hosts : List String) : String := ",".intercalate hosts

section Hosts

variable {lc : CharLowercase} {hosts : List String}

theorem split_hostText (hne : hosts ≠ []) (hhosts : ∀ h ∈ hosts, IsHost lc.mapping h) :
    split (hostText hosts) ',' = hosts :=
  split_intercalate hne fun h hh => (hhosts h hh).single

theorem hostText_ne_empty (hne : hosts ≠ []) (hhosts : ∀ h ∈ hosts, IsHost lc.mapping h) :
    hostText hosts ≠ "" := by
  intro hempty
  have hsplit := split_hostText hne hhosts
  rw [hempty] at hsplit
  have hmem : "" ∈ hosts := by
    rw [← hsplit]
    decide
  exact (hhosts "" hmem).nonempty rfl

theorem hostText_eq_star_iff (hne : hosts ≠ []) (hhosts : ∀ h ∈ hosts, IsHost lc.mapping h) :
    hostText hosts = "*" ↔ hosts = ["*"] := by
  constructor
  · intro hstar
    rw [← split_hostText hne hhosts, hstar]
    decide
  · rintro rfl
    decide

/-- A host list that is printed is read, unless it is the single star. -/
theorem hostTexts_hostText (hne : hosts ≠ []) (hhosts : ∀ h ∈ hosts, IsHost lc.mapping h)
    (hstar : hosts ≠ ["*"]) : (hostTexts (hostText hosts)).map lc.toLowercase = hosts := by
  unfold hostTexts
  rw [if_neg (not_or.mpr ⟨fun h => hstar ((hostText_eq_star_iff hne hhosts).mp h),
    hostText_ne_empty hne hhosts⟩), split_hostText hne hhosts]
  have htrim : hosts.map trim = hosts := by
    conv_rhs => rw [← List.map_id hosts]
    exact List.map_congr_left fun h hh => (hhosts h hh).trimmed
  have hfilter : hosts.filter (· ≠ "") = hosts :=
    List.filter_eq_self.mpr fun h hh => decide_eq_true (hhosts h hh).nonempty
  rw [htrim, hfilter]
  conv_rhs => rw [← List.map_id hosts]
  exact List.map_congr_left fun h hh => (hhosts h hh).lower

end Hosts

/-- Reading a host part other than the single star keeps all its stars. -/
theorem stars_hostTexts (lc : CharLowercase) {hostPart : String} (hstar : hostPart ≠ "*") :
    (((hostTexts hostPart).map lc.toLowercase).map fun h => h.toList.count '*').sum =
      hostPart.toList.count '*' := by
  have hlower : ∀ texts : List String,
      ((texts.map lc.toLowercase).map fun h => h.toList.count '*') =
        texts.map fun h => h.toList.count '*' := by
    intro texts
    rw [List.map_map]
    have hcase : isCaseless '*' = true := by decide
    exact List.map_congr_left fun h _ => lc.count_toLowercase hcase h
  have hfilter : ∀ texts : List String,
      ((texts.filter (· ≠ "")).map fun h => h.toList.count '*').sum =
        (texts.map fun h => h.toList.count '*').sum := by
    intro texts
    induction texts with
    | nil => rfl
    | cons text texts ih =>
        by_cases hempty : text = ""
        · subst hempty
          exact ih.trans (Nat.zero_add _).symm
        · have hkept : (text :: texts).filter (· ≠ "") = text :: texts.filter (· ≠ "") :=
            List.filter_cons_of_pos (decide_eq_true hempty)
          rw [hkept, List.map_cons, List.map_cons, List.sum_cons, List.sum_cons, ih]
  rw [hlower]
  unfold hostTexts
  split
  · rename_i h
    rw [h.resolve_left hstar]
    rfl
  · rw [hfilter, List.map_map, ← count_split (show '*' ≠ ',' by decide) hostPart]
    have hspace : isWhitespace '*' = false := by decide
    have htrim : (fun h => h.toList.count '*') ∘ trim = fun h => h.toList.count '*' := by
      funext h
      rw [Function.comp_apply, count_trim hspace]
    rw [htrim]

/-! ## Scopes -/

theorem splitScope_ports {before after : String} (hspec : isPortSpec after = true) :
    splitScope (before ++ ":" ++ after) = (before, some after) := by
  have hsplit : rsplitOnce (before ++ ":" ++ after) ':' = some (before, after) := by
    refine rsplitOnce_eq ?_ ?_
    · rw [String.toList_append, String.toList_append, List.append_assoc]
      rfl
    · intro hcolon
      unfold isPortSpec at hspec
      rw [Bool.and_eq_true, List.all_eq_true] at hspec
      exact absurd (hspec.2 ':' hcolon) (by decide)
  unfold splitScope
  rw [hsplit]
  exact if_pos hspec

/-- The star after a colon is not a port part. -/
theorem splitScope_star (before : String) :
    splitScope (before ++ ":" ++ "*") = (before ++ ":" ++ "*", none) := by
  have hsplit : rsplitOnce (before ++ ":" ++ "*") ':' = some (before, "*") := by
    refine rsplitOnce_eq ?_ (by decide)
    rw [String.toList_append, String.toList_append, List.append_assoc]
    rfl
  unfold splitScope
  rw [hsplit]
  exact if_neg (by decide)

theorem parseNetScopeStr_some {lc : Lowercase} {t : String} (h : t ≠ "*:*") :
    parseNetScopeStr lc (some t) =
      NetScope.new lc (parseHosts lc (splitScope t).1) (parsePorts (splitScope t).2) := by
  unfold parseNetScopeStr
  simp only
  split
  · rename_i hopen
    rcases hopen with rfl | hstar | rfl
    · rfl
    · exact absurd hstar h
    · rfl
  · rfl

/-- A text with a port part is not the open scope. -/
theorem ne_open_of_ports {t before after : String} (h : splitScope t = (before, some after)) :
    t ≠ "*:*" := by
  rintro rfl
  rw [show splitScope "*:*" = ("*:*", none) by decide] at h
  cases h

/-- Both dimensions of a scope are printed, an open one as a star. -/
theorem NetScope.display_eq (hosts : List String) (ports : List PortRange) :
    NetScope.display ⟨hosts, ports⟩ =
      (if hosts = [] then "*" else hostText hosts) ++ ":" ++
        (if ports = [] then "*" else portText ports) := by
  unfold NetScope.display NetScope.isUnrestricted
  cases hosts <;> cases ports <;> rfl

section Display

variable {lc : CharLowercase} {hosts : List String} {ports : List PortRange}

/-- Hosts without ports are read back as other hosts: the star after the colon joins
the last one. -/
theorem parseNetScopeStr_display_hosts (hne : hosts ≠ [])
    (hhosts : ∀ h ∈ hosts, IsHost lc.mapping h) :
    parseNetScopeStr lc.mapping (some (NetScope.display ⟨hosts, []⟩)) ≠ ⟨hosts, []⟩ := by
  intro hread
  rw [NetScope.display_eq, if_neg hne, if_pos rfl] at hread
  by_cases hopen : hostText hosts ++ ":" ++ "*" = "*:*"
  · rw [hopen] at hread
    exact hne (congrArg NetScope.hosts hread).symm
  · have hstar : hostText hosts ++ ":" ++ "*" ≠ "*" := by
      intro h
      have hlength := congrArg String.length h
      rw [String.length_append, String.length_append] at hlength
      have hone : ":".length = 1 ∧ "*".length = 1 := by decide
      omega
    rw [parseNetScopeStr_some hopen, splitScope_star, hosts_parse, NetScope.mk.injEq] at hread
    have hcount := stars_hostTexts lc hstar
    have hcolon : ":".toList.count '*' = 0 ∧ "*".toList.count '*' = 1 := by decide
    rw [hread.1, String.toList_append, String.toList_append, List.count_append,
      List.count_append, ← count_split (show '*' ≠ ',' by decide),
      split_hostText hne hhosts] at hcount
    omega

/-- Ports are read back, whatever the host part. -/
theorem parseNetScopeStr_ports (hports : ports ≠ []) (hostPart : String) :
    parseNetScopeStr lc.mapping (some (hostPart ++ ":" ++ portText ports)) =
      ⟨(hostTexts hostPart).map lc.toLowercase, ports⟩ := by
  have hsplit := @splitScope_ports hostPart _ (isPortSpec_portText hports)
  rw [parseNetScopeStr_some (ne_open_of_ports hsplit), hsplit, parsePorts_portText hports,
    hosts_parse]

/-- A scope is read back exactly when it names no host, or names ports and is not
the single star. -/
theorem parseNetScopeStr_display_iff (hhosts : ∀ h ∈ hosts, IsHost lc.mapping h) :
    parseNetScopeStr lc.mapping (some (NetScope.display ⟨hosts, ports⟩)) = ⟨hosts, ports⟩ ↔
      hosts = [] ∨ (ports ≠ [] ∧ hosts ≠ ["*"]) := by
  by_cases hports : ports = []
  · subst hports
    by_cases hne : hosts = []
    · subst hne
      exact iff_of_true rfl (.inl rfl)
    · refine iff_of_false (parseNetScopeStr_display_hosts hne hhosts) ?_
      rintro (h | ⟨h, -⟩)
      · exact hne h
      · exact h rfl
  · rw [NetScope.display_eq, if_neg hports, parseNetScopeStr_ports hports, NetScope.mk.injEq]
    by_cases hne : hosts = []
    · subst hne
      exact iff_of_true ⟨rfl, rfl⟩ (.inl rfl)
    · rw [if_neg hne, or_iff_right hne]
      constructor
      · rintro ⟨hread, -⟩
        refine ⟨hports, ?_⟩
        rintro rfl
        cases hread
      · rintro ⟨-, hstar⟩
        exact ⟨hostTexts_hostText hne hhosts hstar, rfl⟩

end Display

/-! ## Capabilities -/

/-- The actions of the network domain. -/
def networkActions : List (String × (NetScope → Capability)) :=
  [("tcp-connect", .tcpConnect), ("tcp-listen", .tcpListen), ("udp", .udpAccess),
    ("http-outgoing", .httpOutgoing)]

/-- The four actions, one by one. -/
theorem networkActions_cases {action : String} {make : NetScope → Capability}
    (hmem : (action, make) ∈ networkActions) :
    (action = "tcp-connect" ∧ make = .tcpConnect) ∨ (action = "tcp-listen" ∧ make = .tcpListen) ∨
      (action = "udp" ∧ make = .udpAccess) ∨
      (action = "http-outgoing" ∧ make = .httpOutgoing) := by
  unfold networkActions at hmem
  simpa only [List.mem_cons, Prod.mk.injEq, List.not_mem_nil, or_false] using hmem

/-- The texts whose scope is printed with a host that is not its own: a network
capability that names a host and no port range, or the single host `*`. -/
def DropsScope (s : String) : Prop :=
  ∃ action make t, (action, make) ∈ networkActions ∧ splitn 3 s ':' = ["network", action, t] ∧
    t ≠ "*:*" ∧ hostTexts (splitScope t).1 ≠ [] ∧
    (parsePorts (splitScope t).2 = [] ∨ hostTexts (splitScope t).1 = ["*"])

theorem PathScope.popSlashes_popSlashes (cs : List Char) :
    popSlashes (popSlashes cs) = popSlashes cs := by
  induction cs using popSlashes.induct with
  | case1 c cs ih => rw [popSlashes, ih]
  | case2 cs hne =>
      have hself : popSlashes cs = cs := by
        unfold popSlashes
        split
        · exact absurd rfl (hne _ _)
        · rfl
      rw [hself, hself]

/-- A normalised path stays as it is. -/
theorem PathScope.new_root (root : String) : PathScope.new (PathScope.new root).root =
    PathScope.new root := by
  unfold PathScope.new
  rw [String.toList_ofList, List.reverse_reverse, PathScope.popSlashes_popSlashes]

namespace Capability

variable {lc : Lowercase} {s : String} {c : Capability}

/-- What a network text is read as. -/
theorem fromStr_network {action : String} {make : NetScope → Capability} {rest : List String}
    (hmem : (action, make) ∈ networkActions)
    (hs : splitn 3 s ':' = "network" :: action :: rest) :
    fromStr lc s = .ok (make (parseNetScopeStr lc rest.head?)) := by
  unfold fromStr
  rw [hs]
  rcases networkActions_cases hmem with ⟨rfl, rfl⟩ | ⟨rfl, rfl⟩ | ⟨rfl, rfl⟩ | ⟨rfl, rfl⟩ <;> rfl

/-- The three pieces of a printed capability with a scope. -/
theorem splitn_scoped {domain action : String} (hdomain : ':' ∉ domain.toList)
    (haction : ':' ∉ action.toList) (t : String) :
    splitn 3 (domain ++ ":" ++ action ++ ":" ++ t) ':' = [domain, action, t] := by
  have houter : splitOnce (domain ++ ":" ++ action ++ ":" ++ t) ':' =
      some (domain, action ++ ":" ++ t) := by
    refine splitOnce_eq ?_ hdomain
    simp only [String.toList_append, List.append_assoc]
    rfl
  have hinner : splitOnce (action ++ ":" ++ t) ':' = some (action, t) := by
    refine splitOnce_eq ?_ haction
    simp only [String.toList_append, List.append_assoc]
    rfl
  simp only [splitn, houter, hinner]

/-- A network capability is printed with its domain, its action and its scope. -/
theorem display_network {action : String} {make : NetScope → Capability}
    (hmem : (action, make) ∈ networkActions) (scope : NetScope) :
    (make scope).display = "network" ++ ":" ++ action ++ ":" ++ scope.display := by
  rcases networkActions_cases hmem with ⟨rfl, rfl⟩ | ⟨rfl, rfl⟩ | ⟨rfl, rfl⟩ | ⟨rfl, rfl⟩ <;>
    exact congrArg (· ++ scope.display) (by decide)

theorem splitn_display {action : String} {make : NetScope → Capability}
    (hmem : (action, make) ∈ networkActions) (scope : NetScope) :
    splitn 3 (make scope).display ':' = ["network", action, scope.display] := by
  rw [display_network hmem]
  refine splitn_scoped (by decide) ?_ scope.display
  rcases networkActions_cases hmem with ⟨rfl, -⟩ | ⟨rfl, -⟩ | ⟨rfl, -⟩ | ⟨rfl, -⟩ <;> decide

theorem make_inj {action : String} {make : NetScope → Capability}
    (hmem : (action, make) ∈ networkActions) {a b : NetScope} : make a = make b ↔ a = b := by
  rcases networkActions_cases hmem with ⟨rfl, rfl⟩ | ⟨rfl, rfl⟩ | ⟨rfl, rfl⟩ | ⟨rfl, rfl⟩ <;> simp

/-! The other kinds carry no hosts, and all of them read back. -/

theorem fromStr_filesystemRead (path : PathScope) :
    fromStr lc (filesystemRead path).display =
      .ok (.filesystemRead (PathScope.new path.root)) := by
  have hdisplay : (filesystemRead path).display =
      "filesystem" ++ ":" ++ "read" ++ ":" ++ path.root :=
    congrArg (· ++ path.root) (by decide)
  unfold fromStr
  rw [hdisplay, splitn_scoped (by decide) (by decide)]
  rfl

theorem fromStr_filesystemWrite (path : PathScope) :
    fromStr lc (filesystemWrite path).display =
      .ok (.filesystemWrite (PathScope.new path.root)) := by
  have hdisplay : (filesystemWrite path).display =
      "filesystem" ++ ":" ++ "write" ++ ":" ++ path.root :=
    congrArg (· ++ path.root) (by decide)
  unfold fromStr
  rw [hdisplay, splitn_scoped (by decide) (by decide)]
  rfl

theorem fromStr_resourceAllocate (pool : PoolScope) :
    fromStr lc (resourceAllocate (some pool)).display = .ok (.resourceAllocate (some pool)) := by
  have hdisplay : (resourceAllocate (some pool)).display =
      "torvyn" ++ ":" ++ "resource-allocate" ++ ":" ++ pool.poolName :=
    congrArg (· ++ pool.poolName) (by decide)
  unfold fromStr
  rw [hdisplay, splitn_scoped (by decide) (by decide)]
  rfl

theorem fromStr_poolAccess (pool : PoolScope) :
    fromStr lc (poolAccess pool).display = .ok (.poolAccess pool) := by
  have hdisplay : (poolAccess pool).display =
      "torvyn" ++ ":" ++ "pool-access" ++ ":" ++ pool.poolName :=
    congrArg (· ++ pool.poolName) (by decide)
  unfold fromStr
  rw [hdisplay, splitn_scoped (by decide) (by decide)]
  rfl

/-- The capabilities that are printed without a scope. -/
def unscoped : List Capability :=
  [.wallClock, .monotonicClock, .cryptoRandom, .insecureRandom, .environment, .stdout, .stderr,
    .resourceAllocate none, .emitBackpressure, .inspectFlowMeta, .runtimeInspect, .customMetrics]

theorem fromStr_unscoped (hc : c ∈ unscoped) : fromStr lc c.display = .ok c := by
  unfold unscoped at hc
  simp only [List.mem_cons, List.not_mem_nil, or_false] at hc
  rcases hc with rfl | rfl | rfl | rfl | rfl | rfl | rfl | rfl | rfl | rfl | rfl | rfl <;> rfl

/-- A text that is read is a network text, or it is read as a capability that reads
back. -/
theorem fromStr_cases (h : fromStr lc s = .ok c) :
    (∃ action make rest, (action, make) ∈ networkActions ∧
      splitn 3 s ':' = "network" :: action :: rest ∧ c = make (parseNetScopeStr lc rest.head?)) ∨
    (c.netScope? = none ∧ fromStr lc c.display = .ok c) := by
  unfold fromStr at h
  split at h
  · rename_i domain action rest hsplit
    dsimp only at h
    split at h
    case h_1 | h_2 =>
      split at h
      · cases h
        refine .inr ⟨rfl, ?_⟩
        first
          | rw [fromStr_filesystemRead, PathScope.new_root]
          | rw [fromStr_filesystemWrite, PathScope.new_root]
      · cases h
    case h_3 | h_4 | h_5 | h_6 =>
      cases h
      exact .inl ⟨_, _, rest, by simp [networkActions], hsplit, rfl⟩
    case h_14 =>
      cases h
      cases rest.head? with
      | none => exact .inr ⟨rfl, fromStr_unscoped (by decide)⟩
      | some name => exact .inr ⟨rfl, fromStr_resourceAllocate ⟨name⟩⟩
    case h_15 =>
      split at h
      · rename_i name _
        cases h
        exact .inr ⟨rfl, fromStr_poolAccess ⟨name⟩⟩
      · cases h
    case h_20 => cases h
    all_goals
      cases h
      exact .inr ⟨rfl, fromStr_unscoped (by decide)⟩
  · cases h

end Capability

theorem splitn_three {s a b : String} {rest : List String} {c : Char}
    (h : splitn 3 s c = a :: b :: rest) : rest = [] ∨ ∃ t, rest = [t] := by
  unfold splitn at h
  split at h
  · obtain ⟨-, h⟩ := List.cons.inj h
    unfold splitn at h
    split at h
    · obtain ⟨-, h⟩ := List.cons.inj h
      exact .inr ⟨_, h.symm⟩
    · obtain ⟨-, h⟩ := List.cons.inj h
      exact .inl h.symm
  · obtain ⟨-, h⟩ := List.cons.inj h
    cases h

theorem netScope?_make {action : String} {make : NetScope → Capability}
    (hmem : (action, make) ∈ networkActions) (scope : NetScope) :
    (make scope).netScope? = some scope := by
  rcases networkActions_cases hmem with ⟨-, rfl⟩ | ⟨-, rfl⟩ | ⟨-, rfl⟩ | ⟨-, rfl⟩ <;> rfl

/-- The scope of a network text is read back exactly when its print does not drop it. -/
theorem parseNetScopeStr_iff {lc : CharLowercase} {s action : String}
    {make : NetScope → Capability} {rest : List String} (hmem : (action, make) ∈ networkActions)
    (hs : splitn 3 s ':' = "network" :: action :: rest) :
    parseNetScopeStr lc.mapping (some (parseNetScopeStr lc.mapping rest.head?).display) =
      parseNetScopeStr lc.mapping rest.head? ↔ ¬ DropsScope s := by
  by_cases hopen : rest = [] ∨ rest = ["*:*"]
  · have hscope : parseNetScopeStr lc.mapping rest.head? = NetScope.unrestricted := by
      rcases hopen with rfl | rfl <;> rfl
    rw [hscope]
    refine iff_of_true rfl ?_
    rintro ⟨_, _, t, _, ht, hne, -⟩
    rw [hs] at ht
    obtain ⟨-, ht⟩ := List.cons.inj ht
    obtain ⟨-, rfl⟩ := List.cons.inj ht
    rcases hopen with hnil | hstar
    · cases hnil
    · exact hne (List.cons.inj hstar).1
  · obtain hnil | ⟨t, rfl⟩ := splitn_three hs
    · exact absurd (.inl hnil) hopen
    have ht : t ≠ "*:*" := fun h => hopen (.inr (by rw [h]))
    rw [List.head?_cons, parseNetScopeStr_some ht, hosts_parse,
      parseNetScopeStr_display_iff fun h hh => isHost_of_mem lc hh, List.map_eq_nil_iff]
    have hstar : (hostTexts (splitScope t).1).map lc.toLowercase = ["*"] ↔
        hostTexts (splitScope t).1 = ["*"] := by
      rw [List.map_eq_singleton_iff]
      constructor
      · rintro ⟨text, htexts, hlower⟩
        rw [htexts, lc.toLowercase_eq_star.mp hlower]
      · intro htexts
        exact ⟨"*", htexts, lc.toLowercase_eq_star.mpr rfl⟩
    rw [Ne, Ne, hstar]
    constructor
    · rintro hkeeps ⟨_, _, t', _, ht', -, hhosts, hdrop⟩
      rw [hs] at ht'
      obtain ⟨-, ht'⟩ := List.cons.inj ht'
      obtain ⟨-, ht'⟩ := List.cons.inj ht'
      obtain ⟨rfl, -⟩ := List.cons.inj ht'
      rcases hkeeps with hnone | ⟨hports, hsingle⟩
      · exact hhosts hnone
      · exact hdrop.elim hports hsingle
    · intro hdrop
      by_cases hnone : hostTexts (splitScope t).1 = []
      · exact .inl hnone
      · refine .inr ⟨fun hports => ?_, fun hsingle => ?_⟩
        · exact hdrop ⟨action, make, t, hmem, hs, ht, hnone, .inl hports⟩
        · exact hdrop ⟨action, make, t, hmem, hs, ht, hnone, .inr hsingle⟩

/-- A capability that was read prints to a text that reads as itself exactly when
the print does not drop its scope. -/
theorem fromStr_display_iff (lc : CharLowercase) {s : String} {c : Capability}
    (h : Capability.fromStr lc.mapping s = .ok c) :
    Capability.fromStr lc.mapping c.display = .ok c ↔ ¬ DropsScope s := by
  rcases Capability.fromStr_cases h with ⟨action, make, rest, hmem, hs, rfl⟩ | ⟨hnet, hread⟩
  · rw [Capability.fromStr_network hmem (Capability.splitn_display hmem _), Except.ok.injEq,
      Capability.make_inj hmem, List.head?_cons]
    exact parseNetScopeStr_iff hmem hs
  · refine iff_of_true hread ?_
    rintro ⟨action, make, t, hmem, hs, -⟩
    rw [Capability.fromStr_network hmem hs] at h
    cases h
    rw [netScope?_make hmem] at hnet
    cases hnet

/-! ## Witnesses -/

theorem toLower_toNat (c : Char) :
    (65 ≤ c.toNat ∧ c.toNat ≤ 90 ∧ c.toLower.toNat = c.toNat + 32) ∨
      ((c.toNat < 65 ∨ 90 < c.toNat) ∧ c.toLower = c) := by
  unfold Char.toLower
  split
  · rename_i h
    obtain ⟨hlow, hhigh⟩ := h
    have hlow : 65 ≤ c.val.toNat := UInt32.le_iff_toNat_le.mp hlow
    have hhigh : c.val.toNat ≤ 90 := UInt32.le_iff_toNat_le.mp hhigh
    refine .inl ⟨hlow, hhigh, ?_⟩
    show (c.val + ('a'.val - 'A'.val)).toNat = c.val.toNat + 32
    rw [UInt32.toNat_add, show ('a'.val - 'A'.val).toNat = 32 by decide]
    omega
  · rename_i h
    refine .inr ⟨?_, rfl⟩
    by_contra hrange
    push Not at hrange
    exact h ⟨UInt32.le_iff_toNat_le.mpr hrange.1, UInt32.le_iff_toNat_le.mpr hrange.2⟩

theorem toNat_of_isCaseless {c : Char} (h : isCaseless c = true) :
    c.toNat < 65 ∨ 122 < c.toNat := by
  unfold isCaseless at h
  simp only [Bool.or_eq_true, beq_iff_eq] at h
  rcases h with (h | rfl) | rfl
  · unfold isWhitespace at h
    simp only [Bool.or_eq_true, Bool.and_eq_true, decide_eq_true_eq, beq_iff_eq] at h
    omega
  · exact .inl (by decide)
  · exact .inl (by decide)

theorem lowersTo_toLower (c : Char) : LowersTo c [c.toLower] := by
  refine ⟨List.cons_ne_nil _ _, ?_⟩
  rcases toLower_toNat c with ⟨hlow, hhigh, hlower⟩ | ⟨-, hlower⟩
  · have hc : ¬ isCaseless c = true := fun h => by
      have hrange := toNat_of_isCaseless h
      omega
    rw [if_neg hc]
    intro d hd
    rw [List.mem_singleton.mp hd]
    by_contra hcase
    have hrange := toNat_of_isCaseless (Bool.eq_true_of_not_eq_false hcase)
    omega
  · rw [hlower]
    split
    · rfl
    · rename_i hc
      intro d hd
      rw [List.mem_singleton.mp hd]
      exact Bool.eq_false_iff.mpr hc

/-- ASCII lowercasing works character by character. -/
def asciiCharLowercase : CharLowercase where
  toLowercase := asciiLowercase.toLowercase
  lower_ascii := asciiLowercase.lower_ascii
  by_char := by
    intro s
    refine ⟨s.toList.map fun c => [c.toLower], ?_, ?_⟩
    · unfold asciiLowercase
      simp only [String.toList_ofList]
      induction s.toList with
      | nil => rfl
      | cons c cs ih => rw [List.map_cons, List.map_cons, List.flatten_cons, ← ih]; rfl
    · induction s.toList with
      | nil => exact .nil
      | cons c cs ih => exact .cons (lowersTo_toLower c) ih
  idempotent := by
    intro s
    unfold asciiLowercase
    simp only [String.toList_ofList, List.map_map]
    congr 1
    refine List.map_congr_left fun c _ => ?_
    rw [Function.comp_apply, ← Char.toNat_inj]
    rcases toLower_toNat c with ⟨hlow, hhigh, hlower⟩ | ⟨-, hlower⟩
    · rcases toLower_toNat c.toLower with ⟨_, _, _⟩ | ⟨-, hsame⟩
      · omega
      · rw [hsame]
    · rw [hlower, hlower]

/-- A listener scope with ports survives the round trip. -/
theorem fromStr_display_ports :
    Capability.fromStr asciiCharLowercase.mapping
        (Capability.tcpListen ⟨["a.com", "*.b.com"], [PortRange.single 80]⟩).display =
      .ok (.tcpListen ⟨["a.com", "*.b.com"], [PortRange.single 80]⟩) := by
  refine (fromStr_display_iff asciiCharLowercase (s := "network:tcp-listen:A.com, *.b.com:80")
    (by decide)).mpr ?_
  rintro ⟨_, _, t, _, ht, -, -, hdrop⟩
  rw [show splitn 3 "network:tcp-listen:A.com, *.b.com:80" ':' =
    ["network", "tcp-listen", "A.com, *.b.com:80"] by decide] at ht
  obtain ⟨-, ht⟩ := List.cons.inj ht
  obtain ⟨-, ht⟩ := List.cons.inj ht
  obtain ⟨rfl, -⟩ := List.cons.inj ht
  revert hdrop
  decide

/-- The host of a scope without ports comes back as another host. -/
theorem portless_scope_misread :
    Capability.fromStr asciiCharLowercase.mapping "network:tcp-connect:example.com" =
        .ok (.tcpConnect ⟨["example.com"], []⟩) ∧
      (Capability.tcpConnect ⟨["example.com"], []⟩).display =
        "network:tcp-connect:example.com:*" ∧
      Capability.fromStr asciiCharLowercase.mapping "network:tcp-connect:example.com:*" =
        .ok (.tcpConnect ⟨["example.com:*"], []⟩) := by
  decide

end Torvyn.Security
