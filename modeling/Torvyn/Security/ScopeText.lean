/-
# What a network scope restricts

The text of a network scope has a field for the hosts and one for the ports; a star leaves its
dimension open, and anything else is meant as a restriction.  The reader drops the names and
ranges that it cannot read, and an empty list stands for everything, so a field of which nothing
is left opens its dimension.  `failsClosed_iff` says for which texts this does not happen.
-/
import Torvyn.Security.CapabilityText

namespace Torvyn.Security

/-! ## What a text mentions -/

/-- The hosts of a scope: what lies before the last colon, or the whole text. -/
def hostField (t : String) : String := ((rsplitOnce t ':').map Prod.fst).getD t

/-- The ports of a scope: what lies after the last colon. -/
def portField (t : String) : Option String := (rsplitOnce t ':').map Prod.snd

/-- The text restricts the hosts. -/
def MentionsHosts (t : String) : Prop := t ≠ "" ∧ hostField t ≠ "*"

/-- The text restricts the ports. -/
def MentionsPorts (t : String) : Prop := ∃ p, portField t = some p ∧ p ≠ "*"

/-- A capability text is refused, or read as a scope that restricts what its scope text
mentions and nothing else. -/
def FailsClosed (lc : Lowercase) (s t : String) : Prop :=
  ∀ c, Capability.fromStr lc s = .ok c → ∃ scope, c.netScope? = some scope ∧
    (scope.hosts ≠ [] ↔ MentionsHosts t) ∧ (scope.ports ≠ [] ↔ MentionsPorts t)

/-! ## Texts that are read as they are meant -/

/-- Some name of a comma separated list is not blank. -/
def NamesHost (field : String) : Prop := ∃ name ∈ split field ',', trim name ≠ ""

/-- The segment is a port, or two ports in order around a dash. -/
def ValidPort (seg : String) : Prop :=
  match splitOnce (trim seg) '-' with
  | none => ∃ port, parseU16 (trim seg) = some port
  | some (s, e) => ∃ start stop, parseU16 s = some start ∧ parseU16 e = some stop ∧ start ≤ stop

/-- The port field of a text is missing, or a star, or a port list with a valid entry; in the
first and the last case the host field must name a host, unless it is a star. -/
def Restricting (t : String) : Prop :=
  match portField t with
  | none => NamesHost (hostField t)
  | some p => p = "*" ∨ ((hostField t = "*" ∨ NamesHost (hostField t)) ∧ isPortSpec p = true ∧
      ∃ seg ∈ split p ',', ValidPort seg)

theorem hostTexts_ne_nil_iff {field : String} :
    hostTexts field ≠ [] ↔ field ≠ "*" ∧ NamesHost field := by
  have hfilter : ((split field ',').map trim).filter (· ≠ "") ≠ [] ↔ NamesHost field := by
    rw [Ne, List.filter_eq_nil_iff]
    simp only [List.forall_mem_map, decide_eq_true_eq]
    push Not
    rfl
  unfold hostTexts
  by_cases hstar : field = "*"
  · rw [if_pos (.inl hstar)]
    exact iff_of_false (fun h => h rfl) fun h => h.1 hstar
  · by_cases hempty : field = ""
    · subst hempty
      rw [if_pos (.inr rfl)]
      refine iff_of_false (fun h => h rfl) ?_
      rintro ⟨-, name, hname, hne⟩
      rw [show split "" ',' = [""] by decide, List.mem_singleton] at hname
      subst hname
      exact hne (by decide)
    · rw [if_neg (not_or.mpr ⟨hstar, hempty⟩), hfilter, and_iff_right hstar]

theorem parsePortRange_isSome_iff {seg : String} :
    (parsePortRange seg).isSome ↔ ValidPort seg := by
  unfold parsePortRange ValidPort
  by_cases hempty : trim seg = ""
  · have hsplit : splitOnce "" '-' = none := by decide
    have hparse : parseU16 "" = none := by decide
    simp [hempty, hsplit, hparse]
  · simp only [if_neg hempty]
    cases splitOnce (trim seg) '-' with
    | none => simp only [Option.isSome_map, Option.isSome_iff_exists]
    | some ends =>
        cases hstart : parseU16 ends.1 with
        | none => simp [hstart]
        | some start =>
            cases hstop : parseU16 ends.2 with
            | none => simp [hstart, hstop]
            | some stop =>
                by_cases hle : start ≤ stop
                · simp [hstart, hstop, hle, PortRange.new, Except.toOption]
                · simp [hstart, hstop, hle, PortRange.new, Except.toOption]

theorem parsePorts_ne_nil_iff {p : String} :
    parsePorts (some p) ≠ [] ↔ ∃ seg ∈ split p ',', ValidPort seg := by
  simp only [parsePorts, ne_eq, List.filterMap_eq_nil_iff, ← parsePortRange_isSome_iff,
    Option.isSome_iff_ne_none]
  push Not
  rfl

/-- A text with a colon names a host, when all of it is read as a host list. -/
theorem hostTexts_ne_nil_of_colon {t : String} (h : ':' ∈ t.toList) : hostTexts t ≠ [] := by
  rw [hostTexts_ne_nil_iff]
  obtain ⟨name, hname, hcolon⟩ := exists_mem_split (show ':' ≠ ',' by decide) h
  refine ⟨?_, name, hname, fun hempty => ?_⟩
  · rintro rfl
    exact absurd h (by decide)
  · have hcount := count_trim (show isWhitespace ':' = false by decide) name
    rw [hempty] at hcount
    exact absurd (List.count_pos_iff.mpr hcolon) (by rw [← hcount]; decide)

/-- What the reader does with a text that is not open. -/
theorem parseNetScopeStr_fields (lc : CharLowercase) {t : String}
    (hmentions : MentionsHosts t ∨ MentionsPorts t) :
    ((parseNetScopeStr lc.mapping (some t)).hosts ≠ [] ↔ hostTexts (splitScope t).1 ≠ []) ∧
      (parseNetScopeStr lc.mapping (some t)).ports = parsePorts (splitScope t).2 := by
  have hopen : t ≠ "*:*" := by
    rintro rfl
    have hfields : hostField "*:*" = "*" ∧ portField "*:*" = some "*" := by decide
    rcases hmentions with ⟨-, hhost⟩ | ⟨p, hp, hne⟩
    · exact hhost hfields.1
    · rw [hfields.2] at hp
      exact hne (Option.some.inj hp).symm
  rw [parseNetScopeStr_some hopen, hosts_parse]
  exact ⟨by rw [Ne, List.map_eq_nil_iff], rfl⟩

/-- **A text is read as it is meant exactly when its fields have something valid in them.** -/
theorem restricts_iff (lc : CharLowercase) {t : String}
    (hmentions : MentionsHosts t ∨ MentionsPorts t) :
    (((parseNetScopeStr lc.mapping (some t)).hosts ≠ [] ↔ MentionsHosts t) ∧
      ((parseNetScopeStr lc.mapping (some t)).ports ≠ [] ↔ MentionsPorts t)) ↔ Restricting t := by
  obtain ⟨hhosts, hports⟩ := parseNetScopeStr_fields lc hmentions
  rw [hhosts, hports]
  cases hsplit : rsplitOnce t ':' with
  | none =>
      have hfields : hostField t = t ∧ portField t = none := by
        simp [hostField, portField, hsplit]
      have hscope : splitScope t = (t, none) := by simp [splitScope, hsplit]
      have hnone : ¬ MentionsPorts t := by
        rintro ⟨p, hp, -⟩
        rw [hfields.2] at hp
        cases hp
      have hhost : MentionsHosts t := hmentions.resolve_right hnone
      have hstar : t ≠ "*" := hfields.1 ▸ hhost.2
      rw [hscope, Restricting, hfields.2, hfields.1, iff_true_right hhost, hostTexts_ne_nil_iff]
      simp only [parsePorts, ne_eq, not_true_eq_false, hnone, and_true, hstar, not_false_eq_true,
        true_and]
  | some fields =>
      obtain ⟨before, after⟩ := fields
      have hfields : hostField t = before ∧ portField t = some after := by
        simp [hostField, portField, hsplit]
      have hcolon : ':' ∈ t.toList := by
        by_contra hnot
        rw [rsplitOnce, if_neg hnot] at hsplit
        cases hsplit
      have hne : t ≠ "" := by
        rintro rfl
        cases hcolon
      have hhost : MentionsHosts t ↔ before ≠ "*" := by
        rw [MentionsHosts, hfields.1, and_iff_right hne]
      have hport : MentionsPorts t ↔ after ≠ "*" := by
        simp [MentionsPorts, hfields.2]
      rw [Restricting, hfields.2, hfields.1]
      by_cases hspec : isPortSpec after = true
      · -- the text after the last colon is taken for a port list
        have hscope : splitScope t = (before, some after) := by simp [splitScope, hsplit, hspec]
        have hstar : after ≠ "*" := by
          rintro rfl
          exact absurd hspec (by decide)
        rw [hscope, hhost, hport, parsePorts_ne_nil_iff, hostTexts_ne_nil_iff,
          iff_true_right hstar]
        simp only [hstar, hspec, false_or, true_and]
        refine and_congr_left fun _ => ?_
        by_cases hbefore : before = "*" <;> simp [hbefore]
      · -- all of the text is taken for a host list
        have hscope : splitScope t = (t, none) := by simp [splitScope, hsplit, hspec]
        rw [hscope, iff_true_left (hostTexts_ne_nil_of_colon hcolon), hhost, hport]
        simp only [parsePorts, ne_eq, not_true_eq_false, false_iff, not_not, hspec,
          Bool.false_eq_true, false_and, and_false, or_false]
        refine and_iff_right_of_imp fun hstar => ?_
        rw [← ne_eq, ← hhost]
        exact hmentions.resolve_right fun h => hport.mp h hstar

/-- **The readers of network capabilities fail closed exactly on the restricting texts.** -/
theorem failsClosed_iff (lc : CharLowercase) (action : String) (make : NetScope → Capability)
    (hmem : (action, make) ∈ networkActions) (t : String)
    (hmentions : MentionsHosts t ∨ MentionsPorts t) :
    FailsClosed lc.mapping ("network" ++ ":" ++ action ++ ":" ++ t) t ↔ Restricting t := by
  have haction : ':' ∉ action.toList := by
    unfold networkActions at hmem
    simp only [List.mem_cons, Prod.mk.injEq, List.not_mem_nil, or_false] at hmem
    rcases hmem with ⟨rfl, -⟩ | ⟨rfl, -⟩ | ⟨rfl, -⟩ | ⟨rfl, -⟩ <;> decide
  have hread : Capability.fromStr lc.mapping ("network" ++ ":" ++ action ++ ":" ++ t) =
      .ok (make (parseNetScopeStr lc.mapping (some t))) :=
    Capability.fromStr_network hmem (Capability.splitn_scoped (by decide) haction t)
  rw [← restricts_iff lc hmentions]
  unfold FailsClosed
  rw [hread]
  constructor
  · intro h
    obtain ⟨scope, hscope, hdimensions⟩ := h _ rfl
    rw [netScope?_make hmem] at hscope
    obtain rfl := Option.some.inj hscope
    exact hdimensions
  · intro h c hc
    obtain rfl := Except.ok.inj hc
    exact ⟨_, netScope?_make hmem _, h⟩

/-- A scope with a wildcard host and a port range. -/
theorem failsClosed_wildcard : FailsClosed asciiCharLowercase.mapping
    ("network" ++ ":" ++ "tcp-connect" ++ ":" ++ "*.b.com:80,443-444")
    "*.b.com:80,443-444" := by
  refine (failsClosed_iff asciiCharLowercase "tcp-connect" .tcpConnect (by simp [networkActions])
    "*.b.com:80,443-444" (.inl ⟨by decide, by decide⟩)).mpr ?_
  refine .inr ⟨.inr ⟨"*.b.com", by decide, by decide⟩, by decide, "80", by decide, ?_⟩
  exact ⟨80, by decide⟩

/-- **A port out of range opens all ports**: the grant for one port of one host is read as a
grant for every port of it. -/
theorem port_out_of_range_opens :
    MentionsPorts "example.com:99999" ∧
      Capability.fromStr asciiCharLowercase.mapping "network:tcp-connect:example.com:99999" =
        .ok (.tcpConnect ⟨["example.com"], []⟩) ∧
      ¬ FailsClosed asciiCharLowercase.mapping "network:tcp-connect:example.com:99999"
        "example.com:99999" := by
  have hmentions : MentionsPorts "example.com:99999" := ⟨"99999", by decide, by decide⟩
  have hread : Capability.fromStr asciiCharLowercase.mapping
      "network:tcp-connect:example.com:99999" = .ok (.tcpConnect ⟨["example.com"], []⟩) := by
    decide
  refine ⟨hmentions, hread, fun h => ?_⟩
  obtain ⟨scope, hscope, -, hports⟩ := h _ hread
  obtain rfl := Option.some.inj hscope
  exact hports.mpr hmentions rfl

end Torvyn.Security
