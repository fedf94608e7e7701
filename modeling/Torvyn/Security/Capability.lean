/-
# The capability taxonomy

Scopes and capabilities of `torvyn-security/src/capability.rs`: path scopes, port
ranges, network scopes, pool scopes, the `Capability` enum and the check
`satisfies` that decides whether a grant covers a request.
-/
import Torvyn.Text

namespace Torvyn.Security

/-! ## Path scopes -/

/-- A filesystem subtree, named by its root. -/
structure PathScope where
  root : String
  deriving DecidableEq, Repr

namespace PathScope

/-- The loop of `PathScope::new`, on the reversed path: a slash at the end is
popped while another character remains. -/
def popSlashes : List Char → List Char
  | '/' :: c :: cs => popSlashes (c :: cs)
  | cs => cs

/-- `PathScope::new`: the root without trailing slashes, `/` itself excepted. -/
def new (root : String) : PathScope :=
  ⟨String.ofList (popSlashes root.toList.reverse).reverse⟩

/-- Whether `path` is the root or lies below it. -/
def containsPath (scope : PathScope) (path : String) : Bool :=
  path == scope.root || scope.root == "/" ||
    (startsWith path scope.root && path.toList[scope.root.length]? == some '/')

/-- Whether the scope contains every path of another scope. -/
def containsScope (scope other : PathScope) : Bool :=
  scope.containsPath other.root

/-- A scope is displayed as its root. -/
def display (scope : PathScope) : String := scope.root

end PathScope

/-! ## Port ranges -/

/-- A contiguous range of ports; the constructors of the source refuse a start
above the end. -/
structure PortRange where
  start : UInt16
  stop : UInt16
  start_le_stop : start ≤ stop
  deriving DecidableEq

namespace PortRange

/-- `PortRange::new`; the error carries the message of the source. -/
def new (start stop : UInt16) : Except String PortRange :=
  if h : start ≤ stop then .ok ⟨start, stop, h⟩
  else .error s!"invalid port range: start ({start}) > end ({stop})"

/-- The range of one port. -/
def single (port : UInt16) : PortRange := ⟨port, port, UInt16.le_refl port⟩

/-- Whether a port lies in the range. -/
def contains (r : PortRange) (port : UInt16) : Bool :=
  decide (port ≥ r.start) && decide (port ≤ r.stop)

/-- Whether the range covers another range. -/
def containsRange (r other : PortRange) : Bool :=
  decide (r.start ≤ other.start) && decide (r.stop ≥ other.stop)

/-- A range of one port is displayed as that port. -/
def display (r : PortRange) : String :=
  if r.start = r.stop then s!"{r.start}" else s!"{r.start}-{r.stop}"

/-- A range contains its own first port. -/
theorem contains_start (r : PortRange) : r.contains r.start = true := by
  simp [contains, r.start_le_stop]

/-- Covering a range means containing each of its ports. -/
theorem contains_of_containsRange {r other : PortRange} {port : UInt16}
    (hr : r.containsRange other = true) (hp : other.contains port = true) :
    r.contains port = true := by
  simp only [containsRange, contains, Bool.and_eq_true, decide_eq_true_eq] at hr hp ⊢
  exact ⟨UInt16.le_trans hr.1 hp.1, UInt16.le_trans hp.2 hr.2⟩

end PortRange

/-! ## Network scopes -/

/-- Allowed hosts and ports.  An empty list leaves its dimension unrestricted. -/
structure NetScope where
  hosts : List String
  ports : List PortRange
  deriving DecidableEq

/-- The closure of `matches_host`: a pattern `*.suffix` matches the suffix itself
and every name below it, any other pattern only itself. -/
def hostMatches (pattern hostnameLower : String) : Bool :=
  match stripPrefix pattern "*." with
  | some suffix => hostnameLower == suffix || endsWith hostnameLower ("." ++ suffix)
  | none => hostnameLower == pattern

/-- The closure of `contains_scope`: whether host pattern `sh` covers the host
pattern `oh`. -/
def hostCovers (sh oh : String) : Bool :=
  if sh == oh then true
  else
    match stripPrefix sh "*." with
    | some suffix =>
        match stripPrefix oh "*." with
        | some otherSuffix => otherSuffix == suffix || endsWith otherSuffix ("." ++ suffix)
        | none => oh == suffix || endsWith oh ("." ++ suffix)
    | none => false

namespace NetScope

/-- `NetScope::new`: host patterns are stored in lowercase. -/
def new (lc : Lowercase) (hosts : List String) (ports : List PortRange) : NetScope :=
  ⟨hosts.map lc.toLowercase, ports⟩

/-- The scope without restrictions. -/
def unrestricted : NetScope := ⟨[], []⟩

/-- Whether neither dimension is restricted. -/
def isUnrestricted (s : NetScope) : Bool := s.hosts.isEmpty && s.ports.isEmpty

/-- Whether a hostname matches the host patterns. -/
def matchesHost (lc : Lowercase) (s : NetScope) (hostname : String) : Bool :=
  if s.hosts.isEmpty then true
  else s.hosts.any fun pattern => hostMatches pattern (lc.toLowercase hostname)

/-- Whether a port matches the port ranges. -/
def matchesPort (s : NetScope) (port : UInt16) : Bool :=
  if s.ports.isEmpty then true else s.ports.any fun r => r.contains port

/-- `contains_scope`: every host pattern and every port range of `other` must be
covered by one of `self`. -/
def containsScope (self other : NetScope) : Bool :=
  if self.isUnrestricted then true
  else if other.isUnrestricted then false
  else
    let hostsOk := other.hosts.all fun oh => self.hosts.any fun sh => hostCovers sh oh
    let portsOk :=
      if self.ports.isEmpty then true
      else if other.ports.isEmpty then false
      else other.ports.all fun op => self.ports.any fun sp => sp.containsRange op
    hostsOk && portsOk

/-- Hosts and ports are displayed as comma separated lists, an open dimension as a star. -/
def display (s : NetScope) : String :=
  if s.isUnrestricted then "*:*"
  else
    let hosts := if s.hosts.isEmpty then "*" else ",".intercalate s.hosts
    let ports := if s.ports.isEmpty then "*" else ",".intercalate (s.ports.map PortRange.display)
    s!"{hosts}:{ports}"

end NetScope

/-! ## Capabilities -/

/-- A named resource pool. -/
structure PoolScope where
  poolName : String
  deriving DecidableEq, Repr

/-- A permission that a component may request or be granted. -/
inductive Capability where
  | filesystemRead (path : PathScope)
  | filesystemWrite (path : PathScope)
  | tcpConnect (scope : NetScope)
  | tcpListen (scope : NetScope)
  | udpAccess (scope : NetScope)
  | httpOutgoing (scope : NetScope)
  | wallClock
  | monotonicClock
  | cryptoRandom
  | insecureRandom
  | environment
  | stdout
  | stderr
  | resourceAllocate (pool : Option PoolScope)
  | poolAccess (pool : PoolScope)
  | emitBackpressure
  | inspectFlowMeta
  | runtimeInspect
  | customMetrics
  deriving DecidableEq

namespace Capability

/-- Whether a grant covers a request: the same kind, and a scope that contains
the requested one. -/
def satisfies (grant request : Capability) : Bool :=
  match grant, request with
  | .filesystemRead g, .filesystemRead r => g.containsScope r
  | .filesystemWrite g, .filesystemWrite r => g.containsScope r
  | .tcpConnect g, .tcpConnect r => g.containsScope r
  | .tcpListen g, .tcpListen r => g.containsScope r
  | .udpAccess g, .udpAccess r => g.containsScope r
  | .httpOutgoing g, .httpOutgoing r => g.containsScope r
  | .wallClock, .wallClock => true
  | .monotonicClock, .monotonicClock => true
  | .cryptoRandom, .cryptoRandom => true
  | .insecureRandom, .insecureRandom => true
  | .environment, .environment => true
  | .stdout, .stdout => true
  | .stderr, .stderr => true
  | .resourceAllocate g, .resourceAllocate r =>
      match g, r with
      | none, _ => true
      | some _, none => false
      | some g, some r => g.poolName == r.poolName
  | .poolAccess g, .poolAccess r => g.poolName == r.poolName
  | .emitBackpressure, .emitBackpressure => true
  | .inspectFlowMeta, .inspectFlowMeta => true
  | .runtimeInspect, .runtimeInspect => true
  | .customMetrics, .customMetrics => true
  | _, _ => false

/-- The network scope of a network capability. -/
def netScope? : Capability → Option NetScope
  | .tcpConnect s => some s
  | .tcpListen s => some s
  | .udpAccess s => some s
  | .httpOutgoing s => some s
  | _ => none

/-- The path scope of a filesystem capability. -/
def pathScope? : Capability → Option PathScope
  | .filesystemRead p => some p
  | .filesystemWrite p => some p
  | _ => none

/-- The effective capability of a grant and a request: the request where the grant
covers it. -/
def intersect (grant request : Capability) : Option Capability :=
  match grant, request with
  | .filesystemRead g, .filesystemRead r =>
      if g.containsScope r then some (.filesystemRead r) else none
  | .filesystemWrite g, .filesystemWrite r =>
      if g.containsScope r then some (.filesystemWrite r) else none
  | .tcpConnect g, .tcpConnect r => if g.containsScope r then some (.tcpConnect r) else none
  | .tcpListen g, .tcpListen r => if g.containsScope r then some (.tcpListen r) else none
  | .udpAccess g, .udpAccess r => if g.containsScope r then some (.udpAccess r) else none
  | .httpOutgoing g, .httpOutgoing r =>
      if g.containsScope r then some (.httpOutgoing r) else none
  | grant, request => if grant.satisfies request then some request else none

/-- Whether two capabilities are of one kind: `std::mem::discriminant` agrees. -/
def sameKind (self other : Capability) : Bool := self.ctorIdx == other.ctorIdx

/-- The canonical text of a capability. -/
def display : Capability → String
  | .filesystemRead path => s!"filesystem:read:{path.display}"
  | .filesystemWrite path => s!"filesystem:write:{path.display}"
  | .tcpConnect scope => s!"network:tcp-connect:{scope.display}"
  | .tcpListen scope => s!"network:tcp-listen:{scope.display}"
  | .udpAccess scope => s!"network:udp:{scope.display}"
  | .httpOutgoing scope => s!"network:http-outgoing:{scope.display}"
  | .wallClock => "clock:wall"
  | .monotonicClock => "clock:monotonic"
  | .cryptoRandom => "random:crypto"
  | .insecureRandom => "random:insecure"
  | .environment => "environment:read"
  | .stdout => "stdio:stdout"
  | .stderr => "stdio:stderr"
  | .resourceAllocate (some p) => s!"torvyn:resource-allocate:{p.poolName}"
  | .resourceAllocate none => "torvyn:resource-allocate"
  | .poolAccess pool => s!"torvyn:pool-access:{pool.poolName}"
  | .emitBackpressure => "torvyn:emit-backpressure"
  | .inspectFlowMeta => "torvyn:inspect-flow-meta"
  | .runtimeInspect => "torvyn:runtime-inspect"
  | .customMetrics => "torvyn:custom-metrics"

/-- An intersection is the request, and there is one exactly when the grant covers it. -/
theorem intersect_eq (grant request : Capability) :
    grant.intersect request = if grant.satisfies request then some request else none := by
  cases grant <;> cases request <;> rfl

end Capability

end Torvyn.Security
