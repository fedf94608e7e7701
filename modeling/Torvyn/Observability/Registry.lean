/-
# The gauges of the metrics registry

`register_flow` and `deregister_flow` of `metrics/registry.rs`, called by any number of threads.
A call changes the map of flows in one step, under a lock, and the two gauges afterwards, each by
atomic steps of its own; a decrement saturates at zero, in a compare-and-swap loop.  What a
decrement takes from a gauge that holds too little is lost, and a late increment brings it back
for good.
-/
import Torvyn.Data.GuardedRun
import Torvyn.Data.KeyMap
import Torvyn.Types

namespace Torvyn.Observability

/-- Replacing an element of a list changes a sum over the list by the difference. -/
theorem sum_map_set {α : Type*} (f : α → ℕ) {l : List α} {i : ℕ} {a : α} (h : l[i]? = some a)
    (b : α) : ((l.set i b).map f).sum + f a = (l.map f).sum + f b := by
  induction l generalizing i with
  | nil => cases h
  | cons c l ih =>
    cases i with
    | zero =>
      cases h
      simp only [List.set_cons_zero, List.map_cons, List.sum_cons]
      omega
    | succ i =>
      have hrest := ih h
      simp only [List.set_cons_succ, List.map_cons, List.sum_cons]
      omega

/-! ## The registry -/

/-- What the registry keeps of a flow, apart from its counters. -/
structure FlowMetrics where
  flowId : FlowId
  components : List ComponentId
  deriving DecidableEq, Repr

/-- The gauges. -/
inductive GaugeName where
  | activeFlows
  | activeComponents
  deriving DecidableEq, Repr

/-- The errors of the registry.  The lock is never poisoned: nothing panics under it. -/
inductive RegistryError where
  | flowAlreadyRegistered (flowId : FlowId)
  | flowNotFound (flowId : FlowId)
  deriving DecidableEq, Repr

/-- A call, by what it does next. -/
inductive Call where
  | register (metrics : FlowMetrics)
  | deregister (flowId : FlowId)
  /-- `Gauge::increment` -/
  | increment (gauge : GaugeName) (metrics : FlowMetrics)
  /-- `Gauge::decrement`: the value is loaded -/
  | load (gauge : GaugeName) (metrics : FlowMetrics)
  /-- `Gauge::decrement`: the value last seen is exchanged for a smaller one -/
  | exchange (gauge : GaugeName) (metrics : FlowMetrics) (current : ℕ)
  | returned (result : Except RegistryError FlowMetrics)

/-- The registry with the calls that have been made. -/
structure MetricsRegistry where
  flows : KeyMap FlowId FlowMetrics
  gauge : GaugeName → ℕ
  calls : List Call

/-- By how much a flow changes a gauge. -/
def weight : GaugeName → FlowMetrics → ℕ
  | .activeFlows, _ => 1
  | .activeComponents, metrics => metrics.components.length

namespace MetricsRegistry

/-- `MetricsRegistry::new`. -/
def new : MetricsRegistry := ⟨∅, fun _ => 0, []⟩

/-- The call after an increment. -/
def afterIncrement (metrics : FlowMetrics) : GaugeName → Call
  | .activeFlows => .increment .activeComponents metrics
  | .activeComponents => .returned (.ok metrics)

/-- The call after a decrement. -/
def afterDecrement (metrics : FlowMetrics) : GaugeName → Call
  | .activeFlows => .load .activeComponents metrics
  | .activeComponents => .returned (.ok metrics)

/-- A call takes its next step.  A weak exchange may fail for no reason. -/
def advance (s : MetricsRegistry) (spurious : Bool) : Call → MetricsRegistry × Call
  | .register metrics =>
      if metrics.flowId ∈ s.flows then (s, .returned (.error (.flowAlreadyRegistered metrics.flowId)))
      else
        ({ s with flows := s.flows.insert metrics.flowId metrics },
          .increment .activeFlows metrics)
  | .deregister flowId =>
      match s.flows.lookup flowId with
      | none => (s, .returned (.error (.flowNotFound flowId)))
      | some metrics => ({ s with flows := s.flows.erase flowId }, .load .activeFlows metrics)
  | .increment gauge metrics =>
      ({ s with
        gauge := Function.update s.gauge gauge ((s.gauge gauge + weight gauge metrics) % 2 ^ 64) },
        afterIncrement metrics gauge)
  | .load gauge metrics => (s, .exchange gauge metrics (s.gauge gauge))
  | .exchange gauge metrics current =>
      if s.gauge gauge = current ∧ spurious = false then
        ({ s with gauge := Function.update s.gauge gauge (current - weight gauge metrics) },
          afterDecrement metrics gauge)
      else (s, .exchange gauge metrics (s.gauge gauge))
  | .returned result => (s, .returned result)

/-- What happens next: a thread makes a call, or a call takes a step. -/
inductive Action where
  | registerFlow (metrics : FlowMetrics)
  | deregisterFlow (flowId : FlowId)
  | advance (call : ℕ) (spurious : Bool)

/-- One action. -/
def step (s : MetricsRegistry) : Action → MetricsRegistry
  | .registerFlow metrics => { s with calls := s.calls ++ [.register metrics] }
  | .deregisterFlow flowId => { s with calls := s.calls ++ [.deregister flowId] }
  | .advance i spurious =>
      match s.calls[i]? with
      | none => s
      | some call =>
          let (s', call') := s.advance spurious call
          { s' with calls := s.calls.set i call' }

/-- A sequence of actions. -/
def run (actions : List Action) : MetricsRegistry := actions.foldl step new

/-! ## Settled gauges -/

/-- No call is in progress. -/
def Quiescent (s : MetricsRegistry) : Prop := ∀ call ∈ s.calls, ∃ result, call = .returned result

/-- The gauges agree with the map. -/
structure Settled (s : MetricsRegistry) : Prop where
  flows : s.gauge .activeFlows = s.flows.keys.length
  components : s.gauge .activeComponents =
    (s.flows.entries.map fun e => e.2.components.length).sum

/-- The action subtracts from a gauge more than it holds. -/
def Short (s : MetricsRegistry) : Action → Prop
  | .advance i spurious => ∃ gauge metrics, spurious = false ∧
      s.calls[i]? = some (.exchange gauge metrics (s.gauge gauge)) ∧
      s.gauge gauge < weight gauge metrics
  | _ => False

/-- The action carries a gauge past its range. -/
def Overflows (s : MetricsRegistry) : Action → Prop
  | .advance i _ => ∃ gauge metrics, s.calls[i]? = some (.increment gauge metrics) ∧
      2 ^ 64 ≤ s.gauge gauge + weight gauge metrics
  | _ => False

/-! ## The balance of a gauge -/

/-- The gauges that a call has still to change when it comes to change one of them. -/
def Ahead (gauge g : GaugeName) : Prop := gauge = .activeFlows ∨ g = .activeComponents

instance (gauge g : GaugeName) : Decidable (Ahead gauge g) := inferInstanceAs (Decidable (_ ∨ _))

/-- What a call has still to add to a gauge. -/
def toAdd (g : GaugeName) : Call → ℕ
  | .increment gauge metrics => if Ahead gauge g then weight g metrics else 0
  | _ => 0

/-- What a call has still to take from a gauge. -/
def toTake (g : GaugeName) : Call → ℕ
  | .load gauge metrics => if Ahead gauge g then weight g metrics else 0
  | .exchange gauge metrics _ => if Ahead gauge g then weight g metrics else 0
  | _ => 0

/-- What the gauge would read if every registered flow were counted. -/
def registered (s : MetricsRegistry) (g : GaugeName) : ℕ :=
  (s.flows.entries.map fun e => weight g e.2).sum

/-- By how much a call that takes its next step falls short of what it has to take. -/
def shortfall (s : MetricsRegistry) (g : GaugeName) (spurious : Bool) : Call → ℕ
  | .exchange gauge metrics current =>
      if gauge = g ∧ s.gauge gauge = current ∧ spurious = false then weight g metrics - s.gauge g
      else 0
  | _ => 0

/-- By how much an action falls short. -/
def shortfallOf (s : MetricsRegistry) (g : GaugeName) : Action → ℕ
  | .advance i spurious => (s.calls[i]?.map (s.shortfall g spurious)).getD 0
  | _ => 0

/-- What the decrements of a run could not take from a gauge. -/
def lost (g : GaugeName) (s : MetricsRegistry) : List Action → ℕ
  | [] => 0
  | action :: actions => s.shortfallOf g action + lost g (s.step action) actions

theorem toAdd_afterIncrement (g gauge : GaugeName) (metrics : FlowMetrics) :
    toAdd g (afterIncrement metrics gauge) + (if gauge = g then weight g metrics else 0) =
      toAdd g (.increment gauge metrics) := by
  cases gauge <;> cases g <;> simp [toAdd, afterIncrement, Ahead]

theorem toTake_afterIncrement (g gauge : GaugeName) (metrics : FlowMetrics) :
    toTake g (afterIncrement metrics gauge) = 0 := by
  cases gauge <;> rfl

theorem toTake_afterDecrement (g gauge : GaugeName) (metrics : FlowMetrics) (current : ℕ) :
    toTake g (afterDecrement metrics gauge) + (if gauge = g then weight g metrics else 0) =
      toTake g (.exchange gauge metrics current) := by
  cases gauge <;> cases g <;> simp [toTake, afterDecrement, Ahead]

theorem toAdd_afterDecrement (g gauge : GaugeName) (metrics : FlowMetrics) :
    toAdd g (afterDecrement metrics gauge) = 0 := by
  cases gauge <;> rfl

/-- **A step of a call keeps the balance**, but for what it fails to take. -/
theorem advance_balance (s : MetricsRegistry) (g : GaugeName) (spurious : Bool) (call : Call)
    (hrange : ∀ gauge metrics, call = .increment gauge metrics →
      s.gauge gauge + weight gauge metrics < 2 ^ 64) :
    (s.advance spurious call).1.gauge g + toAdd g (s.advance spurious call).2 +
        (s.registered g + toTake g call) =
      s.gauge g + toAdd g call + s.shortfall g spurious call +
        ((s.advance spurious call).1.registered g + toTake g (s.advance spurious call).2) := by
  cases call with
  | register metrics =>
    by_cases hmem : metrics.flowId ∈ s.flows
    · simp [advance, if_pos hmem, toAdd, toTake, shortfall]
    · have hsum : registered { s with flows := s.flows.insert metrics.flowId metrics } g =
          weight g metrics + s.registered g := by
        rw [registered, AList.entries_insert_of_notMem hmem, List.map_cons, List.sum_cons]
        rfl
      simp only [advance, if_neg hmem, hsum, toAdd, toTake, shortfall, Ahead, true_or, if_true]
      omega
  | deregister flowId =>
    cases hlookup : s.flows.lookup flowId with
    | none => simp [advance, hlookup, toAdd, toTake, shortfall]
    | some metrics =>
      have hsum : registered { s with flows := s.flows.erase flowId } g + weight g metrics =
          s.registered g := KeyMap.sum_entries_erase hlookup fun e => weight g e.2
      simp only [advance, hlookup, toAdd, toTake, shortfall, Ahead, true_or, if_true]
      omega
  | increment gauge metrics =>
    have hadd := toAdd_afterIncrement g gauge metrics
    have hmod : (s.gauge gauge + weight gauge metrics) % 2 ^ 64 =
        s.gauge gauge + weight gauge metrics := Nat.mod_eq_of_lt (hrange gauge metrics rfl)
    have htake : toTake g (.increment gauge metrics) = 0 := rfl
    simp only [advance, hmod, toTake_afterIncrement, htake, shortfall, registered]
    by_cases hg : gauge = g
    · subst hg
      rw [if_pos rfl] at hadd
      rw [Function.update_self]
      omega
    · rw [if_neg hg] at hadd
      rw [Function.update_of_ne (Ne.symm hg)]
      omega
  | load gauge metrics => simp [advance, toAdd, toTake, shortfall]
  | exchange gauge metrics current =>
    by_cases hexchange : s.gauge gauge = current ∧ spurious = false
    · have htake := toTake_afterDecrement g gauge metrics current
      have hadd : toAdd g (.exchange gauge metrics current) = 0 := rfl
      simp only [advance, if_pos hexchange, toAdd_afterDecrement, hadd, shortfall, registered,
        and_iff_left hexchange]
      obtain ⟨rfl, -⟩ := hexchange
      by_cases hg : gauge = g
      · subst hg
        rw [if_pos rfl] at htake
        rw [if_pos rfl, Function.update_self]
        omega
      · rw [if_neg hg] at htake
        rw [if_neg hg, Function.update_of_ne (Ne.symm hg)]
        omega
    · simp [advance, toAdd, toTake, shortfall, hexchange]
  | returned result => simp [advance, toAdd, toTake, shortfall]

/-- What the calls in progress have still to add to a gauge. -/
def pendingAdd (s : MetricsRegistry) (g : GaugeName) : ℕ := (s.calls.map (toAdd g)).sum

/-- What the calls in progress have still to take from a gauge. -/
def pendingTake (s : MetricsRegistry) (g : GaugeName) : ℕ := (s.calls.map (toTake g)).sum

/-- The balance of a gauge with the map, both taken as if the calls in progress were done. -/
theorem step_balance (s : MetricsRegistry) (g : GaugeName) (action : Action)
    (hrange : ¬ s.Overflows action) :
    (s.step action).gauge g + (s.step action).pendingAdd g + (s.registered g + s.pendingTake g) =
      s.gauge g + s.pendingAdd g + s.shortfallOf g action +
        ((s.step action).registered g + (s.step action).pendingTake g) := by
  cases action with
  | registerFlow metrics =>
    simp [step, pendingAdd, pendingTake, registered, shortfallOf, toAdd, toTake]
  | deregisterFlow flowId =>
    simp [step, pendingAdd, pendingTake, registered, shortfallOf, toAdd, toTake]
  | advance i spurious =>
    cases hcall : s.calls[i]? with
    | none => simp [step, hcall, shortfallOf]
    | some call =>
      have hadvance := s.advance_balance g spurious call fun gauge metrics h =>
        Nat.lt_of_not_le fun hle => hrange ⟨gauge, metrics, h ▸ hcall, hle⟩
      have hadd := sum_map_set (toAdd g) hcall (s.advance spurious call).2
      have htake := sum_map_set (toTake g) hcall (s.advance spurious call).2
      simp only [step, hcall, shortfallOf, Option.map_some, Option.getD_some, pendingAdd,
        pendingTake]
      simp only [registered] at hadvance ⊢
      omega

/-- **A run keeps the balance**, but for what its decrements fail to take. -/
theorem run_balance (s : MetricsRegistry) (g : GaugeName) (actions : List Action)
    (hrange : Guarded step (fun s action => ¬ s.Overflows action) s actions) :
    (actions.foldl step s).gauge g + (actions.foldl step s).pendingAdd g +
        (s.registered g + s.pendingTake g) =
      s.gauge g + s.pendingAdd g + lost g s actions +
        ((actions.foldl step s).registered g + (actions.foldl step s).pendingTake g) := by
  induction actions generalizing s with
  | nil => simp only [List.foldl_nil, lost]; omega
  | cons action actions ih =>
    have hstep := s.step_balance g action hrange.1
    have hrest := ih (s.step action) hrange.2
    simp only [List.foldl_cons, lost]
    omega

/-- Once no call is in progress, a gauge is too high by what was lost. -/
theorem gauge_run (actions : List Action) (g : GaugeName)
    (hrange : Guarded step (fun s action => ¬ s.Overflows action) new actions)
    (hquiescent : (run actions).Quiescent) :
    (run actions).gauge g = (run actions).registered g + lost g new actions := by
  have hbalance := run_balance new g actions hrange
  have hadd : (run actions).pendingAdd g = 0 := by
    apply List.sum_eq_zero
    rintro n hn
    obtain ⟨call, hcall, rfl⟩ := List.mem_map.mp hn
    obtain ⟨result, rfl⟩ := hquiescent call hcall
    rfl
  have htake : (run actions).pendingTake g = 0 := by
    apply List.sum_eq_zero
    rintro n hn
    obtain ⟨call, hcall, rfl⟩ := List.mem_map.mp hn
    obtain ⟨result, rfl⟩ := hquiescent call hcall
    rfl
  have hnew : new.gauge g + new.pendingAdd g = new.registered g + new.pendingTake g := rfl
  simp only [run] at hadd htake ⊢
  omega

/-- An action subtracts too much exactly when it falls short on one of the gauges. -/
theorem short_iff (s : MetricsRegistry) (action : Action) :
    s.Short action ↔ ∃ g, s.shortfallOf g action ≠ 0 := by
  cases action with
  | registerFlow metrics => simp [Short, shortfallOf]
  | deregisterFlow flowId => simp [Short, shortfallOf]
  | advance i spurious =>
    constructor
    · rintro ⟨gauge, metrics, rfl, hcall, hlt⟩
      refine ⟨gauge, ?_⟩
      simp only [shortfallOf, hcall, Option.map_some, Option.getD_some, shortfall, and_self, if_true]
      omega
    · rintro ⟨g, hne⟩
      cases hcall : s.calls[i]? with
      | none => simp [shortfallOf, hcall] at hne
      | some call =>
        simp only [shortfallOf, hcall, Option.map_some, Option.getD_some] at hne
        cases call with
        | exchange gauge metrics current =>
          simp only [shortfall, ne_eq, ite_eq_right_iff, Classical.not_imp] at hne
          obtain ⟨⟨rfl, rfl, rfl⟩, hne⟩ := hne
          exact ⟨gauge, metrics, rfl, hcall, by omega⟩
        | _ => exact absurd rfl hne

/-- Nothing is lost exactly when no action subtracts too much. -/
theorem lost_eq_zero_iff (s : MetricsRegistry) (actions : List Action) :
    (∀ g, lost g s actions = 0) ↔ Guarded step (fun s action => ¬ s.Short action) s actions := by
  induction actions generalizing s with
  | nil => exact ⟨fun _ => trivial, fun _ _ => rfl⟩
  | cons action actions ih =>
    simp only [lost, Nat.add_eq_zero_iff, forall_and, Guarded, ih, short_iff, not_exists, not_not]

theorem registered_activeFlows (s : MetricsRegistry) :
    s.registered .activeFlows = s.flows.keys.length := by
  simp [registered, weight, AList.keys, List.keys]

/-- The gauges are settled when neither is off the map. -/
theorem settled_iff (s : MetricsRegistry) : s.Settled ↔ ∀ g, s.gauge g = s.registered g := by
  constructor
  · rintro ⟨hflows, hcomponents⟩ (_ | _)
    · rw [hflows, registered_activeFlows]
    · exact hcomponents
  · intro h
    exact ⟨(h .activeFlows).trans s.registered_activeFlows, h .activeComponents⟩

/-- **When the gauges settle.**  Once no call is in progress they agree with the map, provided
that no decrement ever took more than its gauge held and no increment passed the range; short of
that range, exactly then. -/
theorem settled_iff_never_short (actions : List Action) :
    (Guarded step (fun s action => ¬ s.Short action ∧ ¬ s.Overflows action) new actions →
      (run actions).Quiescent → (run actions).Settled) ∧
    (Guarded step (fun s action => ¬ s.Overflows action) new actions →
      (run actions).Quiescent →
        ((run actions).Settled ↔ Guarded step (fun s action => ¬ s.Short action) new actions)) := by
  have hiff : Guarded step (fun s action => ¬ s.Overflows action) new actions →
      (run actions).Quiescent →
        ((run actions).Settled ↔ Guarded step (fun s action => ¬ s.Short action) new actions) := by
    intro hrange hquiescent
    rw [settled_iff, ← lost_eq_zero_iff]
    apply forall_congr'
    intro g
    rw [gauge_run actions g hrange hquiescent]
    omega
  refine ⟨fun hguard hquiescent => ?_, hiff⟩
  have hrange := hguard.mono fun _ _ h => h.2
  exact (hiff hrange hquiescent).mpr (hguard.mono fun _ _ h => h.1)

/-- A flow of one component. -/
def exampleFlow : FlowMetrics := ⟨⟨1⟩, [⟨1⟩]⟩

/-- A flow is put into the map and taken out again before its registration has counted it. -/
def overtaken : List Action :=
  [.registerFlow exampleFlow, .deregisterFlow exampleFlow.flowId, .advance 0 false] ++
    List.replicate 5 (.advance 1 false) ++ [.advance 0 false, .advance 0 false]

/-- A gauge does not settle: the decrements find nothing to take, and the increments that follow
leave a flow and a component that no longer exist. -/
theorem gauges_count_deregistered_flow :
    (run overtaken).Quiescent ∧ (run overtaken).flows.keys = [] ∧
      (run overtaken).gauge .activeFlows = 1 ∧ (run overtaken).gauge .activeComponents = 1 ∧
      ¬ (run overtaken).Settled := by
  have hcalls : (run overtaken).calls =
      [.returned (.ok exampleFlow), .returned (.ok exampleFlow)] := rfl
  have hflows : (run overtaken).gauge .activeFlows = 1 := by decide
  refine ⟨?_, rfl, hflows, by decide, fun h => ?_⟩
  · intro call hcall
    rw [hcalls] at hcall
    exact ⟨.ok exampleFlow, by simpa using hcall⟩
  · have hsettled := h.flows
    rw [hflows] at hsettled
    cases hsettled

end MetricsRegistry

end Torvyn.Observability
