/-
# How long outcomes are retained

The outcomes of flows that have ended are kept under their ids, and when there are too many the
one with the lowest id goes.  That is the one retained the longest ago if flows end in the order
of their ids.  A flow that outlives those after it has the lowest id of all when it ends, and
its outcome goes first: even at once.

The order in which outcomes have been retained is read off the record of the coordinator.
-/
import Torvyn.Reactor.Tasks

namespace Torvyn.Reactor

open Coordinator

/-! ## Taking a flow out -/

/-- A finished flow is about to be taken out. -/
structure Reap where
  before : Coordinator
  hash : HashOrder
  flowId : FlowId
  entry : FlowEntry
  result : Except String FlowState
  live : before.flows.lookup flowId = some entry
  finished : entry.task.result = some result

namespace Reap

/-- How the flow has ended. -/
def outcome (reap : Reap) : FlowOutcome := reap.entry.task.outcomeOf reap.result

/-- The coordinator when the flow has been taken out. -/
def after (reap : Reap) : Coordinator := reap.before.reapFlow reap.hash reap.flowId

end Reap

/-- The reaps of a pass over some flows. -/
def reapsFrom (hash : HashOrder) : Coordinator → List FlowId → List Reap
  | _, [] => []
  | c, flowId :: ids =>
      (match hlive : c.flows.lookup flowId with
        | none => []
        | some entry =>
            match hresult : entry.task.result with
            | none => []
            | some result => [⟨c, hash, flowId, entry, result, hlive, hresult⟩]) ++
        reapsFrom hash (c.reapFlow hash flowId) ids

/-- The reaps of an action. -/
def reapsOf (c : Coordinator) : Action → List Reap
  | .command command order hash =>
      match c.handleCommand command with
      | some (_, c) => reapsFrom hash c (c.completedIds order)
      | none => []
  | .pass order hash => reapsFrom hash c (c.completedIds order)
  | _ => []

/-- The reaps of a sequence of actions. -/
def reapsOfRun : Coordinator → List Action → List Reap
  | _, [] => []
  | c, action :: actions =>
      reapsOf c action ++
        match c.step action with
        | some c => reapsOfRun c actions
        | none => []

/-- The reaps of a run. -/
def CoordinatorRun.reaps (ρ : CoordinatorRun) : List Reap :=
  reapsOfRun (.new ρ.resources) ρ.actions

/-! ## The order of retention -/

/-- What an event does to the outcomes that are kept. -/
def retain (order : List FlowId) : CoordinatorEvent → List FlowId
  | .reaped flowId _ => order ++ [flowId]
  | .evicted flowId => order.erase flowId
  | .cancelCalled _ _ => order

/-- The flows whose outcomes are kept, in the order in which these have been retained. -/
def retentionOrder (log : List CoordinatorEvent) : List FlowId := log.foldl retain []

theorem retentionOrder_append (log more : List CoordinatorEvent) :
    retentionOrder (log ++ more) = more.foldl retain (retentionOrder log) := List.foldl_append

namespace Reap

/-- The outcome of the flow can be asked for, not too many are kept, and one that is gone was
retained the longest ago. -/
structure RetainsWell (reap : Reap) : Prop where
  returned : reap.after.queryFlowOutcome reap.flowId = some reap.outcome
  bounded : reap.after.outcomes.keys.length ≤ maxRetainedOutcomes
  oldest : ∀ flowId, flowId = reap.flowId ∨ flowId ∈ reap.before.outcomes →
    flowId ∉ reap.after.outcomes →
    (retentionOrder reap.before.log ++ [reap.flowId]).head? = some flowId

/-- There is room for one more outcome, or the lowest id that is kept belongs to the outcome
retained the longest ago and is lower than that of the flow. -/
def InOrder (reap : Reap) : Prop :=
  reap.before.outcomes.keys.length < maxRetainedOutcomes ∨
    ∃ oldest, leastKey reap.before.outcomes = some oldest ∧
      (retentionOrder reap.before.log).head? = some oldest ∧ oldest.id < reap.flowId.id

end Reap

/-! ## Eviction -/

/-- The first key is the least. -/
theorem leastKey_eq_some {outcomes : KeyMap FlowId FlowOutcome} {flowId : FlowId} :
    leastKey outcomes = some flowId ↔
      flowId ∈ outcomes ∧ ∀ flowId' ∈ outcomes, flowId.id ≤ flowId'.id := by
  unfold leastKey
  rw [Option.map_eq_some_iff]
  constructor
  · rintro ⟨n, hmin, rfl⟩
    obtain ⟨hmem, hle⟩ := List.min?_eq_some_iff.mp hmin
    obtain ⟨⟨_⟩, hkey, rfl⟩ := List.mem_map.mp hmem
    exact ⟨AList.mem_keys.mpr hkey, fun flowId' hmem' =>
      hle _ (List.mem_map_of_mem (AList.mem_keys.mp hmem'))⟩
  · rintro ⟨hmem, hle⟩
    refine ⟨flowId.id, List.min?_eq_some_iff.mpr ⟨List.mem_map_of_mem (AList.mem_keys.mp hmem),
      fun n hn => ?_⟩, rfl⟩
    obtain ⟨flowId', hkey, rfl⟩ := List.mem_map.mp hn
    exact hle flowId' (AList.mem_keys.mpr hkey)

theorem exists_leastKey {outcomes : KeyMap FlowId FlowOutcome} (h : outcomes.keys ≠ []) :
    ∃ flowId, leastKey outcomes = some flowId := by
  unfold leastKey
  cases hmin : (outcomes.keys.map FlowId.id).min? with
  | none => exact absurd (List.map_eq_nil_iff.mp (List.min?_eq_none_iff.mp hmin)) h
  | some n => exact ⟨⟨n⟩, rfl⟩

namespace Coordinator

theorem evict_of_le (n : ℕ) {c : Coordinator}
    (h : c.outcomes.keys.length ≤ maxRetainedOutcomes) : evict n c = c := by
  cases n with
  | zero => rfl
  | succ n => exact if_neg (Nat.not_lt.mpr h)

/-- One outcome too many: the one with the least key goes. -/
theorem evict_of_succ (n : ℕ) {c : Coordinator}
    (h : c.outcomes.keys.length = maxRetainedOutcomes + 1) {oldest : FlowId}
    (holdest : leastKey c.outcomes = some oldest) :
    evict (n + 1) c = { c with outcomes := c.outcomes.erase oldest }.record [.evicted oldest] := by
  have hmem := AList.mem_keys.mp (leastKey_eq_some.mp holdest).1
  have hlength : (c.outcomes.erase oldest).keys.length ≤ maxRetainedOutcomes := by
    rw [AList.keys_erase, List.length_erase_of_mem hmem, h]
    exact Nat.le_refl _
  unfold evict
  rw [if_pos (h ▸ Nat.lt_succ_self _), holdest]
  exact evict_of_le n hlength

variable {c : Coordinator}

/-- What has been retained and not evicted is kept, and there is not too much of it. -/
structure Retaining (c : Coordinator) : Prop where
  bounded : c.outcomes.keys.length ≤ maxRetainedOutcomes
  order : (retentionOrder c.log).Perm c.outcomes.keys

theorem retaining_new (resources : ResourceManager) : Retaining (new resources) :=
  ⟨Nat.zero_le _, .refl _⟩

/-- The keys after one more outcome. -/
theorem length_insert {outcomes : KeyMap FlowId FlowOutcome} {flowId : FlowId}
    (hfresh : flowId ∉ outcomes) (outcome : FlowOutcome) :
    (outcomes.insert flowId outcome).keys = flowId :: outcomes.keys := by
  rw [AList.keys_insert, List.erase_of_not_mem (fun hmem => hfresh (AList.mem_keys.mpr hmem))]

/-- **Retaining an outcome**: where there is room it is kept beside the others, and else the
least key goes. -/
theorem take_cases (hretaining : Retaining c) {flowId : FlowId} (hfresh : flowId ∉ c.outcomes)
    (task : FlowTask) (outcome : FlowOutcome) :
    (c.outcomes.keys.length < maxRetainedOutcomes ∧
        (c.take flowId task outcome).outcomes = c.outcomes.insert flowId outcome ∧
        (c.take flowId task outcome).log = c.log ++ [.reaped flowId task]) ∨
      ∃ oldest, c.outcomes.keys.length = maxRetainedOutcomes ∧
        leastKey (c.outcomes.insert flowId outcome) = some oldest ∧
        (c.take flowId task outcome).outcomes =
          (c.outcomes.insert flowId outcome).erase oldest ∧
        (c.take flowId task outcome).log = c.log ++ [.reaped flowId task, .evicted oldest] := by
  have hkeys := length_insert hfresh outcome
  have htake : c.take flowId task outcome = evict (c.outcomes.insert flowId outcome).keys.length
      { { c with flows := c.flows.erase flowId }.record [.reaped flowId task] with
        outcomes := c.outcomes.insert flowId outcome } := rfl
  rcases Nat.lt_or_eq_of_le hretaining.bounded with hroom | hfull
  · rw [htake, evict_of_le]
    · exact .inl ⟨hroom, rfl, rfl⟩
    · show (c.outcomes.insert flowId outcome).keys.length ≤ _
      rw [hkeys]
      exact hroom
  · have hsome : (c.outcomes.insert flowId outcome).keys ≠ [] := by
      rw [hkeys]
      exact List.cons_ne_nil _ _
    obtain ⟨oldest, holdest⟩ := exists_leastKey hsome
    have hlength : (c.outcomes.insert flowId outcome).keys.length = maxRetainedOutcomes + 1 := by
      rw [hkeys, List.length_cons, hfull]
    rw [htake, hlength, evict_of_succ maxRetainedOutcomes hlength holdest]
    exact .inr ⟨oldest, hfull, holdest, rfl, List.append_assoc _ _ _⟩

theorem Retaining.take (h : Retaining c) {flowId : FlowId} (hfresh : flowId ∉ c.outcomes)
    (task : FlowTask) (outcome : FlowOutcome) : Retaining (c.take flowId task outcome) := by
  have hkeys := length_insert hfresh outcome
  have hmore : (retentionOrder c.log ++ [flowId]).Perm (c.outcomes.insert flowId outcome).keys := by
    rw [hkeys]
    exact (List.perm_append_singleton _ _).trans (h.order.cons _)
  rcases take_cases h hfresh task outcome with
    ⟨hroom, houtcomes, hlog⟩ | ⟨oldest, hfull, holdest, houtcomes, hlog⟩
  · refine ⟨?_, ?_⟩
    · rw [houtcomes, hkeys]
      exact hroom
    · rw [houtcomes, hlog, retentionOrder_append]
      exact hmore
  · have hmem := AList.mem_keys.mp (leastKey_eq_some.mp holdest).1
    refine ⟨?_, ?_⟩
    · rw [houtcomes, AList.keys_erase, List.length_erase_of_mem hmem, hkeys, List.length_cons,
        hfull]
      exact Nat.le_refl _
    · rw [houtcomes, hlog, retentionOrder_append, AList.keys_erase]
      exact hmore.erase oldest

/-- A flow that is live has no outcome yet. -/
theorem Tracked.fresh (h : Tracked c) {flowId : FlowId} {entry : FlowEntry}
    (hlive : c.flows.lookup flowId = some entry) : flowId ∉ c.outcomes := by
  intro hmem
  obtain ⟨outcome, hkept⟩ := KeyMap.mem_iff_exists.mp hmem
  obtain ⟨task, -, hreaped, -⟩ := h.kept hkept
  rw [h.gone hreaped] at hlive
  cases hlive

/-- Calls of `cancel` leave the order alone. -/
theorem retentionOrder_calls {log events : List CoordinatorEvent}
    (hcalls : ∀ event ∈ events, ∃ flowId reason, event = .cancelCalled flowId reason) :
    retentionOrder (log ++ events) = retentionOrder log := by
  rw [retentionOrder_append]
  induction events with
  | nil => rfl
  | cons event events ih =>
      obtain ⟨flowId, reason, rfl⟩ := hcalls event List.mem_cons_self
      exact ih fun event' hmem => hcalls event' (List.mem_cons_of_mem _ hmem)

theorem Retaining.change (h : Retaining c) (htracked : Tracked c) {begins : Prop}
    {c' : Coordinator} (hchange : Change begins c c') : Retaining c' := by
  cases hchange with
  | registered => exact ⟨h.bounded, h.order⟩
  | @advanced flowId entry task calls hlive hadvance =>
      refine ⟨h.bounded, ?_⟩
      have horder : retentionOrder (c.log ++ calls.map (.cancelCalled flowId)) =
          retentionOrder c.log := retentionOrder_calls fun event hevent => by
        obtain ⟨reason, -, rfl⟩ := List.mem_map.mp hevent
        exact ⟨flowId, reason, rfl⟩
      exact horder ▸ h.order
  | shutdown =>
      refine ⟨h.bounded, ?_⟩
      have horder : retentionOrder c.beginShutdown.log = retentionOrder c.log :=
        retentionOrder_calls fun event hevent => by
          obtain ⟨flowId, -, rfl⟩ := List.mem_map.mp hevent
          exact ⟨flowId, _, rfl⟩
      exact horder ▸ h.order
  | taken hlive hresult => exact h.take (htracked.fresh hlive) _ _
  | resources => exact ⟨h.bounded, h.order⟩

theorem Retaining.changes (h : Retaining c) (htracked : Tracked c) {begins : Prop}
    {c' : Coordinator} (hchanges : Changes begins c c') : Retaining c' := by
  induction hchanges with
  | refl => exact h
  | tail hbefore hchange ih => exact ih.change (htracked.changes hbefore) hchange

end Coordinator

/-! ## Reaps -/

namespace Reap

/-- The outcomes after a reap are those after the flow has been taken out. -/
theorem after_eq (reap : Reap) :
    ∃ resources, reap.after =
      { reap.before.take reap.flowId reap.entry.task reap.outcome with resources := resources } := by
  refine ⟨reap.after.resources, ?_⟩
  unfold after reapFlow
  simp only [reap.live, reap.finished]
  rfl

/-- **One reap**: the outcomes are retained well exactly when it is in order. -/
theorem retainsWell_iff {reap : Reap} (htracked : Tracked reap.before)
    (hretaining : Retaining reap.before) : reap.RetainsWell ↔ reap.InOrder := by
  have hfresh := htracked.fresh reap.live
  have hkeys := length_insert hfresh reap.outcome
  obtain ⟨resources, hafter⟩ := reap.after_eq
  obtain ⟨-, -, hflows, -, -⟩ := reap.before.take_frame reap.flowId reap.entry.task reap.outcome
  have hbounded : reap.after.outcomes.keys.length ≤ maxRetainedOutcomes := by
    rw [hafter]
    exact (hretaining.take hfresh reap.entry.task reap.outcome).bounded
  have hquery : reap.after.queryFlowOutcome reap.flowId =
      reap.after.outcomes.lookup reap.flowId := by
    have hgone : reap.after.flows.lookup reap.flowId = none := by
      rw [hafter]
      show (reap.before.take _ _ _).flows.lookup reap.flowId = none
      rw [hflows]
      exact AList.lookup_erase _ _
    simp only [queryFlowOutcome, hgone]
  rcases take_cases hretaining hfresh reap.entry.task reap.outcome with
    ⟨hroom, houtcomes, -⟩ | ⟨oldest, hfull, holdest, houtcomes, -⟩
  · -- with room, everything stays
    have houtcomes' : reap.after.outcomes = reap.before.outcomes.insert reap.flowId reap.outcome :=
      hafter ▸ houtcomes
    refine ⟨fun _ => .inl hroom, fun _ => ⟨?_, hbounded, fun flowId hmem hgone => ?_⟩⟩
    · rw [hquery, houtcomes']
      exact AList.lookup_insert _
    · rw [houtcomes', AList.mem_insert] at hgone
      exact absurd hmem hgone
  · have houtcomes' : reap.after.outcomes =
        (reap.before.outcomes.insert reap.flowId reap.outcome).erase oldest := hafter ▸ houtcomes
    obtain ⟨hmem, hleast⟩ := leastKey_eq_some.mp holdest
    -- something was retained before the flow
    have hfirst : (retentionOrder reap.before.log ++ [reap.flowId]).head? =
        (retentionOrder reap.before.log).head? := by
      have hlength := hretaining.order.length_eq
      rw [hfull] at hlength
      cases horder : retentionOrder reap.before.log with
      | nil =>
          rw [horder] at hlength
          cases hlength
      | cons => rfl
    constructor
    · intro h
      have hne : reap.flowId ≠ oldest := by
        rintro heq
        have hreturned := h.returned
        rw [hquery, houtcomes', heq, AList.lookup_erase] at hreturned
        cases hreturned
      have hold : oldest ∈ reap.before.outcomes := by
        rcases AList.mem_insert _ |>.mp hmem with heq | hold
        · exact absurd heq.symm hne
        · exact hold
      have hgone : oldest ∉ reap.after.outcomes := by
        rw [houtcomes', AList.mem_erase]
        exact fun h => h.1 rfl
      refine .inr ⟨oldest, leastKey_eq_some.mpr ⟨hold, fun flowId hflow => hleast flowId ?_⟩,
        hfirst ▸ h.oldest oldest (.inr hold) hgone, ?_⟩
      · exact (AList.mem_insert _).mpr (.inr hflow)
      · have hle := hleast reap.flowId ((AList.mem_insert _).mpr (.inl rfl))
        have hid : oldest.id ≠ reap.flowId.id := fun heq => hne (congrArg FlowId.mk heq.symm)
        omega
    · rintro (hroom | ⟨first, hfirstLeast, hfirstRetained, hlt⟩)
      · exact absurd hfull (Nat.ne_of_lt hroom)
      · obtain ⟨hfirstMem, hfirstLe⟩ := leastKey_eq_some.mp hfirstLeast
        -- the key that goes is the one retained first
        have heq : oldest = first := by
          have hle := hleast first ((AList.mem_insert _).mpr (.inr hfirstMem))
          rcases (AList.mem_insert _).mp hmem with rfl | hold
          · omega
          · have hge := hfirstLe oldest hold
            exact congrArg FlowId.mk (Nat.le_antisymm hle hge)
        subst heq
        have hne : reap.flowId ≠ oldest := by
          rintro heq
          rw [heq] at hlt
          exact Nat.lt_irrefl _ hlt
        refine ⟨?_, hbounded, fun flowId hkept hgone => ?_⟩
        · rw [hquery, houtcomes', AList.lookup_erase_ne hne]
          exact AList.lookup_insert _
        · have hlost : flowId = oldest := by
            by_contra hstays
            exact hgone (houtcomes' ▸ AList.mem_erase.mpr
              ⟨hstays, (AList.mem_insert _).mpr hkept⟩)
          rw [hfirst, hfirstRetained, hlost]

end Reap

/-- What the coordinator keeps in a run whose actions are allowed holds before every reap. -/
structure ReapInvariant (allowed : Action → Prop) (P : Coordinator → Prop) : Prop where
  command : ∀ {c c' command reply order hash}, allowed (.command command order hash) → P c →
    c.handleCommand command = some (reply, c') → P c'
  reap : ∀ c hash flowId, P c → P (c.reapFlow hash flowId)
  step : ∀ {c c' action}, allowed action → P c → c.step action = some c' → P c'

namespace ReapInvariant

variable {allowed : Action → Prop} {P : Coordinator → Prop}

theorem reapsFrom (hP : ReapInvariant allowed P) {hash : HashOrder} {c : Coordinator} (h : P c)
    (ids : List FlowId) : ∀ reap ∈ reapsFrom hash c ids, P reap.before := by
  induction ids generalizing c with
  | nil =>
      intro reap hreap
      cases hreap
  | cons flowId ids ih =>
      intro reap hreap
      rcases List.mem_append.mp hreap with hhere | hlater
      · split at hhere
        · cases hhere
        · split at hhere
          · cases hhere
          · rw [List.mem_singleton.mp hhere]
            exact h
      · exact ih (hP.reap c hash flowId h) reap hlater

theorem reapsOf (hP : ReapInvariant allowed P) {c : Coordinator} (h : P c) {action : Action}
    (hallowed : allowed action) : ∀ reap ∈ reapsOf c action, P reap.before := by
  intro reap hreap
  cases action with
  | command command order hash =>
      simp only [Reactor.reapsOf] at hreap
      cases hcommand : c.handleCommand command with
      | none =>
          rw [hcommand] at hreap
          cases hreap
      | some replied =>
          rw [hcommand] at hreap
          exact hP.reapsFrom (hP.command hallowed h hcommand) _ reap hreap
  | pass order hash => exact hP.reapsFrom h _ reap hreap
  | beginShutdown | beginTask | round | panic | resource => cases hreap

theorem reapsOfRun (hP : ReapInvariant allowed P) {c : Coordinator} (h : P c)
    {actions : List Action} (hallowed : ∀ action ∈ actions, allowed action) :
    ∀ reap ∈ reapsOfRun c actions, P reap.before := by
  induction actions generalizing c with
  | nil =>
      intro reap hreap
      cases hreap
  | cons action actions ih =>
      intro reap hreap
      obtain ⟨hfirst, hothers⟩ := List.forall_mem_cons.mp hallowed
      rcases List.mem_append.mp hreap with hhere | hlater
      · exact hP.reapsOf h hfirst reap hhere
      · cases hstep : c.step action with
        | none =>
            rw [hstep] at hlater
            cases hlater
        | some c₁ =>
            rw [hstep] at hlater
            exact ih (hP.step hfirst h hstep) hothers reap hlater

end ReapInvariant

/-- The coordinator keeps what it should before every reap. -/
theorem kept_invariant :
    ReapInvariant (fun _ => True) fun c => Tracked c ∧ Retaining c where
  command _ h hcommand := by
    have hchanges : Changes False _ _ := handleCommand_changes hcommand
    exact ⟨h.1.changes hchanges, h.2.changes h.1 hchanges⟩
  reap c hash flowId h := by
    have hchanges : Changes False c (c.reapFlow hash flowId) := reapFlow_changes hash c flowId
    exact ⟨h.1.changes hchanges, h.2.changes h.1 hchanges⟩
  step _ h hstep := by
    have hchanges := step_changes hstep
    exact ⟨h.1.changes hchanges, h.2.changes h.1 hchanges⟩

/-- **Outcome retention**: a reap retains the outcomes well exactly when it is in order, and in
a run all of them do exactly when all of them are. -/
theorem outcome_retention (ρ : CoordinatorRun) :
    List.Forall (fun reap => reap.RetainsWell ↔ reap.InOrder) ρ.reaps ∧
      ((∀ reap ∈ ρ.reaps, reap.RetainsWell) ↔ ∀ reap ∈ ρ.reaps, reap.InOrder) := by
  have hiff : ∀ reap ∈ ρ.reaps, (reap.RetainsWell ↔ reap.InOrder) := by
    intro reap hreap
    have hkept := kept_invariant.reapsOfRun ⟨tracked_new ρ.resources, retaining_new ρ.resources⟩
      (fun _ _ => trivial) reap hreap
    exact Reap.retainsWell_iff hkept.1 hkept.2
  refine ⟨List.forall_iff_forall_mem.mpr hiff, fun h reap hreap => ?_, fun h reap hreap => ?_⟩
  · exact (hiff reap hreap).mp (h reap hreap)
  · exact (hiff reap hreap).mpr (h reap hreap)

/-! ## A flow that outlives the others -/

noncomputable def spawnSmall : Action :=
  .command (.spawnFlow (smallConfig [.source, .sink] [(0, 1)] 1) 2) [] default

/-- A flow is cancelled before its task begins, ends, and is taken out. -/
noncomputable def shortLife (n : ℕ) : List Action :=
  [.command (.cancelFlow ⟨n⟩ .operatorRequest) [] default, .beginTask ⟨n⟩ 0 0,
    .round ⟨n⟩ (quietRound (forwarding 1)), .round ⟨n⟩ (quietRound (forwarding 1)),
    .pass [⟨n⟩] default]

/-- Of 65 flows the first ends last. -/
noncomputable def outliving : List Action :=
  spawnSmall :: (List.range' 2 64).flatMap (fun n => spawnSmall :: shortLife n) ++ shortLife 1

set_option maxRecDepth 100000 in
theorem outliving_reached : ((Coordinator.new bareManager).run outliving).isSome := by
  decide +kernel

noncomputable def outlivingRun : CoordinatorRun where
  resources := bareManager
  actions := outliving
  final := ((Coordinator.new bareManager).run outliving).get outliving_reached
  reached := (Option.some_get _).symm

set_option maxRecDepth 100000 in
/-- The outcome of the flow is gone as soon as it has been taken out. -/
theorem outcome_lost_at_reap : ∃ (ρ : CoordinatorRun) (reap : Reap),
    reap ∈ ρ.reaps ∧ reap.after.queryFlowOutcome reap.flowId = none ∧ ¬ reap.RetainsWell := by
  have hlost : (outlivingRun.reaps.any
      fun reap => (reap.after.queryFlowOutcome reap.flowId).isNone) = true := by
    decide +kernel
  obtain ⟨reap, hreap, hnone⟩ := List.any_eq_true.mp hlost
  have hquery := Option.isNone_iff_eq_none.mp hnone
  refine ⟨outlivingRun, reap, hreap, hquery, fun h => ?_⟩
  have hreturned := h.returned
  rw [hquery] at hreturned
  cases hreturned

end Torvyn.Reactor
