/-
# What the coordinator says of the live flows

The handle of a flow has a state of its own, beside that of the driver.  It is set when the flow
is entered and never again, so what `QueryFlowState` and `ListFlows` report is right until the
driver of the flow begins, and wrong from then on.
-/
import Torvyn.Reactor.Tasks

namespace Torvyn.Reactor

/-- The last lifecycle state that the driver of a task has entered; a stub has no driver. -/
def FlowTask.lastEntered : FlowTask → Option FlowState
  | .unstarted _ _ _ _ => some .instantiated
  | .driver d => some d.state
  | .panicked d _ => some d.state
  | .stub _ => none

namespace Coordinator

/-- Both queries report the state. -/
structure Reports (c : Coordinator) (flowId : FlowId) (state : FlowState) : Prop where
  query : c.queryFlowState flowId = .ok state
  list : ∀ listed, (flowId, listed) ∈ c.listFlows ↔ listed = state

/-- The queries about a flow reflect its driver, if it is live. -/
def Reflects (c : Coordinator) (flowId : FlowId) : Prop :=
  ∀ entry state, c.flows.lookup flowId = some entry → entry.task.lastEntered = some state →
    c.Reports flowId state

/-- The driver of the flow has not begun, if it is live. -/
def Waits (c : Coordinator) (flowId : FlowId) : Prop :=
  ∀ entry, c.flows.lookup flowId = some entry → entry.task.driver? = none

/-- Both queries report what the handle says. -/
theorem reports_iff {c : Coordinator} {flowId : FlowId} {entry : FlowEntry}
    (hlive : c.flows.lookup flowId = some entry) (state : FlowState) :
    c.Reports flowId state ↔ entry.handle.state = state := by
  have hquery : c.queryFlowState flowId = .ok entry.handle.state := by
    simp only [queryFlowState, hlive]
  constructor
  · intro h
    exact Except.ok.inj (hquery.symm.trans h.query)
  · rintro rfl
    refine ⟨hquery, fun listed => ⟨fun hmem => ?_, ?_⟩⟩
    · obtain ⟨⟨flowId', entry'⟩, hentry, heq⟩ := List.mem_map.mp hmem
      cases heq
      have hlookup := KeyMap.mem_entries_iff.mp hentry
      rw [hlive] at hlookup
      cases hlookup
      rfl
    · rintro rfl
      exact List.mem_map.mpr ⟨⟨flowId, entry⟩, KeyMap.mem_entries_iff.mpr hlive, rfl⟩

/-! ## The handles -/

/-- Every handle has the state it was made with. -/
def Unmoved (c : Coordinator) : Prop :=
  ∀ flowId entry, c.flows.lookup flowId = some entry → entry.handle.state = .instantiated

variable {c c' : Coordinator} {begins : Prop}

/-- A live flow after a change was live before it with the same handle, or has been entered. -/
theorem Change.handle (h : Change begins c c') {flowId : FlowId} {entry : FlowEntry}
    (hlive : c'.flows.lookup flowId = some entry) :
    (entry.handle.state = .instantiated ∧ entry.task.driver? = none) ∨
      ∃ entry₀, c.flows.lookup flowId = some entry₀ ∧ entry.handle = entry₀.handle ∧
        (¬ begins → entry₀.task.driver? = none → entry.task.driver? = none) := by
  cases h with
  | @registered config task hfresh =>
      have hlive : (c.flows.insert _ _).lookup flowId = some entry := hlive
      by_cases hid : flowId = ⟨c.nextFlowId⟩
      · rw [hid, AList.lookup_insert] at hlive
        obtain rfl := Option.some.inj hlive
        refine .inl ⟨rfl, ?_⟩
        cases hfresh <;> rfl
      · rw [AList.lookup_insert_ne hid] at hlive
        exact .inr ⟨entry, hlive, rfl, fun _ h => h⟩
  | @advanced flowId' entry' task calls hlive' hadvance =>
      have hlive : (c.flows.modify flowId' _).lookup flowId = some entry := hlive
      rw [KeyMap.lookup_modify] at hlive
      by_cases hid : flowId = flowId'
      · subst hid
        rw [if_pos rfl, hlive'] at hlive
        obtain rfl := Option.some.inj hlive
        refine .inr ⟨entry', hlive', rfl, fun hnot hnone => ?_⟩
        generalize entry'.task = task₀ at hadvance hnone
        cases hadvance with
        | cancelled _ reason => cases task₀ <;> first | rfl | cases hnone
        | begun hbegins => exact absurd hbegins hnot
        | round | panicked => cases hnone
      · rw [if_neg hid] at hlive
        exact .inr ⟨entry, hlive, rfl, fun _ h => h⟩
  | shutdown =>
      have hlive : (c.flows.mapValues _).lookup flowId = some entry := hlive
      rw [KeyMap.lookup_mapValues] at hlive
      obtain ⟨entry₀, hlive₀, rfl⟩ := Option.map_eq_some_iff.mp hlive
      refine .inr ⟨entry₀, hlive₀, rfl, fun _ hnone => ?_⟩
      show (entry₀.task.cancel _).driver? = none
      generalize entry₀.task = task₀ at hnone
      cases task₀ <;> first | rfl | cases hnone
  | @taken flowId' entry' result hlive' hresult =>
      obtain ⟨-, -, hflows, -⟩ :=
        c.take_frame flowId' entry'.task (entry'.task.outcomeOf result)
      rw [hflows] at hlive
      by_cases hid : flowId = flowId'
      · rw [hid, AList.lookup_erase] at hlive
        cases hlive
      · rw [AList.lookup_erase_ne hid] at hlive
        exact .inr ⟨entry, hlive, rfl, fun _ h => h⟩
  | resources => exact .inr ⟨entry, hlive, rfl, fun _ h => h⟩

/-- No change moves a handle. -/
theorem Unmoved.changes (h : Unmoved c) (hchanges : Changes begins c c') : Unmoved c' := by
  induction hchanges with
  | refl => exact h
  | tail _ hchange ih =>
      intro flowId entry hlive
      rcases hchange.handle hlive with ⟨hstate, -⟩ | ⟨entry₀, hlive₀, hhandle, -⟩
      · exact hstate
      · rw [hhandle]
        exact ih flowId entry₀ hlive₀

/-- Where no task may begin, the flows that wait go on waiting. -/
theorem waits_changes (h : ∀ flowId, c.Waits flowId) (hnot : ¬ begins)
    (hchanges : Changes begins c c') : ∀ flowId, c'.Waits flowId := by
  induction hchanges with
  | refl => exact h
  | tail _ hchange ih =>
      intro flowId entry hlive
      rcases hchange.handle hlive with ⟨-, hnone⟩ | ⟨entry₀, hlive₀, -, hkeeps⟩
      · exact hnone
      · exact hkeeps hnot (ih flowId entry₀ hlive₀)

theorem Unmoved.run (h : Unmoved c) {actions : List Action} (hrun : c.run actions = some c') :
    Unmoved c' := by
  induction actions generalizing c with
  | nil =>
      cases hrun
      exact h
  | cons action actions ih =>
      obtain ⟨c₁, hstep, hrun⟩ := Option.bind_eq_some_iff.mp hrun
      exact ih (h.changes (step_changes hstep)) hrun

/-- **The queries about a flow are right exactly while its driver waits.** -/
theorem reflects_iff (htracked : Tracked c) (hunmoved : Unmoved c) (flowId : FlowId) :
    c.Reflects flowId ↔ c.Waits flowId := by
  constructor
  · intro h entry hlive
    cases hdriver : entry.task.driver? with
    | none => rfl
    | some d =>
        have hlast : entry.task.lastEntered = some d.state := by
          generalize entry.task = task at hdriver
          cases task with
          | unstarted | stub => cases hdriver
          | driver | panicked =>
              cases hdriver
              rfl
        have hstate := (reports_iff hlive d.state).mp (h entry d.state hlive hlast)
        rw [hunmoved flowId entry hlive] at hstate
        -- a driver that has begun is in a later state
        rcases ((htracked.sound (.inl ⟨entry, hlive, rfl⟩)).lifecycle d hdriver).started with
          hrun | hdrain | hterminal
        · rw [hrun] at hstate
          cases hstate
        · rw [hdrain] at hstate
          cases hstate
        · rw [← hstate] at hterminal
          cases hterminal
  · intro h entry state hlive hlast
    have hnone := h entry hlive
    rw [reports_iff hlive, hunmoved flowId entry hlive]
    generalize entry.task = task at hlast hnone
    cases task with
    | unstarted =>
        cases hlast
        rfl
    | stub => cases hlast
    | driver | panicked => cases hnone

/-- A task that begins does not wait afterwards. -/
theorem not_waits_of_begins {action : Action} (h : c.Begins action) :
    ∃ c₁ flowId, c.step action = some c₁ ∧ ¬ c₁.Waits flowId := by
  cases action with
  | beginTask flowId now wallClock =>
      obtain ⟨entry, hlive, hunstarted⟩ := h
      refine ⟨_, flowId, rfl, fun hwaits => ?_⟩
      obtain ⟨handle, task, componentIds⟩ := entry
      cases task with
      | unstarted flowId' config streams cancellation =>
          have hlookup : (c.beginTask flowId now wallClock).flows.lookup flowId =
              some ⟨handle, .driver (((FlowDriver.new flowId' config streams now).enterRunning now
                wallClock).withCancellation cancellation), componentIds⟩ := by
            simp only [beginTask, hlive, withTask, KeyMap.lookup_modify, if_pos, Option.map_some]
          cases hwaits _ hlookup
      | driver | panicked | stub => cases hunstarted
  | command | beginShutdown | pass | round | panic | resource => cases h

end Coordinator

open Coordinator

/-- The states of a run. -/
def CoordinatorRun.Reaches (ρ : CoordinatorRun) (c : Coordinator) (rest : List Action) : Prop :=
  ∃ before, ρ.actions = before ++ rest ∧ (Coordinator.new ρ.resources).run before = some c

/-- **Flow state queries**: in every state of a run they are right about a flow exactly while
its driver waits, and in a run they are right throughout exactly when no task begins. -/
theorem state_queries_reflect (ρ : CoordinatorRun) :
    (∀ c rest, ρ.Reaches c rest → ∀ flowId, c.Reflects flowId ↔ c.Waits flowId) ∧
      ((∀ c rest, ρ.Reaches c rest → ∀ flowId, c.Reflects flowId) ↔
        ∀ c action rest, ρ.Reaches c (action :: rest) → ¬ c.Begins action) := by
  have hiff : ∀ c rest, ρ.Reaches c rest → ∀ flowId, c.Reflects flowId ↔ c.Waits flowId := by
    rintro c rest ⟨before, -, hrun⟩ flowId
    refine reflects_iff ((tracked_new ρ.resources).run hrun) (Unmoved.run ?_ hrun) flowId
    intro flowId entry hlive
    cases hlive
  refine ⟨hiff, fun h c action rest hreaches hbegins => ?_, fun h => ?_⟩
  · obtain ⟨c₁, flowId, hstep, hnot⟩ := not_waits_of_begins hbegins
    obtain ⟨before, hactions, hrun⟩ := hreaches
    have hreaches₁ : ρ.Reaches c₁ rest := by
      refine ⟨before ++ [action], by simp [hactions], ?_⟩
      rw [run_append, hrun]
      show (c.step action).bind _ = _
      rw [hstep]
      rfl
    exact hnot ((hiff c₁ rest hreaches₁ flowId).mp (h c₁ rest hreaches₁ flowId))
  · suffices hwaits : ∀ before c rest, ρ.actions = before ++ rest →
        (Coordinator.new ρ.resources).run before = some c → ∀ flowId, c.Waits flowId by
      intro c rest hreaches flowId
      obtain ⟨before, hactions, hrun⟩ := hreaches
      exact (hiff c rest ⟨before, hactions, hrun⟩ flowId).mpr
        (hwaits before c rest hactions hrun flowId)
    intro before
    induction before using List.reverseRecOn with
    | nil =>
        intro c rest _ hrun flowId entry hlive
        cases hrun
        cases hlive
    | append_singleton before action ih =>
        intro c rest hactions hrun
        rw [run_append] at hrun
        obtain ⟨c₀, hrun₀, hstep⟩ := Option.bind_eq_some_iff.mp hrun
        obtain ⟨c₁, hstep, hnil⟩ := Option.bind_eq_some_iff.mp hstep
        cases hnil
        have hactions₀ : ρ.actions = before ++ action :: rest := by simp [hactions]
        exact waits_changes (ih c₀ (action :: rest) hactions₀ hrun₀)
          (h c₀ action rest ⟨before, hactions₀, hrun₀⟩) (step_changes hstep)

/-- A flow of a source and a sink is spawned, and its task begins. -/
noncomputable def beginning : List Action :=
  [.command (.spawnFlow (smallConfig [.source, .sink] [(0, 1)] 1) 2) [] default,
    .beginTask ⟨1⟩ 0 0]

noncomputable def beginningRun : CoordinatorRun where
  resources := bareManager
  actions := beginning
  final := ((Coordinator.new bareManager).run beginning).get (by decide)
  reached := (Option.some_get _).symm

/-- The flow is running, and the coordinator says that it has only been instantiated. -/
theorem running_reported_instantiated :
    ∃ (ρ : CoordinatorRun) (c : Coordinator) (flowId : FlowId),
      ρ.Reaches c [] ∧ ¬ c.Reflects flowId := by
  refine ⟨beginningRun, beginningRun.final, ⟨1⟩,
    ⟨beginning, (List.append_nil _).symm, beginningRun.reached⟩, fun h => ?_⟩
  have hreport := (h _ .running rfl rfl).query
  cases hreport

end Torvyn.Reactor
