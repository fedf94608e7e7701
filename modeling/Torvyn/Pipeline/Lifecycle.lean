/-
# The lifecycle of the components of a pipeline

`instantiate_pipeline` of `torvyn-pipeline/src/instantiate.rs` as the calls that it makes of the
components: it initialises them in execution order, and tears down those that it has initialised
when a later one fails.  A flow that is handed to the reactor is never torn down, although the
documentation leaves that to the flow driver: `paired_iff` says for which pipelines this makes no
difference.
-/
import Torvyn.Engine.Invoker
import Torvyn.Pipeline.Isolation

namespace Torvyn.Pipeline.Lifecycle

open Torvyn.Engine Torvyn.Reactor

/-! ## The lifecycle functions of the invoker -/

/-- What is called of the components: the lifecycle functions of the component of a node, and the
calls of the flow driver. -/
inductive ComponentCall where
  | init (nodeIdx : ℕ) (answer : Except WasmError (Except ProcessError Unit))
  | teardown (nodeIdx : ℕ)
  | invoked (componentId : ComponentId) (call : Reactor.Invocation)

/-- Whether a component of the world exports `lifecycle`. -/
def hasLifecycle : Option WitBindings → Bool
  | some .dataSink | some .dataSource | some .managedTransform => true
  | some .transform | none => false

/-- How a `ProcessError` is displayed. -/
def processErrorText : ProcessError → String
  | .invalidInput msg => s!"process error: invalid input — {msg}. " ++
      "Check that upstream components produce elements matching this component's expected schema."
  | .unavailable msg => s!"process error: resource unavailable — {msg}. " ++
      "Verify that required capabilities are granted and downstream services are reachable."
  | .internal msg => s!"process error: internal error — {msg}. " ++
      "This indicates a bug in the component. Check component logs and consider filing a bug report."
  | .deadlineExceeded => "process error: deadline exceeded. " ++
      "The component did not complete within its allotted time. " ++
      "Consider increasing the timeout or optimizing the component's processing logic."
  | .fatal msg => s!"process error: FATAL — {msg}. " ++
      "The component has entered a terminal failure state and cannot process further elements. " ++
      "The flow will be terminated."

/-- `invoke_init`: a component without `lifecycle` counts as initialised. -/
def invokeInit (bindings : Option WitBindings) (nodeIdx : ℕ) (componentId : ComponentId)
    (answer : Except WasmError (Except ProcessError Unit)) :
    List ComponentCall × Except ProcessError Unit :=
  if hasLifecycle bindings then
    ([.init nodeIdx answer],
      match answer with
      | .error e => .error (convertWasmError e componentId "init")
      | .ok inner => inner)
  else ([], .ok ())

/-- `invoke_teardown`. -/
def invokeTeardown (bindings : Option WitBindings) (nodeIdx : ℕ) : List ComponentCall :=
  if hasLifecycle bindings then [.teardown nodeIdx] else []

/-! ## Instantiating -/

/-- What a node meets when it is instantiated: the files, the engine and the component. -/
structure Surroundings (Compiled : Type) where
  read : String → Except String (List UInt8)
  compileComponent : List UInt8 → Except String Compiled
  instantiate : Compiled → ComponentId → Except String (Option WitBindings)
  init : Except WasmError (Except ProcessError Unit)

section Instantiate

variable {Compiled : Type}

/-- `load_component_bytes`. -/
def loadComponentBytes (read : String → Except String (List UInt8)) (componentRef : String) :
    Except String (List UInt8) :=
  if "file://".toList.isPrefixOf componentRef.toList then
    read (String.ofList (componentRef.toList.drop "file://".length))
  else if "mock://".toList.isPrefixOf componentRef.toList then .ok []
  else .error (s!"Unsupported component reference scheme in '{componentRef}'. " ++
    "Phase 0 supports 'file://<path>' and 'mock://<name>'.")

/-- `instantiate_one_node`. -/
def instantiateOneNode (t : PipelineTopology) (node : TopologyNode) (nodeIdx : ℕ)
    (sur : Surroundings Compiled) : List ComponentCall × Except PipelineError (Option WitBindings) :=
  let componentId := componentIdOf nodeIdx
  match loadComponentBytes sur.read node.componentRef with
  | .error e =>
      ([], .error (.subsystem "io"
        s!"Cannot load component '{node.name}' from '{node.componentRef}': {e}"))
  | .ok bytes =>
      match sur.compileComponent bytes with
      | .error e => ([], .error (.compilationFailed t.name node.name e))
      | .ok compiled =>
          match sur.instantiate compiled componentId with
          | .error e => ([], .error (.instantiationFailed t.name node.name e))
          | .ok bindings =>
              match invokeInit bindings nodeIdx componentId sur.init with
              | (calls, .error e) =>
                  (calls, .error (.initializationFailed t.name node.name (processErrorText e)))
              | (calls, .ok ()) => (calls, .ok bindings)

/-- The instances by the index of their node: a slot is filled when its component has been
initialised. -/
abbrev Slots := List (Option (Option WitBindings))

/-- `cleanup_partial`. -/
def cleanupPartial (slots : Slots) : List ComponentCall :=
  slots.zipIdx.reverse.flatMap fun (slot, idx) =>
    match slot with
    | some bindings => invokeTeardown bindings idx
    | none => []

/-- The loop over the nodes in execution order.  `none`: an index is not that of a node. -/
def instantiateNodes (t : PipelineTopology) (sur : ℕ → Surroundings Compiled) :
    List ℕ → Slots → Option (List ComponentCall × Except PipelineError Slots)
  | [], slots => some ([], .ok slots)
  | nodeIdx :: order, slots =>
      t.nodes[nodeIdx]?.bind fun node =>
        match instantiateOneNode t node nodeIdx (sur nodeIdx) with
        | (calls, .error e) => some (calls ++ cleanupPartial slots, .error e)
        | (calls, .ok bindings) =>
            (instantiateNodes t sur order (slots.set nodeIdx (some bindings))).map fun
              (more, result) => (calls ++ more, result)

/-- `instantiate_pipeline`, with the reactor's answer to `spawn_flow`.  `none`: it panics. -/
def instantiatePipeline (t : PipelineTopology) (sur : ℕ → Surroundings Compiled)
    (spawnFlow : FlowConfig → ℕ → Except String FlowId) :
    Option (List ComponentCall × Except PipelineError FlowId) :=
  (instantiateNodes t sur t.executionOrder (List.replicate t.nodes.length none)).bind fun
    | (calls, .error e) => some (calls, .error e)
    | (calls, .ok slots) =>
        if slots.all Option.isSome then
          match spawnFlow (.defaultWithTopology (flowTopology t)) slots.length with
          | .error reason => some (calls, .error (.flowRegistrationFailed t.name reason))
          | .ok flowId => some (calls, .ok flowId)
        else none

end Instantiate

/-! ## Runs -/

/-- The calls of the flow driver. -/
def driverCalls (events : List FlowEvent) : List ComponentCall :=
  events.filterMap fun
    | .invoked componentId call => some (.invoked componentId call)
    | _ => none

/-- The calls of a run of a pipeline that is not registered, or whose flow ends in a terminal
state. -/
inductive Ended {Compiled : Type} (t : PipelineTopology) (sur : ℕ → Surroundings Compiled) :
    List ComponentCall → Prop
  | unregistered (spawnFlow : FlowConfig → ℕ → Except String FlowId) (calls : List ComponentCall)
      (e : PipelineError) : instantiatePipeline t sur spawnFlow = some (calls, .error e) →
      Ended t sur calls
  | terminal (spawnFlow : FlowConfig → ℕ → Except String FlowId) (calls : List ComponentCall)
      (f : SpawnedFlow) (rounds : List Round) :
      instantiatePipeline t sur spawnFlow = some (calls, .ok f.flowId) →
      f.config = .defaultWithTopology (flowTopology t) → (f.run rounds).state.isTerminal = true →
      Ended t sur (calls ++ driverCalls (f.run rounds).events)

/-- The call tears the component of the node down. -/
def ComponentCall.isTeardownOf (nodeIdx : ℕ) : ComponentCall → Bool
  | .teardown idx => decide (idx = nodeIdx)
  | _ => false

/-- Each component whose initialisation has succeeded is torn down exactly once, after the last
call of it, and a component whose initialisation has failed is never torn down. -/
structure Paired (calls : List ComponentCall) : Prop where
  once : ∀ idx, .init idx (.ok (.ok ())) ∈ calls → calls.countP (ComponentCall.isTeardownOf idx) = 1
  last : ∀ idx before after, calls = before ++ .teardown idx :: after →
    ∀ call, .invoked (componentIdOf idx) call ∉ after
  failed : ∀ idx answer, .init idx answer ∈ calls → answer ≠ .ok (.ok ()) →
    .teardown idx ∉ calls

/-- The node is instantiated, as a component with these bindings. -/
def Starts {Compiled : Type} (sur : Surroundings Compiled) (node : TopologyNode) (nodeIdx : ℕ)
    (bindings : Option WitBindings) : Prop :=
  ∃ bytes compiled, loadComponentBytes sur.read node.componentRef = .ok bytes ∧
    sur.compileComponent bytes = .ok compiled ∧
    sur.instantiate compiled (componentIdOf nodeIdx) = .ok bindings ∧
    (hasLifecycle bindings = true → sur.init = .ok (.ok ()))

/-! ## One node -/

section Nodes

variable {Compiled : Type} {t : PipelineTopology} {sur : Surroundings Compiled}
  {node : TopologyNode} {nodeIdx : ℕ}

theorem Starts.unique {bindings bindings' : Option WitBindings} (h : Starts sur node nodeIdx bindings)
    (h' : Starts sur node nodeIdx bindings') : bindings = bindings' := by
  obtain ⟨bytes, compiled, hload, hcompile, hinstantiate, -⟩ := h
  obtain ⟨bytes', compiled', hload', hcompile', hinstantiate', -⟩ := h'
  obtain rfl := Except.ok.inj (hload.symm.trans hload')
  obtain rfl := Except.ok.inj (hcompile.symm.trans hcompile')
  exact Except.ok.inj (hinstantiate.symm.trans hinstantiate')

/-- The call of `init` that has succeeded, if the component has one. -/
def initCalls (bindings : Option WitBindings) (nodeIdx : ℕ) : List ComponentCall :=
  if hasLifecycle bindings then [.init nodeIdx (.ok (.ok ()))] else []

/-- **What becomes of a node**: it is instantiated and initialised, or not, and then nothing but
its own `init` has been called. -/
theorem instantiateOneNode_cases (t : PipelineTopology) (node : TopologyNode) (nodeIdx : ℕ)
    (sur : Surroundings Compiled) :
    (∃ bindings, Starts sur node nodeIdx bindings ∧
        instantiateOneNode t node nodeIdx sur = (initCalls bindings nodeIdx, .ok bindings)) ∨
      ((∀ bindings, ¬Starts sur node nodeIdx bindings) ∧ ∃ calls e,
        instantiateOneNode t node nodeIdx sur = (calls, .error e) ∧
          ∀ call ∈ calls, ∃ answer, answer ≠ .ok (.ok ()) ∧ call = .init nodeIdx answer) := by
  unfold instantiateOneNode Starts
  simp only
  cases hload : loadComponentBytes sur.read node.componentRef with
  | error e => exact .inr ⟨by simp, _, _, rfl, by simp⟩
  | ok bytes =>
      simp only
      cases hcompile : sur.compileComponent bytes with
      | error e => exact .inr ⟨by simp [hcompile], _, _, rfl, by simp⟩
      | ok compiled =>
          simp only
          cases hinstantiate : sur.instantiate compiled (componentIdOf nodeIdx) with
          | error e => exact .inr ⟨by simp [hcompile, hinstantiate], _, _, rfl, by simp⟩
          | ok bindings =>
              simp only [invokeInit, initCalls]
              by_cases hlifecycle : hasLifecycle bindings = true
              · rw [if_pos hlifecycle]
                by_cases hinit : sur.init = .ok (.ok ())
                · rw [hinit]
                  refine .inl ⟨bindings, ⟨bytes, compiled, rfl, hcompile, hinstantiate,
                    fun _ => rfl⟩, ?_⟩
                  rw [if_pos hlifecycle]
                · right
                  refine ⟨?_, ?_⟩
                  · rintro bindings' ⟨bytes', compiled', hbytes, hcompiled, hbindings, hok⟩
                    obtain rfl := Except.ok.inj hbytes
                    obtain rfl := Except.ok.inj (hcompile.symm.trans hcompiled)
                    obtain rfl := Except.ok.inj (hinstantiate.symm.trans hbindings)
                    exact hinit (hok hlifecycle)
                  · cases hanswer : sur.init with
                    | error e => exact ⟨_, _, rfl, by simp⟩
                    | ok inner =>
                        cases inner with
                        | error e => exact ⟨_, _, rfl, by simp⟩
                        | ok => exact absurd hanswer hinit
              · rw [if_neg hlifecycle]
                refine .inl ⟨bindings, ⟨bytes, compiled, rfl, hcompile, hinstantiate,
                  fun h => absurd h hlifecycle⟩, ?_⟩
                rw [if_neg hlifecycle]

end Nodes

/-! ## Cleaning up -/

/-- How often `cleanup_partial` tears down the component of a node. -/
theorem countP_cleanupPartial (slots : Slots) (idx : ℕ) :
    (cleanupPartial slots).countP (ComponentCall.isTeardownOf idx) =
      if slots[idx]?.any fun slot => slot.any hasLifecycle then 1 else 0 := by
  have hone : ∀ p : Option (Option WitBindings) × ℕ,
      (match p.1 with
        | some bindings => invokeTeardown bindings p.2
        | none => []).countP (ComponentCall.isTeardownOf idx) =
      if p.2 = idx ∧ p.1.any hasLifecycle = true then 1 else 0 := by
    rintro ⟨slot, idx'⟩
    cases slot with
    | none => simp
    | some bindings =>
        unfold invokeTeardown
        by_cases hlifecycle : hasLifecycle bindings = true
        · by_cases hidx : idx' = idx
          · simp [hlifecycle, hidx, ComponentCall.isTeardownOf]
          · simp [hlifecycle, hidx, ComponentCall.isTeardownOf]
        · simp [hlifecycle]
  have hsum : (slots.zipIdx.map fun p =>
      if p.2 = idx ∧ p.1.any hasLifecycle = true then 1 else 0).sum =
        if slots[idx]?.any fun slot => slot.any hasLifecycle then 1 else 0 := by
    induction slots using List.reverseRecOn with
    | nil => rfl
    | append_singleton slots slot ih =>
        rw [List.zipIdx_append, List.map_append, List.sum_append, ih]
        rcases Nat.lt_trichotomy idx slots.length with hlt | rfl | hgt
        · rw [List.getElem?_append_left hlt]
          simp [Nat.ne_of_gt hlt]
        · simp
        · have hlast : (slots ++ [slot])[idx]? = none := by
            rw [List.getElem?_eq_none_iff, List.length_append, List.length_singleton]
            omega
          rw [hlast, List.getElem?_eq_none hgt.le]
          simp [Nat.ne_of_lt hgt]
  unfold cleanupPartial
  rw [List.countP_flatMap, List.map_reverse, List.sum_reverse, ← hsum]
  congr 1
  refine List.map_congr_left fun p _ => ?_
  exact hone p

/-- `cleanup_partial` tears down components that have been initialised, and calls nothing else. -/
theorem mem_cleanupPartial {slots : Slots} {call : ComponentCall} (h : call ∈ cleanupPartial slots) :
    ∃ (idx : ℕ) (bindings : Option WitBindings), slots[idx]? = some (some bindings) ∧
      hasLifecycle bindings = true ∧ call = .teardown idx := by
  obtain ⟨⟨slot, idx⟩, hmem, hcall⟩ := List.mem_flatMap.mp h
  have hslot := List.mem_zipIdx_iff_getElem?.mp (List.mem_reverse.mp hmem)
  cases slot with
  | none => cases hcall
  | some bindings =>
      unfold invokeTeardown at hcall
      simp only at hcall
      split at hcall
      · exact ⟨idx, bindings, hslot, ‹_›, List.mem_singleton.mp hcall⟩
      · cases hcall

/-! ## The loop -/

section Loop

variable {Compiled : Type} {t : PipelineTopology} {sur : ℕ → Surroundings Compiled} {slots : Slots}
  {calls : List ComponentCall}

/-- While all goes well: the slots that are filled are those of the nodes that have been
instantiated, and nothing has been called but their `init`, with success. -/
structure Progress (t : PipelineTopology) (sur : ℕ → Surroundings Compiled) (slots : Slots)
    (calls : List ComponentCall) : Prop where
  length_eq : slots.length = t.nodes.length
  starts : ∀ (idx : ℕ) (bindings : Option WitBindings), slots[idx]? = some (some bindings) →
    ∃ node, t.nodes[idx]? = some node ∧ Starts (sur idx) node idx bindings
  initialised : ∀ idx, .init idx (.ok (.ok ())) ∈ calls ↔
    ∃ bindings, slots[idx]? = some (some bindings) ∧ hasLifecycle bindings = true
  only : ∀ call ∈ calls, ∃ idx, call = .init idx (.ok (.ok ()))

theorem Progress.start : Progress t sur (List.replicate t.nodes.length none) [] := by
  have hempty : ∀ (idx : ℕ) (bindings : Option WitBindings),
      (List.replicate t.nodes.length none : Slots)[idx]? ≠ some (some bindings) := by
    intro idx bindings h
    rw [List.getElem?_replicate] at h
    split at h
    · cases h
    · cases h
  refine ⟨List.length_replicate, fun idx bindings h => absurd h (hempty idx bindings),
    fun idx => ?_, by simp⟩
  refine iff_of_false (by simp) ?_
  rintro ⟨bindings, h, -⟩
  exact hempty idx bindings h

/-- One node more. -/
theorem Progress.step (h : Progress t sur slots calls) {nodeIdx : ℕ} {node : TopologyNode}
    (hnode : t.nodes[nodeIdx]? = some node) (hfree : slots[nodeIdx]? = some none)
    {bindings : Option WitBindings} (hstarts : Starts (sur nodeIdx) node nodeIdx bindings) :
    Progress t sur (slots.set nodeIdx (some bindings)) (calls ++ initCalls bindings nodeIdx) := by
  have hlt := (List.getElem?_eq_some_iff.mp hfree).1
  have hget : ∀ idx, (slots.set nodeIdx (some bindings))[idx]? =
      if nodeIdx = idx then some (some bindings) else slots[idx]? := by
    intro idx
    by_cases hidx : nodeIdx = idx
    · subst hidx
      rw [if_pos rfl, List.getElem?_set_self hlt]
    · rw [if_neg hidx, List.getElem?_set_ne hidx]
  constructor
  · rw [List.length_set]
    exact h.length_eq
  · intro idx bindings' hslot
    rw [hget] at hslot
    split at hslot
    · rename_i hidx
      subst hidx
      obtain rfl := Option.some.inj (Option.some.inj hslot)
      exact ⟨node, hnode, hstarts⟩
    · exact h.starts idx bindings' hslot
  · intro idx
    rw [List.mem_append, hget, h.initialised idx]
    by_cases hidx : nodeIdx = idx
    · subst hidx
      simp [hfree, initCalls]
    · simp [hidx, initCalls, Ne.symm hidx]
  · intro call hcall
    rcases List.mem_append.mp hcall with hold | hnew
    · exact h.only call hold
    · unfold initCalls at hnew
      split at hnew
      · exact ⟨nodeIdx, List.mem_singleton.mp hnew⟩
      · cases hnew

/-- **When a node fails, its predecessors are torn down**, each of them once. -/
theorem Progress.paired_cleanup (h : Progress t sur slots calls) {nodeIdx : ℕ}
    (hfree : slots[nodeIdx]? = some none) {failed : List ComponentCall}
    (hfailed : ∀ call ∈ failed, ∃ answer, answer ≠ .ok (.ok ()) ∧ call = .init nodeIdx answer) :
    Paired (calls ++ (failed ++ cleanupPartial slots)) := by
  have hnone : ∀ idx, (calls ++ failed).countP (ComponentCall.isTeardownOf idx) = 0 := by
    intro idx
    rw [List.countP_eq_zero]
    intro call hcall
    rcases List.mem_append.mp hcall with hold | hnew
    · obtain ⟨idx', rfl⟩ := h.only call hold
      simp [ComponentCall.isTeardownOf]
    · obtain ⟨answer, -, rfl⟩ := hfailed call hnew
      simp [ComponentCall.isTeardownOf]
  have hmem : ∀ {call}, call ∈ calls ++ (failed ++ cleanupPartial slots) →
      (∃ idx, call = .init idx (.ok (.ok ())) ∧ call ∈ calls) ∨
      (∃ answer, answer ≠ .ok (.ok ()) ∧ call = .init nodeIdx answer) ∨
      ∃ idx bindings, slots[idx]? = some (some bindings) ∧ hasLifecycle bindings = true ∧
        call = .teardown idx := by
    intro call hcall
    rcases List.mem_append.mp hcall with hold | hrest
    · obtain ⟨idx, rfl⟩ := h.only call hold
      exact .inl ⟨idx, rfl, hold⟩
    · rcases List.mem_append.mp hrest with hnew | hcleanup
      · exact .inr (.inl (hfailed call hnew))
      · exact .inr (.inr (mem_cleanupPartial hcleanup))
  constructor
  · intro idx hinit
    rcases hmem hinit with ⟨idx', heq, hold⟩ | ⟨answer, hanswer, heq⟩ | ⟨idx', bindings, -, -, heq⟩
    · obtain ⟨bindings, hslot, hlifecycle⟩ := (h.initialised idx).mp hold
      rw [← List.append_assoc, List.countP_append, hnone, countP_cleanupPartial, hslot]
      simp [hlifecycle]
    · cases heq
      exact absurd rfl hanswer
    · cases heq
  · intro idx before after hsplit call hcall
    have hinvoked := hmem (hsplit ▸ List.mem_append_right before (List.mem_cons_of_mem _ hcall))
    rcases hinvoked with ⟨_, heq, -⟩ | ⟨_, -, heq⟩ | ⟨_, _, -, -, heq⟩
    all_goals cases heq
  · intro idx answer hinit hanswer hteardown
    rcases hmem hinit with ⟨idx', heq, -⟩ | ⟨answer', -, heq⟩ | ⟨_, _, -, -, heq⟩
    · cases heq
      exact hanswer rfl
    · cases heq
      -- the slot of the node that has failed is empty
      rcases hmem hteardown with ⟨_, heq, -⟩ | ⟨_, -, heq⟩ | ⟨idx', bindings, hslot, -, heq⟩
      · cases heq
      · cases heq
      · cases heq
        rw [hfree] at hslot
        cases hslot
    · cases heq

/-- **The loop over the nodes**: a node fails and the calls are paired, or all go well. -/
theorem instantiateNodes_spec {order : List ℕ} (hnodup : order.Nodup)
    (hfree : ∀ idx ∈ order, slots[idx]? = some none) (h : Progress t sur slots calls)
    {more : List ComponentCall} {result : Except PipelineError Slots}
    (hrun : instantiateNodes t sur order slots = some (more, result)) :
    (∃ e idx node, result = .error e ∧ t.nodes[idx]? = some node ∧
        (∀ bindings, ¬Starts (sur idx) node idx bindings) ∧ Paired (calls ++ more)) ∨
      ∃ slots', result = .ok slots' ∧ Progress t sur slots' (calls ++ more) := by
  induction order generalizing slots calls more with
  | nil =>
      obtain ⟨rfl, rfl⟩ := Prod.mk.inj (Option.some.inj hrun)
      exact .inr ⟨slots, rfl, by rwa [List.append_nil]⟩
  | cons nodeIdx order ih =>
      obtain ⟨node, hnode, hrun⟩ := Option.bind_eq_some_iff.mp hrun
      have hslot := hfree nodeIdx List.mem_cons_self
      obtain ⟨hnotmem, hnodup⟩ := List.nodup_cons.mp hnodup
      rcases instantiateOneNode_cases t node nodeIdx (sur nodeIdx) with
        ⟨bindings, hstarts, hone⟩ | ⟨hnone, failed, e, hone, hfailed⟩
      · rw [hone] at hrun
        obtain ⟨⟨rest, result'⟩, hrest, heq⟩ := Option.map_eq_some_iff.mp hrun
        obtain ⟨rfl, rfl⟩ := Prod.mk.inj heq
        rw [← List.append_assoc]
        refine ih hnodup (fun idx hidx => ?_) (h.step hnode hslot hstarts) hrest
        have hne : nodeIdx ≠ idx := fun h => hnotmem (h ▸ hidx)
        rw [List.getElem?_set_ne hne]
        exact hfree idx (List.mem_cons_of_mem _ hidx)
      · rw [hone] at hrun
        obtain ⟨rfl, rfl⟩ := Prod.mk.inj (Option.some.inj hrun)
        exact .inl ⟨e, nodeIdx, node, rfl, hnode, hnone, h.paired_cleanup hslot hfailed⟩

end Loop

/-! ## Runs that end -/

section Runs

variable {Compiled : Type} {t : PipelineTopology} {sur : ℕ → Surroundings Compiled}

/-- Calls without a teardown are paired only if no component has been initialised. -/
theorem paired_iff_of_not_teardown {calls : List ComponentCall}
    (h : ∀ call ∈ calls, (∃ idx, call = .init idx (.ok (.ok ()))) ∨
      ∃ componentId invocation, call = .invoked componentId invocation) :
    Paired calls ↔ ∀ idx, .init idx (.ok (.ok ())) ∉ calls := by
  have hnot : ∀ idx, .teardown idx ∉ calls := by
    intro idx hmem
    rcases h _ hmem with ⟨_, heq⟩ | ⟨_, _, heq⟩
    all_goals cases heq
  have hnone : ∀ idx, calls.countP (ComponentCall.isTeardownOf idx) = 0 := by
    intro idx
    rw [List.countP_eq_zero]
    intro call hcall
    rcases h call hcall with ⟨_, rfl⟩ | ⟨_, _, rfl⟩
    all_goals simp [ComponentCall.isTeardownOf]
  constructor
  · intro hpaired idx hinit
    have hone := hpaired.once idx hinit
    rw [hnone] at hone
    cases hone
  · intro hinit
    refine ⟨fun idx hmem => absurd hmem (hinit idx), fun idx before after hsplit => ?_,
      fun idx _ _ _ => hnot idx⟩
    exact absurd (hsplit ▸ List.mem_append_right before List.mem_cons_self) (hnot idx)

/-- The flow driver invokes components, and has nothing to do with their lifecycle. -/
theorem mem_driverCalls {events : List FlowEvent} {call : ComponentCall}
    (h : call ∈ driverCalls events) :
    ∃ componentId invocation, call = .invoked componentId invocation := by
  obtain ⟨ev, -, hev⟩ := List.mem_filterMap.mp h
  split at hev
  · exact ⟨_, _, (Option.some.inj hev).symm⟩
  · cases hev

/-- When all nodes have been instantiated, the calls are paired only if there is nothing to tear
down. -/
theorem Progress.paired_registered {slots : Slots} {calls : List ComponentCall}
    (h : Progress t sur slots calls) (hall : slots.all Option.isSome = true)
    (events : List FlowEvent) : Paired (calls ++ driverCalls events) ↔
      (∃ idx node, t.nodes[idx]? = some node ∧ ∀ bindings, ¬Starts (sur idx) node idx bindings) ∨
      ∀ idx node bindings, t.nodes[idx]? = some node → Starts (sur idx) node idx bindings →
        hasLifecycle bindings = false := by
  have hcalls : ∀ call ∈ calls ++ driverCalls events, (∃ idx, call = .init idx (.ok (.ok ()))) ∨
      ∃ componentId invocation, call = .invoked componentId invocation :=
    fun call hcall => (List.mem_append.mp hcall).imp (h.only call) mem_driverCalls
  have hfilled : ∀ (idx : ℕ) (node : TopologyNode), t.nodes[idx]? = some node →
      ∃ bindings : Option WitBindings, slots[idx]? = some (some bindings) := by
    intro idx node hnode
    have hlt : idx < slots.length :=
      lt_of_lt_of_eq (List.getElem?_eq_some_iff.mp hnode).1 h.length_eq.symm
    have hsome := List.all_eq_true.mp hall slots[idx] (List.getElem_mem hlt)
    obtain ⟨bindings, hbindings⟩ := Option.isSome_iff_exists.mp hsome
    exact ⟨bindings, by rw [List.getElem?_eq_getElem hlt, hbindings]⟩
  have hinitialised : ∀ idx, .init idx (.ok (.ok ())) ∈ calls ++ driverCalls events ↔
      .init idx (.ok (.ok ())) ∈ calls := by
    intro idx
    refine ⟨fun hmem => (List.mem_append.mp hmem).resolve_right fun hin => ?_,
      List.mem_append_left _⟩
    obtain ⟨_, _, heq⟩ := mem_driverCalls hin
    cases heq
  rw [paired_iff_of_not_teardown hcalls]
  constructor
  · intro hnone
    right
    intro idx node bindings hnode hstarts
    obtain ⟨bindings', hslot⟩ := hfilled idx node hnode
    obtain ⟨node', hnode', hstarts'⟩ := h.starts idx bindings' hslot
    obtain rfl := Option.some.inj (hnode.symm.trans hnode')
    obtain rfl := hstarts.unique hstarts'
    by_contra hlifecycle
    refine hnone idx ((hinitialised idx).mpr ((h.initialised idx).mpr ⟨bindings, hslot, ?_⟩))
    exact Bool.of_not_eq_false hlifecycle
  · rintro (⟨idx, node, hnode, hfails⟩ | hnone) idx' hmem
    · obtain ⟨bindings, hslot⟩ := hfilled idx node hnode
      obtain ⟨node', hnode', hstarts⟩ := h.starts idx bindings hslot
      obtain rfl := Option.some.inj (hnode.symm.trans hnode')
      exact hfails bindings hstarts
    · obtain ⟨bindings, hslot, hlifecycle⟩ :=
        (h.initialised idx').mp ((hinitialised idx').mp hmem)
      obtain ⟨node, hnode, hstarts⟩ := h.starts idx' bindings hslot
      rw [hnone idx' node bindings hnode hstarts] at hlifecycle
      cases hlifecycle

/-- **Exactly when the lifecycle calls are paired**: when a node of the pipeline cannot be
instantiated, or no component of it has a lifecycle at all. -/
theorem paired_iff {order : PortOrder} {name : String} {builderCalls : List BuilderCall}
    (hbuilt : (PipelineTopologyBuilder.ofCalls name builderCalls).build order = .ok t)
    {calls : List ComponentCall} (h : Ended t sur calls) : Paired calls ↔
      (∃ idx node, t.nodes[idx]? = some node ∧ ∀ bindings, ¬Starts (sur idx) node idx bindings) ∨
      ∀ idx node bindings, t.nodes[idx]? = some node → Starts (sur idx) node idx bindings →
        hasLifecycle bindings = false := by
  have hperm := executionOrder_perm hbuilt
  have hnodup : t.executionOrder.Nodup := hperm.nodup_iff.mpr List.nodup_range
  have hfree : ∀ idx ∈ t.executionOrder,
      (List.replicate t.nodes.length none : Slots)[idx]? = some none := by
    intro idx hidx
    have hlt := List.mem_range.mp (hperm.mem_iff.mp hidx)
    rw [List.getElem?_replicate, if_pos hlt]
  have hrun : ∀ {spawnFlow : FlowConfig → ℕ → Except String FlowId} {calls : List ComponentCall}
      {result : Except PipelineError FlowId},
      instantiatePipeline t sur spawnFlow = some (calls, result) →
      ((∃ e, result = .error e) ∧ Paired calls ∧ ∃ idx node, t.nodes[idx]? = some node ∧
        ∀ bindings, ¬Starts (sur idx) node idx bindings) ∨
      ∃ slots, Progress t sur slots calls ∧ slots.all Option.isSome = true := by
    intro spawnFlow calls result hpipeline
    obtain ⟨⟨calls', looped⟩, hloop, hrest⟩ := Option.bind_eq_some_iff.mp hpipeline
    rcases instantiateNodes_spec hnodup hfree Progress.start hloop with
      ⟨e, idx, node, rfl, hnode, hfails, hpaired⟩ | ⟨slots, rfl, hprogress⟩
    · obtain ⟨rfl, rfl⟩ := Prod.mk.inj (Option.some.inj hrest)
      exact .inl ⟨⟨e, rfl⟩, hpaired, idx, node, hnode, hfails⟩
    · simp only at hrest
      split at hrest
      · have hcalls : calls' = calls := by
          split at hrest
          · exact (Prod.mk.inj (Option.some.inj hrest)).1
          · exact (Prod.mk.inj (Option.some.inj hrest)).1
        exact .inr ⟨slots, hcalls ▸ hprogress, ‹_›⟩
      · cases hrest
  cases h with
  | unregistered spawnFlow calls e hpipeline =>
      rcases hrun hpipeline with ⟨-, hpaired, hfails⟩ | ⟨slots, hprogress, hall⟩
      · exact iff_of_true hpaired (.inl hfails)
      · have hiff := hprogress.paired_registered hall []
        rwa [show driverCalls [] = [] from rfl, List.append_nil] at hiff
  | terminal spawnFlow calls f rounds hpipeline =>
      rcases hrun hpipeline with ⟨⟨e, he⟩, -⟩ | ⟨slots, hprogress, hall⟩
      · cases he
      · exact hprogress.paired_registered hall _

end Runs

/-! ## A pipeline that runs to its end -/

/-- A backend that compiles and instantiates everything, and components that initialise. -/
def obliging (nodeIdx : ℕ) : Surroundings Unit where
  read := fun _ => .error "not found"
  compileComponent := fun _ => .ok ()
  instantiate := fun _ _ => .ok (some (if nodeIdx = 0 then .dataSource else .dataSink))
  init := .ok (.ok ())

/-- The same, but the component of the second node traps in `init`. -/
def trapping (nodeIdx : ℕ) : Surroundings Unit :=
  { obliging nodeIdx with init := if nodeIdx = 0 then .ok (.ok ()) else .error (.trap "unreachable") }

/-- The flow of the pair. -/
def pairFlow : SpawnedFlow where
  flowId := ⟨1⟩
  config := .defaultWithTopology (flowTopology pairTopology)
  streams := (spawnStreams ⟨1⟩ (.defaultWithTopology (flowTopology pairTopology))).get
    (by decide)
  startedAt := 0
  wallClock := 0
  built := (Option.some_get _).symm
  validated := by decide

/-- The source has nothing to produce. -/
def nothingToDo : List Round :=
  List.replicate 3 (quietRound { forwarding 1 with pull := fun _ => .ok none })

/-- The sink of the pair cannot be initialised, and the source is torn down. -/
theorem paired_trapping : ∃ calls, Ended pairTopology trapping calls ∧
    calls.countP (ComponentCall.isTeardownOf 0) = 1 ∧ Paired calls := by
  obtain ⟨calls, e, hrun, hcount⟩ : ∃ calls e, instantiatePipeline pairTopology trapping
      (fun _ _ => .ok ⟨1⟩) = some (calls, .error e) ∧
        calls.countP (ComponentCall.isTeardownOf 0) = 1 := ⟨_, _, rfl, rfl⟩
  have hended : Ended pairTopology trapping calls := .unregistered _ calls e hrun
  refine ⟨calls, hended, hcount, (paired_iff pairTopology_built hended).mpr (.inl ?_)⟩
  refine ⟨1, _, rfl, ?_⟩
  rintro bindings ⟨bytes, compiled, -, -, hbindings, hinit⟩
  obtain rfl := Except.ok.inj hbindings
  cases hinit rfl

/-- Both components are initialised, the flow completes, and nothing is torn down. -/
theorem unpaired_pairFlow : ∃ calls, Ended pairTopology obliging calls ∧
    (pairFlow.run nothingToDo).state = .completed ∧ ¬Paired calls := by
  have hrun : instantiatePipeline pairTopology obliging (fun _ _ => .ok ⟨1⟩) =
      some ([.init 0 (.ok (.ok ())), .init 1 (.ok (.ok ()))], .ok ⟨1⟩) := rfl
  have hstate : (pairFlow.run nothingToDo).state = .completed := by decide
  refine ⟨_, .terminal _ _ pairFlow nothingToDo hrun rfl ?_, hstate, fun hpaired => ?_⟩
  · rw [hstate]
    rfl
  · have hone := hpaired.once 0 (List.mem_append_left _ List.mem_cons_self)
    have hnone : (driverCalls (pairFlow.run nothingToDo).events).countP
        (ComponentCall.isTeardownOf 0) = 0 := by
      rw [List.countP_eq_zero]
      intro call hcall
      obtain ⟨_, _, rfl⟩ := mem_driverCalls hcall
      simp [ComponentCall.isTeardownOf]
    rw [List.countP_append, hnone] at hone
    cases hone

end Torvyn.Pipeline.Lifecycle
