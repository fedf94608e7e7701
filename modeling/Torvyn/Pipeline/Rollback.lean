/-
# Undoing a partial instantiation

The failure path of `instantiate_pipeline` in `torvyn-pipeline/src/instantiate.rs`.  Components
are initialised in execution order, but their instances are kept by the index of their node, and
`cleanup_partial` walks that list backwards.  The two orders are reverse to each other only if
the nodes that have been initialised are declared in the order in which they are executed.
-/
import Torvyn.Pipeline.Lifecycle

namespace Torvyn.Pipeline.Lifecycle

open Torvyn.Engine Torvyn.Reactor

/-! ## What a failed instantiation owes -/

/-- The node that a call tears down. -/
def ComponentCall.teardown? : ComponentCall → Option ℕ
  | .teardown nodeIdx => some nodeIdx
  | _ => none

/-- The node that a call has initialised. -/
def ComponentCall.initialised? : ComponentCall → Option ℕ
  | .init nodeIdx (.ok (.ok ())) => some nodeIdx
  | _ => none

/-- The nodes that are torn down, one after the other. -/
def teardowns (calls : List ComponentCall) : List ℕ := calls.filterMap ComponentCall.teardown?

/-- The nodes that have been initialised, one after the other. -/
def initialisations (calls : List ComponentCall) : List ℕ :=
  calls.filterMap ComponentCall.initialised?

/-- The calls of an instantiation in which a node fails: what has been initialised is torn down,
once each and in the reverse order, and the node that has failed is not. -/
structure RolledBack (calls : List ComponentCall) (failed : ℕ) : Prop where
  reversed : teardowns calls = (initialisations calls).reverse
  once : (teardowns calls).Nodup
  spared : failed ∉ teardowns calls

section Rollback

variable {Compiled : Type} {t : PipelineTopology} {sur : ℕ → Surroundings Compiled}

/-- The node is instantiated when its turn comes. -/
def Startable (t : PipelineTopology) (sur : ℕ → Surroundings Compiled) (nodeIdx : ℕ) : Prop :=
  ∃ node bindings, t.nodes[nodeIdx]? = some node ∧ Starts (sur nodeIdx) node nodeIdx bindings

/-- The node is instantiated, and its component is one to initialise and to tear down. -/
def Lives (t : PipelineTopology) (sur : ℕ → Surroundings Compiled) (nodeIdx : ℕ) : Prop :=
  ∃ node bindings, t.nodes[nodeIdx]? = some node ∧
    Starts (sur nodeIdx) node nodeIdx bindings ∧ hasLifecycle bindings = true

@[simp] theorem teardowns_append (calls more : List ComponentCall) :
    teardowns (calls ++ more) = teardowns calls ++ teardowns more := List.filterMap_append

@[simp] theorem initialisations_append (calls more : List ComponentCall) :
    initialisations (calls ++ more) = initialisations calls ++ initialisations more :=
  List.filterMap_append

/-! ## The walk up to the node that fails -/

/-- The slots after the nodes of a list have been instantiated. -/
def fill (bindings : ℕ → Option WitBindings) (started : List ℕ) (slots : Slots) : Slots :=
  started.foldl (fun slots nodeIdx => slots.set nodeIdx (some (bindings nodeIdx))) slots

@[simp] theorem length_fill (bindings : ℕ → Option WitBindings) (started : List ℕ)
    (slots : Slots) : (fill bindings started slots).length = slots.length := by
  induction started generalizing slots with
  | nil => rfl
  | cons nodeIdx started ih =>
      show (fill bindings started (slots.set nodeIdx _)).length = slots.length
      rw [ih, List.length_set]

theorem getElem?_fill (bindings : ℕ → Option WitBindings) (started : List ℕ) {slots : Slots}
    {idx : ℕ} (hidx : idx < slots.length) : (fill bindings started slots)[idx]? =
      if idx ∈ started then some (some (bindings idx)) else slots[idx]? := by
  induction started generalizing slots with
  | nil => simp [fill]
  | cons nodeIdx started ih =>
      show (fill bindings started (slots.set nodeIdx _))[idx]? = _
      rw [ih (by rwa [List.length_set])]
      by_cases hmem : idx ∈ started
      · rw [if_pos hmem, if_pos (List.mem_cons_of_mem _ hmem)]
      · rw [if_neg hmem]
        by_cases heq : nodeIdx = idx
        · subst heq
          rw [if_pos List.mem_cons_self, List.getElem?_set_self hidx]
        · rw [List.getElem?_set_ne heq, if_neg]
          rw [List.mem_cons, not_or]
          exact ⟨Ne.symm heq, hmem⟩

/-- **The walk up to a node that fails**: the nodes before it are initialised in their order, and
then the slots that they have filled are cleaned up. -/
theorem instantiateNodes_fails {bindings : ℕ → Option WitBindings} {before : List ℕ}
    {failed : ℕ} {node : TopologyNode} (hnode : t.nodes[failed]? = some node)
    (hfails : ∀ bindings, ¬Starts (sur failed) node failed bindings)
    (hbefore : ∀ idx ∈ before, ∃ node, t.nodes[idx]? = some node ∧
      Starts (sur idx) node idx (bindings idx)) (after : List ℕ) (slots : Slots) :
    ∃ attempt e,
      (∀ call ∈ attempt, ∃ answer, answer ≠ .ok (.ok ()) ∧ call = .init failed answer) ∧
      instantiateNodes t sur (before ++ failed :: after) slots =
        some (before.flatMap (fun idx => initCalls (bindings idx) idx) ++
          (attempt ++ cleanupPartial (fill bindings before slots)), .error e) := by
  induction before generalizing slots with
  | nil =>
      rcases instantiateOneNode_cases t node failed (sur failed) with
        ⟨bindings', hstarts, -⟩ | ⟨-, attempt, e, hone, hattempt⟩
      · exact absurd hstarts (hfails bindings')
      · refine ⟨attempt, e, hattempt, ?_⟩
        rw [List.nil_append, instantiateNodes, hnode, Option.bind_some, hone]
        rfl
  | cons idx before ih =>
      obtain ⟨node', hnode', hstarts⟩ := hbefore idx List.mem_cons_self
      obtain ⟨attempt, e, hattempt, hrest⟩ :=
        ih (fun idx' hidx' => hbefore idx' (List.mem_cons_of_mem _ hidx'))
          (slots.set idx (some (bindings idx)))
      refine ⟨attempt, e, hattempt, ?_⟩
      rcases instantiateOneNode_cases t node' idx (sur idx) with
        ⟨bindings', hstarts', hone⟩ | ⟨hnone, -⟩
      · obtain rfl := hstarts.unique hstarts'
        rw [List.cons_append, instantiateNodes, hnode', Option.bind_some, hone]
        simp only [hrest, Option.map_some, List.flatMap_cons, List.append_assoc]
        rfl
      · exact absurd hstarts (hnone _)

/-! ## The two orders -/

theorem teardowns_invokeTeardown (bindings : Option WitBindings) (nodeIdx : ℕ) :
    teardowns (invokeTeardown bindings nodeIdx) =
      if hasLifecycle bindings then [nodeIdx] else [] := by
  unfold invokeTeardown
  split
  · rfl
  · rfl

theorem cleanupPartial_none (slots : Slots) :
    cleanupPartial (slots ++ [none]) = cleanupPartial slots := by
  unfold cleanupPartial
  rw [List.zipIdx_append, List.reverse_append, List.flatMap_append]
  simp

theorem cleanupPartial_some (slots : Slots) (bindings : Option WitBindings) :
    cleanupPartial (slots ++ [some bindings]) =
      invokeTeardown bindings slots.length ++ cleanupPartial slots := by
  unfold cleanupPartial
  rw [List.zipIdx_append, List.reverse_append, List.flatMap_append]
  simp

/-- The slots are cleaned up from the last to the first. -/
theorem teardowns_cleanupPartial (slots : Slots) : teardowns (cleanupPartial slots) =
    ((List.range slots.length).filter fun idx =>
      slots[idx]?.any fun slot => slot.any hasLifecycle).reverse := by
  induction slots using List.reverseRecOn with
  | nil => rfl
  | append_singleton slots slot ih =>
      have hrange : ((List.range slots.length).filter fun idx =>
          (slots ++ [slot])[idx]?.any fun slot => slot.any hasLifecycle) =
          (List.range slots.length).filter fun idx =>
            slots[idx]?.any fun slot => slot.any hasLifecycle := by
        apply List.filter_congr
        intro idx hidx
        rw [List.getElem?_append_left (List.mem_range.mp hidx)]
      have hget : (slots ++ [slot])[slots.length]? = some slot := by simp
      rw [List.length_append, List.length_singleton, List.range_succ, List.filter_append,
        List.reverse_append, hrange, ← ih]
      cases slot with
      | none =>
          rw [cleanupPartial_none]
          simp
      | some bindings =>
          rw [cleanupPartial_some, teardowns_append, teardowns_invokeTeardown]
          congr 1
          by_cases hlifecycle : hasLifecycle bindings = true
          · simp [hlifecycle]
          · simp [hlifecycle]

/-- The nodes are initialised one after the other. -/
theorem initialisations_flatMap (bindings : ℕ → Option WitBindings) (started : List ℕ) :
    initialisations (started.flatMap fun idx => initCalls (bindings idx) idx) =
      started.filter fun idx => hasLifecycle (bindings idx) := by
  induction started with
  | nil => rfl
  | cons idx started ih =>
      rw [List.flatMap_cons, initialisations_append, ih, List.filter_cons]
      unfold initCalls
      split
      · rfl
      · rfl

theorem teardowns_flatMap (bindings : ℕ → Option WitBindings) (started : List ℕ) :
    teardowns (started.flatMap fun idx => initCalls (bindings idx) idx) = [] := by
  induction started with
  | nil => rfl
  | cons idx started ih =>
      rw [List.flatMap_cons, teardowns_append, ih]
      unfold initCalls
      split
      · rfl
      · rfl

/-- A list that has the elements of a part of a range is that part exactly if it ascends. -/
theorem filter_range_eq_iff {l : List ℕ} {n : ℕ} {p : ℕ → Bool}
    (hmem : ∀ idx, idx ∈ l ↔ idx < n ∧ p idx = true) :
    (List.range n).filter p = l ↔ l.Pairwise (· < ·) := by
  have hsorted : ((List.range n).filter p).Pairwise (· < ·) :=
    List.pairwise_lt_range.filter p
  constructor
  · intro heq
    rwa [heq] at hsorted
  · intro hl
    apply hsorted.eq_of_mem_iff hl
    intro idx
    rw [hmem, List.mem_filter, List.mem_range]

/-- What is called until a node fails, as the two orders. -/
theorem orders_of_attempt (bindings : ℕ → Option WitBindings) (before : List ℕ) (slots : Slots)
    {failed : ℕ} {attempt : List ComponentCall}
    (hattempt : ∀ call ∈ attempt, ∃ answer, answer ≠ .ok (.ok ()) ∧ call = .init failed answer) :
    initialisations (before.flatMap (fun idx => initCalls (bindings idx) idx) ++
        (attempt ++ cleanupPartial slots)) =
      before.filter (fun idx => hasLifecycle (bindings idx)) ∧
    teardowns (before.flatMap (fun idx => initCalls (bindings idx) idx) ++
        (attempt ++ cleanupPartial slots)) = teardowns (cleanupPartial slots) := by
  have hnone : initialisations attempt = [] := by
    apply List.filterMap_eq_nil_iff.mpr
    intro call hcall
    obtain ⟨answer, hanswer, rfl⟩ := hattempt call hcall
    unfold ComponentCall.initialised?
    split
    · rename_i heq
      cases heq
      exact absurd rfl hanswer
    · rfl
  have hundone : initialisations (cleanupPartial slots) = [] := by
    apply List.filterMap_eq_nil_iff.mpr
    intro call hcall
    obtain ⟨idx, bindings', -, -, rfl⟩ := mem_cleanupPartial hcall
    rfl
  have hnothing : teardowns attempt = [] := by
    apply List.filterMap_eq_nil_iff.mpr
    intro call hcall
    obtain ⟨answer, -, rfl⟩ := hattempt call hcall
    rfl
  constructor
  · rw [initialisations_append, initialisations_append, hnone, hundone, initialisations_flatMap,
      List.append_nil, List.append_nil]
  · rw [teardowns_append, teardowns_append, hnothing, teardowns_flatMap, List.nil_append,
      List.nil_append]

/-- **Exactly when a failed instantiation is rolled back in order**: when the nodes with a
lifecycle before the one that fails are executed in the order in which they are declared. -/
theorem rolledBack_iff {order : PortOrder} {name : String} {builderCalls : List BuilderCall}
    (hbuilt : (PipelineTopologyBuilder.ofCalls name builderCalls).build order = .ok t)
    {before after : List ℕ} {failed : ℕ} (horder : t.executionOrder = before ++ failed :: after)
    (hbefore : ∀ idx ∈ before, Startable t sur idx) (hfails : ¬Startable t sur failed)
    (spawnFlow : FlowConfig → ℕ → Except String FlowId) :
    ∃ calls e, instantiatePipeline t sur spawnFlow = some (calls, .error e) ∧
      (RolledBack calls failed ↔
        before.Pairwise fun i j => Lives t sur i → Lives t sur j → i < j) := by
  have hperm := executionOrder_perm hbuilt
  have hnodup : (before ++ failed :: after).Nodup :=
    horder ▸ hperm.nodup_iff.mpr List.nodup_range
  have hlt : ∀ idx ∈ before ++ failed :: after, idx < t.nodes.length := by
    intro idx hidx
    exact List.mem_range.mp (hperm.mem_iff.mp (horder ▸ hidx))
  have hspared : failed ∉ before := by
    intro hmem
    exact List.disjoint_of_nodup_append hnodup hmem List.mem_cons_self
  -- the bindings of the nodes that have been instantiated
  have hstarted : ∀ idx ∈ before, ∃ bindings, ∃ node, t.nodes[idx]? = some node ∧
      Starts (sur idx) node idx bindings := by
    intro idx hidx
    obtain ⟨node, bindings, hnode, hstarts⟩ := hbefore idx hidx
    exact ⟨bindings, node, hnode, hstarts⟩
  choose! bindings hbindings using hstarted
  have hlives : ∀ idx ∈ before, (Lives t sur idx ↔ hasLifecycle (bindings idx) = true) := by
    intro idx hidx
    obtain ⟨node, hnode, hstarts⟩ := hbindings idx hidx
    constructor
    · rintro ⟨node', bindings', hnode', hstarts', hlifecycle⟩
      obtain rfl := Option.some.inj (hnode.symm.trans hnode')
      obtain rfl := hstarts.unique hstarts'
      exact hlifecycle
    · intro hlifecycle
      exact ⟨node, bindings idx, hnode, hstarts, hlifecycle⟩
  have hfailed : failed < t.nodes.length :=
    hlt failed (List.mem_append_right _ List.mem_cons_self)
  obtain ⟨attempt, e, hattempt, hrun⟩ := instantiateNodes_fails (List.getElem?_eq_getElem hfailed)
    (fun bindings' h => hfails ⟨_, bindings', List.getElem?_eq_getElem hfailed, h⟩) hbindings after
    (List.replicate t.nodes.length none)
  have hpipeline : ∀ calls, instantiateNodes t sur t.executionOrder
      (List.replicate t.nodes.length none) = some (calls, .error e) →
      instantiatePipeline t sur spawnFlow = some (calls, .error e) := by
    intro calls hcalls
    rw [instantiatePipeline, hcalls]
    rfl
  refine ⟨_, e, hpipeline _ (horder ▸ hrun), ?_⟩
  obtain ⟨hinitialised, hundone⟩ := orders_of_attempt bindings before
    (fill bindings before (List.replicate t.nodes.length none)) hattempt
  rw [teardowns_cleanupPartial, length_fill, List.length_replicate] at hundone
  -- a slot is torn down if its node has been instantiated, with a lifecycle
  have hmem : ∀ idx, idx ∈ before.filter (fun idx => hasLifecycle (bindings idx)) ↔
      idx < t.nodes.length ∧
        (fill bindings before (List.replicate t.nodes.length none))[idx]?.any
          (fun slot => slot.any hasLifecycle) = true := by
    intro idx
    rw [List.mem_filter]
    constructor
    · rintro ⟨hidx, hlifecycle⟩
      have hbound := hlt idx (List.mem_append_left _ hidx)
      refine ⟨hbound, ?_⟩
      rw [getElem?_fill _ _ (by rwa [List.length_replicate]), if_pos hidx]
      exact hlifecycle
    · rintro ⟨hbound, hslot⟩
      rw [getElem?_fill _ _ (by rwa [List.length_replicate])] at hslot
      by_cases hidx : idx ∈ before
      · rw [if_pos hidx] at hslot
        exact ⟨hidx, hslot⟩
      · rw [if_neg hidx, List.getElem?_replicate, if_pos hbound] at hslot
        cases hslot
  have hcondition : (before.Pairwise fun i j => Lives t sur i → Lives t sur j → i < j) ↔
      (before.filter fun idx => hasLifecycle (bindings idx)).Pairwise (· < ·) := by
    rw [List.pairwise_filter]
    apply List.Pairwise.iff_of_mem
    intro i j hi hj
    rw [hlives i hi, hlives j hj]
  rw [hcondition, ← filter_range_eq_iff hmem]
  constructor
  · intro h
    have hreversed := h.reversed
    rw [hundone, hinitialised] at hreversed
    exact List.reverse_injective hreversed
  · intro heq
    refine ⟨by rw [hundone, hinitialised, heq], ?_, ?_⟩
    · rw [hundone, List.nodup_reverse]
      exact List.nodup_range.filter _
    · rw [hundone, List.mem_reverse, heq, List.mem_filter]
      exact fun h => hspared h.1

end Rollback

/-! ## A processor that is declared first -/

/-- A processor, a source and a sink, in this order. -/
def processorFirst : List BuilderCall :=
  [.addNode "p" .processor "mock://p", .addNode "s" .source "mock://s",
    .addNode "k" .sink "mock://k", .addEdge "s" "output" "p" "input",
    .addEdge "p" "output" "k" "input"]

/-- The pipeline that is built of them. -/
def processorFirstTopology : PipelineTopology :=
  ((PipelineTopologyBuilder.ofCalls "main" processorFirst).build givenOrder).toOption.getD
    ⟨"main", "", [], ∅, [], []⟩

theorem processorFirstTopology_built :
    (PipelineTopologyBuilder.ofCalls "main" processorFirst).build givenOrder =
      .ok processorFirstTopology := by
  rfl

/-- Components with a lifecycle, the last of which traps in `init`. -/
def lastTrapping (nodeIdx : ℕ) : Surroundings Unit where
  read := fun _ => .error "not found"
  compileComponent := fun _ => .ok ()
  instantiate := fun _ _ => .ok (some .managedTransform)
  init := if nodeIdx = 2 then .error (.trap "unreachable") else .ok (.ok ())

/-- The source is initialised before the processor, and torn down before it. -/
theorem source_torn_down_first : ∃ calls e,
    instantiatePipeline processorFirstTopology lastTrapping (fun _ _ => .ok ⟨1⟩) =
      some (calls, .error e) ∧
    initialisations calls = [1, 0] ∧ teardowns calls = [1, 0] ∧ ¬RolledBack calls 2 := by
  refine ⟨_, _, rfl, by decide, by decide, fun h => ?_⟩
  exact absurd h.reversed (by decide)

/-- The sink of the pair fails, and the source before it is torn down. -/
theorem pair_rolledBack : ∃ calls e,
    instantiatePipeline pairTopology trapping (fun _ _ => .ok ⟨1⟩) = some (calls, .error e) ∧
      initialisations calls = [0] ∧ RolledBack calls 1 := by
  have hexact : ∃ calls e,
      instantiatePipeline pairTopology trapping (fun _ _ => .ok ⟨1⟩) = some (calls, .error e) ∧
        (RolledBack calls 1 ↔ [0].Pairwise fun i j =>
          Lives pairTopology trapping i → Lives pairTopology trapping j → i < j) := by
    refine rolledBack_iff pairTopology_built (show _ = [0] ++ 1 :: [] from rfl) ?_ ?_ _
    · rintro idx hidx
      obtain rfl := List.mem_singleton.mp hidx
      exact ⟨_, _, rfl, _, _, rfl, rfl, rfl, fun _ => rfl⟩
    · rintro ⟨node, bindings, hnode, bytes, compiled, hload, hcompile, hinstantiate, hinit⟩
      obtain rfl := Except.ok.inj hinstantiate
      cases hinit rfl
  obtain ⟨calls, e, hrun, hiff⟩ := hexact
  refine ⟨calls, e, hrun, ?_, hiff.mpr (List.pairwise_singleton _ _)⟩
  cases hrun
  decide

end Torvyn.Pipeline.Lifecycle
