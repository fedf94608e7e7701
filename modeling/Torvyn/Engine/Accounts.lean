/-
# The buffers that the host holds for a flow

The stores of all flows share one manager, and the entry of a buffer says for which flow it was
allocated. The buffers of a flow are accounted for when each of them that the host owns is in
one of the flow's queues, or is the input of the call that is going on.

A call of a host function never takes such a buffer out of a queue, and the reclaim at the end
of a call releases the input, once.
-/
import Torvyn.Engine.Wrappers

namespace Torvyn.Engine

open ResourceManager

/-! ## What a call of a host function leaves -/

namespace Called

variable {h h' : HostState} {handle : BufferHandle} {entry' : ResourceEntry}

/-- A store stays with its flow. -/
theorem flowId_eq (hcalled : Called h h') : h'.flowId = h.flowId := by
  cases hcalled <;> rfl

/-- Of what is live after an insertion only the new entry has not been live before. -/
theorem entry_inserted {new : BufferHandle} {entry : ResourceEntry} {m : ResourceManager}
    (hentry : Allotted h entry) (hins : h.resources.table.Inserted m.table new.resourceId entry)
    (hget : m.table.get handle = .ok entry') :
    (∃ entry, h.resources.table.get handle = .ok entry ∧ entry.owner = entry'.owner ∧
        entry.flowId = entry'.flowId) ∨
      (∀ entry, h.resources.table.get handle ≠ .ok entry) ∧ Allotted h entry' := by
  rcases List.mem_cons.1 (hins.live.mem_iff.1 (ResourceTable.get_eq_ok.1 hget)) with heq | hmem
  · obtain ⟨hid, rfl⟩ := Prod.mk.inj heq
    refine .inr ⟨fun entry hold => hins.fresh ?_, hentry⟩
    rw [← hid]
    exact List.mem_map_of_mem (ResourceTable.get_eq_ok.1 hold)
  · exact .inl ⟨entry', ResourceTable.get_eq_ok.2 hmem, rfl, rfl⟩

/-- **What is live afterwards** was live before, of the same owner and flow, or has just been
allocated to the component. -/
theorem entry (hcalled : Called h h') (hget : h'.resources.table.get handle = .ok entry') :
    (∃ entry, h.resources.table.get handle = .ok entry ∧ entry.owner = entry'.owner ∧
        entry.flowId = entry'.flowId) ∨
      (∀ entry, h.resources.table.get handle ≠ .ok entry) ∧ Allotted h entry' := by
  cases hcalled with
  | quiet m hsame =>
    have hmem := hsame.live.mem_iff.1 (ResourceTable.get_eq_ok.1 hget)
    exact .inl ⟨entry', ResourceTable.get_eq_ok.2 hmem, rfl, rfl⟩
  | wrote rep wrapper entry newEnd m _ _ hrep =>
    rcases hrep.cases (ResourceTable.get_eq_ok.1 hget) with heq | ⟨hmem, -⟩
    · obtain ⟨hid, rfl⟩ := Prod.mk.inj heq
      obtain ⟨rest, hlive, -⟩ := hrep.live
      refine .inl ⟨entry, ?_, rfl, rfl⟩
      rw [ResourceTable.get_eq_ok, hid]
      exact hlive.mem_iff.2 List.mem_cons_self
    · exact .inl ⟨entry', ResourceTable.get_eq_ok.2 hmem, rfl, rfl⟩
  | lost new entry m hentry hins => exact entry_inserted hentry hins hget
  | gained new entry m rep hentry hins => exact entry_inserted hentry hins hget
  | unwrapped | froze | forgot => exact .inl ⟨entry', hget, rfl, rfl⟩
  | dropped rep wrapper entry m _ _ hrem =>
    have hmem := hrem.live.mem_iff.2 (List.mem_cons_of_mem _ (ResourceTable.get_eq_ok.1 hget))
    exact .inl ⟨entry', ResourceTable.get_eq_ok.2 hmem, rfl, rfl⟩

/-- Where a changed table has a wrapper. -/
theorem of_update {table : WrapperTable} {rep rep' : ℕ} {w : Option Wrapper} {wrapper : Wrapper}
    (h : Function.update table rep' w rep = some wrapper) :
    w = some wrapper ∨ table rep = some wrapper := by
  by_cases heq : rep = rep'
  · rw [heq, Function.update_self] at h
    exact .inl h
  · rw [Function.update_of_ne heq] at h
    exact .inr h

/-- **A wrapper** names what a wrapper has named before, or a new buffer, or nothing. -/
theorem wrapper (hcalled : Called h h') {rep : ℕ} {wrapper : Wrapper}
    (hrep : h'.table rep = some wrapper) :
    (∃ rep₀ wrapper₀, h.table rep₀ = some wrapper₀ ∧ wrapper₀.handle = wrapper.handle) ∨
      (∀ entry, h.resources.table.get wrapper.handle ≠ .ok entry) ∨
      wrapper.handle = frozenSentinel := by
  have hspent : ∀ old : Wrapper, some old.spent = some wrapper →
      wrapper.handle = frozenSentinel := by
    rintro old ⟨⟩
    rfl
  cases hcalled with
  | quiet | wrote | lost => exact .inl ⟨rep, wrapper, hrep, rfl⟩
  | gained new entry m rep' _ hins =>
    rcases of_update hrep with heq | hold
    · obtain rfl := Option.some.inj heq
      refine .inr (.inl fun entry hget => hins.fresh ?_)
      exact List.mem_map_of_mem (ResourceTable.get_eq_ok.1 hget)
    · exact .inl ⟨rep, wrapper, hold, rfl⟩
  | unwrapped rep' old =>
    rcases of_update hrep with heq | hold
    · exact .inr (.inr (hspent old heq))
    · exact .inl ⟨rep, wrapper, hold, rfl⟩
  | froze rep' old frozen hold =>
    rcases of_update hrep with heq | hrest
    · obtain rfl := Option.some.inj heq
      exact .inl ⟨rep', old, hold, rfl⟩
    · rcases of_update hrest with heq | hrest
      · exact .inr (.inr (hspent old heq))
      · exact .inl ⟨rep, wrapper, hrest, rfl⟩
  | dropped | forgot =>
    rcases of_update hrep with heq | hold
    · cases heq
    · exact .inl ⟨rep, wrapper, hold, rfl⟩

/-- **An immutable wrapper stays** as long as its buffer does. -/
theorem kept {e : EngineState} {s rep : ℕ} {wrapper : Wrapper} (hbacked : e.Backed)
    (hcalled : Called (e.store s) h') (hrep : (e.stores s).table rep = some wrapper)
    (hkind : wrapper.kind = .buffer) (hget : h'.resources.table.get wrapper.handle = .ok entry') :
    h'.table rep = some wrapper := by
  have hrep : (e.store s).table rep = some wrapper := hrep
  -- a place that is empty, or that has a mutable wrapper, is another one
  have hne_of_none : ∀ {rep'}, (e.store s).table rep' = none → rep ≠ rep' := by
    rintro rep' hnone rfl
    cases hrep.symm.trans hnone
  have hne_of_mutable : ∀ {rep' old}, (e.store s).table rep' = some old →
      old.kind = .mutableBuffer → rep ≠ rep' := by
    rintro rep' old hold hmutable rfl
    obtain rfl := Option.some.inj (hrep.symm.trans hold)
    cases hkind.symm.trans hmutable
  cases hcalled with
  | quiet | wrote | lost => exact hrep
  | gained new entry m rep' _ _ hnone =>
    exact (Function.update_of_ne (hne_of_none hnone) ..).trans hrep
  | unwrapped rep' old hold hmutable =>
    exact (Function.update_of_ne (hne_of_mutable hold hmutable) ..).trans hrep
  | froze rep' old frozen hold hmutable hnone =>
    have hkept :=
      (Function.update_of_ne (hne_of_mutable hold hmutable) (some old.spent) _).trans hrep
    have hne : rep ≠ frozen := by
      rintro rfl
      cases hkept.symm.trans hnone
    exact (Function.update_of_ne hne ..).trans hkept
  | dropped rep' old entry m hold _ hrem =>
    refine (Function.update_of_ne ?_ ..).trans hrep
    rintro rfl
    obtain rfl := Option.some.inj (hrep.symm.trans hold)
    exact EngineState.get_removed hrem entry' hget
  | forgot rep' old hold hnothing =>
    refine (Function.update_of_ne ?_ ..).trans hrep
    rintro rfl
    obtain rfl := Option.some.inj (hrep.symm.trans hold)
    have hne : wrapper.handle ≠ frozenSentinel := hbacked.ne_sentinel hget
    obtain ⟨m, hrelease, -⟩ := EngineState.release_owned hbacked hold hne
    rcases hnothing with hsentinel | ⟨err, hrefused⟩
    · exact hne hsentinel
    · cases hrelease.symm.trans hrefused

end Called

namespace EngineState

/-! ## What the host owns -/

/-- The host owns the buffer, which was allocated for the flow. -/
def hostOwns (flowId : FlowId) (handle : BufferHandle) (e : EngineState) : Bool :=
  match e.resources.table.get handle with
  | .ok entry => decide (entry.owner = .host ∧ entry.flowId = flowId)
  | .error _ => false

/-- The event ends the life of a buffer that the host owns for the flow. -/
def releases (flowId : FlowId) (handle : BufferHandle) (e : EngineState) (event : Timed) : Bool :=
  e.hostOwns flowId handle && !((e.next event).resources.table.get handle).toBool

section Owned

variable {e : EngineState} {flowId : FlowId} {handle : BufferHandle} {s : ℕ} {h : HostState}

theorem hostOwns_iff : e.hostOwns flowId handle = true ↔
    ∃ entry, e.resources.table.get handle = .ok entry ∧ entry.owner = .host ∧
      entry.flowId = flowId := by
  unfold hostOwns
  cases hget : e.resources.table.get handle with
  | error err => simp
  | ok entry => simp

/-- Every wrapper of a store names a buffer of the store's flow. -/
def OfFlow (e : EngineState) : Prop :=
  ∀ ⦃s rep wrapper entry⦄, (e.stores s).table rep = some wrapper →
    e.resources.table.get wrapper.handle = .ok entry → entry.flowId = (e.stores s).flowId

/-- Putting back a store without changing it. -/
@[simp] theorem put_store (e : EngineState) (s : ℕ) : e.put s (e.store s) = e := by
  simp [put, store]

theorem put_flowId (hflow : h.flowId = (e.stores s).flowId) (s' : ℕ) :
    ((e.put s h).stores s').flowId = (e.stores s').flowId := by
  by_cases hs : s' = s
  · subst hs
    simp [put, hflow]
  · simp [put, hs]

theorem OfFlow.put (hof : e.OfFlow) (hflow : h.flowId = (e.stores s).flowId)
    (htable : ∀ rep wrapper, h.table rep = some wrapper → (e.stores s).table rep = some wrapper)
    (hentry : ∀ handle entry', h.resources.table.get handle = .ok entry' →
      ∃ entry, e.resources.table.get handle = .ok entry ∧ entry.flowId = entry'.flowId) :
    (e.put s h).OfFlow := by
  intro s' rep wrapper entry' hrep hget
  obtain ⟨entry, hold, heq⟩ := hentry _ entry' hget
  rw [put_flowId hflow, ← heq]
  rw [put_table] at hrep
  split_ifs at hrep with hs
  · subst hs
    exact hof (htable rep wrapper hrep) hold
  · exact hof hrep hold

/-- Handing an element on changes no resource. -/
theorem resources_marshal (e : EngineState) (wt : Wasmtime) (s : ℕ) (element : StreamElement) :
    (e.step wt (.marshal s element)).resources = e.resources := by
  show ((e.store s).toWitStreamElement wt element).2.resources = _
  rcases HostState.marshal_cases wt element (e.store s) with ⟨-, heq⟩ | ⟨rep, -, -, heq⟩ <;>
  · rw [heq]
    rfl

/-- A flow hands its own elements on. -/
theorem OfFlow.marshal (hof : e.OfFlow) (wt : Wasmtime) {element : StreamElement}
    (hentry : ∀ entry, e.resources.table.get element.payload = .ok entry →
      entry.flowId = (e.stores s).flowId) : (e.step wt (.marshal s element)).OfFlow := by
  rcases HostState.marshal_cases wt element (e.store s) with ⟨-, heq⟩ | ⟨rep, -, -, heq⟩
  · simp only [EngineState.step, heq, put_store]
    exact hof
  · simp only [EngineState.step, heq]
    intro s' rep' wrapper entry hrep hget
    show entry.flowId = ((e.put s _).stores s').flowId
    rw [put_flowId rfl]
    have hrep : ((e.put s _).stores s').table rep' = some wrapper := hrep
    have hget : e.resources.table.get wrapper.handle = .ok entry := hget
    rw [put_table] at hrep
    split_ifs at hrep with hs
    · subst hs
      rcases Called.of_update hrep with hnew | hold
      · obtain rfl := Option.some.inj hnew
        exact hentry entry hget
      · exact hof hold hget
    · exact hof hrep hget

end Owned

/-! ## Buffers that are accounted for -/

/-- The wrapper with which the call that is going on has been handed its input. -/
def Holds (input : Option (ℕ × ℕ)) (handle : BufferHandle) (e : EngineState) : Prop :=
  ∃ s rep, input = some (s, rep) ∧ (e.stores s).table rep = some ⟨.buffer, handle, .host⟩

/-- **The buffers of a flow are accounted for**: what is queued is the runtime's, and what the
host owns for the flow is queued, or is the input of the call that is going on. -/
structure Accounted (flowId : FlowId) (queue : List BufferHandle) (input : Option (ℕ × ℕ))
    (e : EngineState) : Prop where
  backed : e.Backed
  ofFlow : e.OfFlow
  nodup : queue.Nodup
  queued : ∀ handle ∈ queue, handle ∈ e.inFlight ∧
    ∃ entry, e.resources.table.get handle = .ok entry ∧ entry.flowId = flowId
  settled : ∀ handle, e.hostOwns flowId handle = true → handle ∈ queue ∨ e.Holds input handle

namespace Accounted

variable {e : EngineState} {flowId : FlowId} {handle : BufferHandle} {queue : List BufferHandle}
  {input : Option (ℕ × ℕ)} {s rep : ℕ} {h' : HostState} {wt : Wasmtime}

/-- What is queued is the host's. -/
theorem hostOwns (h : Accounted flowId queue input e) (hmem : handle ∈ queue) :
    e.hostOwns flowId handle = true := by
  obtain ⟨hflight, entry, hget, hflow⟩ := h.queued handle hmem
  have hclaim : e.claims (.runtime handle) = some ⟨handle, .host⟩ := if_pos hflight
  obtain ⟨found, hfound, howned⟩ := h.backed.owned hclaim
  obtain rfl := Except.ok.inj (hget.symm.trans (ResourceTable.get_eq_ok.2 hfound))
  exact hostOwns_iff.2 ⟨entry, hget, howned.owner, hflow⟩

/-- No wrapper names what is queued. -/
theorem unwrapped (h : Accounted flowId queue input e) (hmem : handle ∈ queue) {wrapper : Wrapper}
    (hrep : (e.stores s).table rep = some wrapper) : wrapper.handle ≠ handle := by
  rintro rfl
  obtain ⟨hflight, entry, hget, -⟩ := h.queued _ hmem
  have hclaim := claims_wrapper hrep (h.backed.ne_sentinel hget)
  have hclaim' : e.claims (.runtime wrapper.handle) = some ⟨wrapper.handle, .host⟩ := if_pos hflight
  cases h.backed.exclusive hclaim hclaim' rfl

/-- Between two calls the flow's components have no wrapper in the host's name. -/
theorem not_host (h : Accounted flowId queue none e) (hflow : (e.stores s).flowId = flowId)
    {wrapper : Wrapper} (hrep : (e.stores s).table rep = some wrapper)
    (hne : wrapper.handle ≠ frozenSentinel) : wrapper.owner ≠ .host := by
  intro hhost
  obtain ⟨entry, hmem, howned⟩ := h.backed.owned (claims_wrapper hrep hne)
  have hget := ResourceTable.get_eq_ok.2 hmem
  have howns : e.hostOwns flowId wrapper.handle = true :=
    hostOwns_iff.2 ⟨entry, hget, howned.owner.trans hhost, (h.ofFlow hrep hget).trans hflow⟩
  rcases h.settled _ howns with hqueued | ⟨s', rep', hnone, -⟩
  · exact h.unwrapped hqueued hrep rfl
  · cases hnone

/-- **A call of a host function** keeps the buffers accounted for. -/
theorem called (h : Accounted flowId queue input e) (hcalled : Called (e.store s) h') :
    Accounted flowId queue input (e.put s h') where
  backed := h.backed.called hcalled
  ofFlow s' rep wrapper entry' hrep hget := by
    rw [put_flowId hcalled.flowId_eq]
    rw [put_table] at hrep
    have hne : wrapper.handle ≠ frozenSentinel := (h.backed.called hcalled).ne_sentinel hget
    rcases hcalled.entry hget with ⟨entry, hold, -, hflow⟩ | ⟨hnew, hentry⟩
    · rw [← hflow]
      split_ifs at hrep with hs
      · subst hs
        rcases hcalled.wrapper hrep with ⟨rep₀, wrapper₀, hrep₀, hhandle⟩ | hnew | hsentinel
        · exact h.ofFlow hrep₀ (hhandle ▸ hold)
        · exact absurd hold (hnew entry)
        · exact absurd hsentinel hne
      · exact h.ofFlow hrep hold
    · split_ifs at hrep with hs
      · rw [hs]
        exact hentry.flowId
      · -- another store has not named what is new
        obtain ⟨entry, hmem, -⟩ := h.backed.owned (claims_wrapper hrep hne)
        exact absurd (ResourceTable.get_eq_ok.2 hmem) (hnew entry)
  nodup := h.nodup
  queued handle hmem := by
    obtain ⟨hflight, entry, hget, hflow⟩ := h.queued handle hmem
    have hclaim : (e.put s h').claims (.runtime handle) = some ⟨handle, .host⟩ := if_pos hflight
    obtain ⟨entry', hmem', -⟩ := (h.backed.called hcalled).owned hclaim
    have hget' : h'.resources.table.get handle = .ok entry' := ResourceTable.get_eq_ok.2 hmem'
    rcases hcalled.entry hget' with ⟨found, hfound, -, hsame⟩ | ⟨hnew, -⟩
    · obtain rfl := Except.ok.inj (hget.symm.trans hfound)
      exact ⟨hflight, entry', hget', hsame.symm.trans hflow⟩
    · exact absurd hget (hnew entry)
  settled handle howns := by
    obtain ⟨entry', hget, howner, hflow⟩ := hostOwns_iff.1 howns
    rcases hcalled.entry hget with ⟨entry, hold, howner', hflow'⟩ | ⟨-, hentry⟩
    · have hsettled := h.settled handle
        (hostOwns_iff.2 ⟨entry, hold, howner'.trans howner, hflow'.trans hflow⟩)
      refine hsettled.imp_right ?_
      rintro ⟨s₀, rep, rfl, hrep⟩
      refine ⟨s₀, rep, rfl, ?_⟩
      rw [put_table]
      split_ifs with hs
      · subst hs
        exact Called.kept h.backed hcalled hrep rfl hget
      · exact hrep
    · cases hentry.owner.symm.trans howner

/-- An input comes into a store: it leaves the queue and is held by its wrapper. -/
theorem marshal {element : StreamElement} (h : Accounted flowId (element.payload :: queue) none e)
    (hflow : (e.stores s).flowId = flowId) (hplace : wt.place (e.stores s).table = some rep) :
    Accounted flowId queue (some (s, rep)) (e.step wt (.marshal s element)) := by
  obtain ⟨hfresh, hnodup⟩ := List.nodup_cons.1 h.nodup
  obtain ⟨hflight, entry, hget, hentry⟩ := h.queued _ List.mem_cons_self
  have hbacked : (e.step wt (.marshal s element)).Backed := h.backed.step _ hflight
  rcases HostState.marshal_cases wt element (e.store s) with ⟨hnone, -⟩ | ⟨rep', hrep', -, heq⟩
  · cases hplace.symm.trans hnone
  obtain rfl := Option.some.inj (hplace.symm.trans hrep')
  have hof := h.ofFlow.marshal wt fun found hfound => by
    obtain rfl := Except.ok.inj (hget.symm.trans hfound)
    exact hentry.trans hflow.symm
  simp only [EngineState.step, heq] at hbacked hof ⊢
  refine ⟨hbacked, hof, hnodup, fun handle hmem => ?_, fun handle howns => ?_⟩
  · obtain ⟨hflight, hlive⟩ := h.queued handle (List.mem_cons_of_mem _ hmem)
    have hne : handle ≠ element.payload := by
      rintro rfl
      exact hfresh hmem
    exact ⟨Finset.mem_erase.2 ⟨hne, hflight⟩, hlive⟩
  · rcases h.settled handle howns with hmem | ⟨s', rep', hnone, -⟩
    · rcases List.mem_cons.1 hmem with rfl | hmem
      · refine .inr ⟨s, rep, rfl, ?_⟩
        show ((e.put s _).stores s).table rep = _
        rw [put_table, if_pos rfl]
        exact Function.update_self ..
      · exact .inl hmem
    · cases hnone

/-- A reclaimed wrapper is no longer in the table. -/
theorem table_reclaim (wt : Wasmtime) (rep : ℕ) (componentId : ComponentId) (h : HostState)
    (wrapper : Wrapper) (hkind : wrapper.kind = .buffer) :
    (h.reclaimInputElement wt rep componentId).2.table rep ≠ some wrapper := by
  unfold HostState.reclaimInputElement WrapperTable.delete
  cases hget : h.table.get .buffer rep with
  | error err =>
    intro hrep
    cases hget.symm.trans (WrapperTable.get_eq_ok.2 ⟨hrep, hkind⟩)
  | ok found =>
    dsimp only
    split <;> simp

/-- **The input is reclaimed**, whatever the component has done. -/
theorem reclaim (wt : Wasmtime) (h : Accounted flowId queue (some (s, rep)) e) :
    Accounted flowId queue none (e.step wt (.reclaim s rep)) := by
  have hcalled := h.called (@Backed.called_reclaim e s wt h.backed rep (e.stores s).componentId)
  refine ⟨hcalled.backed, hcalled.ofFlow, hcalled.nodup, hcalled.queued, fun handle howns => ?_⟩
  rcases hcalled.settled handle howns with hmem | ⟨s', rep', heq, hrep⟩
  · exact .inl hmem
  · obtain ⟨rfl, rfl⟩ := Prod.mk.inj (Option.some.inj heq)
    rw [put_table, if_pos rfl] at hrep
    exact absurd hrep (table_reclaim wt _ _ _ _ rfl)

/-- What is found after an entry has been replaced. -/
theorem get_replaced {table table' : ResourceTable} {other : BufferHandle}
    {entry entry' found : ResourceEntry} (hrep : table.Replaced table' handle entry entry')
    (hget : table'.get other = .ok found) :
    other = handle ∧ found = entry' ∨ table.get other = .ok found := by
  rcases hrep.cases (ResourceTable.get_eq_ok.1 hget) with heq | ⟨hmem, -⟩
  · obtain ⟨hid, rfl⟩ := Prod.mk.inj heq
    exact .inl ⟨congrArg BufferHandle.mk hid, rfl⟩
  · exact .inr (ResourceTable.get_eq_ok.2 hmem)

/-- A wrapper that is taken out of its table without its buffer. -/
theorem forget (h : Accounted flowId queue none e) (out : ℕ) (hbacked : (e.put s
    { e.store s with table := Function.update (e.stores s).table out none }).Backed) :
    Accounted flowId queue none
      (e.put s { e.store s with table := Function.update (e.stores s).table out none }) where
  backed := hbacked
  ofFlow := by
    refine h.ofFlow.put rfl (fun rep wrapper hrep => ?_) fun handle entry hget => ⟨entry, hget, rfl⟩
    rcases Called.of_update hrep with hnone | hold
    · cases hnone
    · exact hold
  nodup := h.nodup
  queued := h.queued
  settled handle howns := (h.settled handle howns).imp_right fun ⟨_, _, hnone, _⟩ => by cases hnone

/-- What a store hands out, if its flow is this one. -/
def handedOut (flowId : FlowId) (s : ℕ) (e : EngineState)
    (result : Except ProcessError OutputElement) : List BufferHandle :=
  if (e.stores s).flowId = flowId then (result.toOption.map OutputElement.payload).toList else []

/-- **An output is handed out** to the runtime of its flow. -/
theorem convert (wt : Wasmtime) (out : WitOutputElement) (h : Accounted flowId queue none e) :
    Accounted flowId (handedOut flowId s e
        ((e.store s).convertOutputElement wt out (e.stores s).componentId).1 ++ queue) none
      (e.step wt (.convert s out)) := by
  have hbacked : (e.step wt (.convert s out)).Backed := h.backed.step _ trivial
  rcases HostState.convert_cases wt out (e.stores s).componentId (e.store s) with
    ⟨err, heq⟩ | ⟨err, wrapper, hrep, heq, -⟩ | ⟨wrapper, entry, m, hrep, hget, -, hm, heq⟩
  · simp only [EngineState.step, heq, put_store, handedOut, Except.toOption, Option.map_none,
      Option.toList_none, ite_self, List.nil_append]
    exact h
  · simp only [EngineState.step, heq] at hbacked
    simp only [EngineState.step, heq, handedOut, Except.toOption, Option.map_none,
      Option.toList_none, ite_self, List.nil_append]
    exact h.forget out.payload hbacked
  · have hreplaced := ResourceTable.Replaced.of_put hget { entry with owner := .host } rfl
    rw [← hm] at hreplaced
    have hflow : entry.flowId = (e.stores s).flowId := h.ofFlow hrep hget
    simp only [EngineState.step, heq] at hbacked
    simp only [EngineState.step, heq, handedOut, Except.toOption, Option.map_some,
      Option.toList_some]
    have hfree : ∀ handle ∈ queue, handle ≠ wrapper.handle := fun handle hmem =>
      (h.unwrapped hmem hrep).symm
    have hqueued : ∀ handle ∈ queue, handle ∈ insert wrapper.handle e.inFlight ∧
        ∃ entry, m.table.get handle = .ok entry ∧ entry.flowId = flowId := by
      intro handle hmem
      obtain ⟨hflight, found, hfound, hsame⟩ := h.queued handle hmem
      refine ⟨Finset.mem_insert_of_mem hflight, found, ?_, hsame⟩
      refine ResourceTable.get_eq_ok.2 (hreplaced.mem_of_ne (ResourceTable.get_eq_ok.1 hfound) ?_)
      exact fun hid => hfree handle hmem (congrArg BufferHandle.mk hid)
    -- the host owns what it has been handed, and what it has owned before
    have hsettled : ∀ handle entry', m.table.get handle = .ok entry' → entry'.owner = .host →
        entry'.flowId = flowId →
        handle = wrapper.handle ∧ (e.stores s).flowId = flowId ∨ handle ∈ queue := by
      intro handle entry' hget' howner hflow'
      rcases get_replaced hreplaced hget' with ⟨rfl, rfl⟩ | hold
      · exact .inl ⟨rfl, hflow.symm.trans hflow'⟩
      · rcases h.settled handle (hostOwns_iff.2 ⟨entry', hold, howner, hflow'⟩) with
          hmem | ⟨_, _, hnone, _⟩
        · exact .inr hmem
        · cases hnone
    have hof : (e.put s { e.store s with
        table := Function.update (e.stores s).table out.payload none, resources := m }).OfFlow := by
      refine h.ofFlow.put rfl (fun rep wrapper hrep => ?_) fun handle entry' hget' => ?_
      · exact (Called.of_update hrep).resolve_left (by simp)
      · rcases get_replaced hreplaced hget' with ⟨rfl, rfl⟩ | hold
        · exact ⟨entry, hget, rfl⟩
        · exact ⟨entry', hold, rfl⟩
    split_ifs with hs
    · refine ⟨hbacked, hof, List.nodup_cons.2 ⟨fun hmem => hfree _ hmem rfl, h.nodup⟩,
        fun handle hmem => ?_, fun handle howns => .inl ?_⟩
      · rcases List.mem_cons.1 hmem with rfl | hmem
        · exact ⟨Finset.mem_insert_self _ _, _,
            ResourceTable.get_eq_ok.2 hreplaced.mem, hflow.trans hs⟩
        · exact hqueued handle hmem
      · obtain ⟨entry', hget', howner, hflow'⟩ := hostOwns_iff.1 howns
        rcases hsettled handle entry' hget' howner hflow' with ⟨rfl, -⟩ | hmem
        · exact List.mem_cons_self
        · exact List.mem_cons_of_mem _ hmem
    · refine ⟨hbacked, hof, h.nodup, hqueued, fun handle howns => .inl ?_⟩
      obtain ⟨entry', hget', howner, hflow'⟩ := hostOwns_iff.1 howns
      exact (hsettled handle entry' hget' howner hflow').resolve_left fun hown => hs hown.2

end Accounted

/-! ## What else happens to the stores -/

section Elsewhere

variable {e : EngineState} {flowId : FlowId} {queue : List BufferHandle} {event : Timed}
  {events : List Timed}

/-- What can happen while none of the flow's elements moves: a component calls a host function,
or an element of another flow moves. -/
def Elsewhere (flowId : FlowId) (e : EngineState) (event : Timed) : Prop :=
  match event.2 with
  | .call _ _ => True
  | .reclaim s _ | .convert s _ => (e.stores s).flowId ≠ flowId
  | .marshal s element => (e.stores s).flowId ≠ flowId ∧ element.payload ∈ e.inFlight ∧
      ∀ entry, e.resources.table.get element.payload = .ok entry →
        entry.flowId = (e.stores s).flowId

/-- An event leaves every store with its flow. -/
theorem flowId_step (e : EngineState) (wt : Wasmtime) (event : Event) (s' : ℕ) :
    ((e.step wt event).stores s').flowId = (e.stores s').flowId := by
  cases event with
  | call s call => exact put_flowId (Called.call wt _ call).flowId_eq s'
  | marshal s element =>
    show ((e.put s _).stores s').flowId = _
    rcases HostState.marshal_cases wt element (e.store s) with ⟨-, heq⟩ | ⟨rep, -, -, heq⟩ <;>
    · rw [heq]
      exact put_flowId rfl s'
  | convert s out =>
    rcases HostState.convert_cases wt out (e.stores s).componentId (e.store s) with
      ⟨err, heq⟩ | ⟨err, wrapper, -, heq, -⟩ | ⟨wrapper, entry, m, -, -, -, -, heq⟩ <;>
    · simp only [EngineState.step, heq]
      exact put_flowId rfl s'
  | reclaim s inputRep =>
    show ((e.put s _).stores s').flowId = _
    rcases HostState.reclaim_cases wt inputRep (e.stores s).componentId (e.store s) with
      ⟨err, heq⟩ | ⟨err, wrapper, -, heq, -⟩ | ⟨wrapper, entry, m, -, -, -, -, heq⟩ <;>
    · rw [heq]
      exact put_flowId rfl s'

theorem flowId_run (events : List Timed) (e : EngineState) (s : ℕ) :
    ((e.run events).stores s).flowId = (e.stores s).flowId := by
  induction events generalizing e with
  | nil => rfl
  | cons event events ih => exact (ih _).trans (flowId_step e event.1 event.2 s)

/-- **What happens elsewhere** leaves the flow's buffers accounted for. -/
theorem Accounted.elsewhere (h : Accounted flowId queue none e) (helse : Elsewhere flowId e event) :
    Accounted flowId queue none (e.next event) := by
  obtain ⟨wt, event⟩ := event
  cases event with
  | call s call => exact h.called (Called.call wt _ call)
  | reclaim s inputRep => exact h.called (h.backed.called_reclaim inputRep _)
  | convert s out =>
    have hconvert := h.convert (s := s) wt out
    rwa [handedOut, if_neg helse, List.nil_append] at hconvert
  | marshal s element =>
    obtain ⟨hother, hflight, hentry⟩ := helse
    have hbacked : (e.step wt (.marshal s element)).Backed := h.backed.step _ hflight
    refine ⟨hbacked, h.ofFlow.marshal wt hentry, h.nodup, fun handle hmem => ?_,
      fun handle howns => ?_⟩
    · obtain ⟨hqueued, entry, hget, hflow⟩ := h.queued handle hmem
      have hne : handle ≠ element.payload := by
        rintro rfl
        exact hother ((hentry entry hget).symm.trans hflow)
      refine ⟨Finset.mem_erase.2 ⟨hne, hqueued⟩, entry, ?_, hflow⟩
      show (e.step wt (.marshal s element)).resources.table.get handle = _
      rw [resources_marshal, hget]
    · refine (h.settled handle ?_).imp_right fun ⟨_, _, hnone, _⟩ => by cases hnone
      rw [← howns]
      show _ = EngineState.hostOwns flowId handle (e.step wt (.marshal s element))
      simp only [EngineState.hostOwns, resources_marshal]

theorem Accounted.run_elsewhere (h : Accounted flowId queue none e)
    (helse : Guarded next (Elsewhere flowId) e events) :
    Accounted flowId queue none (e.run events) :=
  helse.invariant (fun _ _ helse h => h.elsewhere helse) h

end Elsewhere

/-! ## A call with an input -/

section Input

variable {e : EngineState} {flowId : FlowId} {handle : BufferHandle} {queue : List BufferHandle}
  {s rep : ℕ} {h' : HostState} {wt : Wasmtime}

/-- What happens to a store in a call that returns: it is handed an element, the component calls
host functions, and the element is reclaimed. -/
def inputEvents (wt : Wasmtime) (s : ℕ) (element : StreamElement) (calls : List HostCall)
    (input : ℕ) : List Timed :=
  (wt, .marshal s element) :: (calls.map fun call => (wt, .call s call)) ++ [(wt, .reclaim s input)]

/-- A component takes a buffer of the host only by releasing it, and never makes one. -/
theorem hostOwns_called (hcalled : Called (e.store s) h') :
    (if (e.put s h').hostOwns flowId handle then 0 else 1) =
      (if e.hostOwns flowId handle then 0 else 1) +
        if e.hostOwns flowId handle && !(h'.resources.table.get handle).toBool then 1 else 0 := by
  have hback : (e.put s h').hostOwns flowId handle = true → e.hostOwns flowId handle = true := by
    intro howns
    obtain ⟨entry', hget, howner, hflow⟩ := hostOwns_iff.1 howns
    rcases hcalled.entry hget with ⟨entry, hold, howner', hflow'⟩ | ⟨-, hentry⟩
    · exact hostOwns_iff.2 ⟨entry, hold, howner'.trans howner, hflow'.trans hflow⟩
    · cases hentry.owner.symm.trans howner
  cases howns : e.hostOwns flowId handle with
  | false =>
    have hnot : (e.put s h').hostOwns flowId handle = false := by
      rw [← Bool.not_eq_true]
      intro hafter
      cases howns.symm.trans (hback hafter)
    simp [hnot]
  | true =>
    obtain ⟨entry, hget, howner, hflow⟩ := hostOwns_iff.1 howns
    cases hget' : h'.resources.table.get handle with
    | error err =>
      have hget' : (e.put s h').resources.table.get handle = .error err := hget'
      simp [EngineState.hostOwns, hget', Except.toBool]
    | ok entry' =>
      have hkept : (e.put s h').hostOwns flowId handle = true := by
        rcases hcalled.entry hget' with ⟨found, hfound, howner', hflow'⟩ | ⟨hnew, -⟩
        · obtain rfl := Except.ok.inj (hget.symm.trans hfound)
          exact hostOwns_iff.2 ⟨entry', hget', howner'.symm.trans howner, hflow'.symm.trans hflow⟩
        · exact absurd hget (hnew entry)
      simp [hkept, Except.toBool]

/-- Calls of host functions and reclaims. -/
def Inside (event : Timed) : Prop :=
  match event.2 with
  | .call _ _ | .reclaim _ _ => True
  | _ => False

/-- **A buffer of the host is released as often as it goes**: once, if it has gone. -/
theorem count_inside {events : List Timed} (hbacked : e.Backed)
    (hinside : ∀ event ∈ events, Inside event) (howns : e.hostOwns flowId handle = true) :
    countSteps next (releases flowId handle) e events =
      if (e.run events).hostOwns flowId handle then 0 else 1 := by
  have hguard : Guarded next (fun _ event => Inside event) e events := by
    clear hbacked howns
    induction events generalizing e with
    | nil => trivial
    | cons event events ih =>
      obtain ⟨hevent, hevents⟩ := List.forall_mem_cons.1 hinside
      exact ⟨hevent, ih hevents⟩
  let Q : ℕ → EngineState → Prop := fun n e =>
    e.Backed ∧ n = if e.hostOwns flowId handle then 0 else 1
  have hcount : Q (0 + countSteps next (releases flowId handle) e events) (e.run events) := by
    refine hguard.countSteps_invariant ?_ ⟨hbacked, by rw [if_pos howns]⟩
    rintro n e ⟨wt, event⟩ hevent ⟨hbacked, rfl⟩
    cases event with
    | call s call =>
      exact ⟨hbacked.step (.call s call) trivial, (hostOwns_called (Called.call wt _ call)).symm⟩
    | reclaim s inputRep =>
      exact ⟨hbacked.step (.reclaim s inputRep) trivial,
        (hostOwns_called (hbacked.called_reclaim inputRep _)).symm⟩
    | marshal | convert => cases hevent
  rw [← hcount.2, Nat.zero_add]

/-- **The input of a call that returns is released once**, and everything else stays accounted
for. -/
theorem Accounted.input {element : StreamElement}
    (h : Accounted flowId (element.payload :: queue) none e)
    (hflow : (e.stores s).flowId = flowId) (hplace : wt.place (e.stores s).table = some rep)
    (calls : List HostCall) :
    Accounted flowId queue none (e.run (inputEvents wt s element calls rep)) ∧
      countSteps next (releases flowId element.payload) e
        (inputEvents wt s element calls rep) = 1 := by
  have hmarshal := h.marshal hflow hplace
  have hcalls : Guarded next (fun _ event => ∃ call, event.2 = .call s call)
      (e.step wt (.marshal s element)) (calls.map fun call => (wt, .call s call)) := by
    generalize e.step wt (.marshal s element) = e₁
    induction calls generalizing e₁ with
    | nil => trivial
    | cons call calls ih => exact ⟨⟨call, rfl⟩, ih _⟩
  have hcalled := hcalls.invariant (P := Accounted flowId queue (some (s, rep))) (by
    rintro e ⟨wt, event⟩ ⟨call, rfl⟩ h
    exact h.called (Called.call wt _ call)) hmarshal
  have hreclaimed := hcalled.reclaim wt
  have hrun : e.run (inputEvents wt s element calls rep) =
      (List.foldl next (e.step wt (.marshal s element))
        (calls.map fun call => (wt, .call s call))).step wt (.reclaim s rep) := by
    simp only [run, inputEvents, List.cons_append, List.foldl_cons, List.foldl_append,
      List.foldl_nil]
    rfl
  rw [hrun]
  refine ⟨hreclaimed, ?_⟩
  -- handing the element on releases nothing
  have howns := h.hostOwns List.mem_cons_self
  have howns' : (e.step wt (.marshal s element)).hostOwns flowId element.payload = true := by
    simp only [EngineState.hostOwns, resources_marshal]
    exact howns
  have hfirst : releases flowId element.payload e (wt, .marshal s element) = false := by
    obtain ⟨entry, hget, -⟩ := hostOwns_iff.1 howns'
    have hget : (e.next (wt, .marshal s element)).resources.table.get element.payload =
      .ok entry := hget
    simp [releases, hget, Except.toBool]
  have hnot : (e.run (inputEvents wt s element calls rep)).hostOwns flowId element.payload =
      false := by
    rw [← Bool.not_eq_true, hrun]
    intro hafter
    rcases hreclaimed.settled _ hafter with hmem | ⟨_, _, hnone, _⟩
    · exact (List.nodup_cons.1 h.nodup).1 hmem
    · cases hnone
  have hinside : ∀ event ∈ (calls.map fun call => (wt, Event.call s call)) ++
      [(wt, .reclaim s rep)], Inside event := by
    intro event hmem
    rcases List.mem_append.1 hmem with hmem | hmem
    · obtain ⟨call, -, rfl⟩ := List.mem_map.1 hmem
      trivial
    · obtain rfl := List.mem_singleton.1 hmem
      trivial
  have hcount := count_inside hmarshal.backed hinside howns'
  rw [inputEvents, List.cons_append, countSteps, hfirst]
  refine (Nat.zero_add _).trans (hcount.trans ?_)
  rw [if_neg]
  rw [Bool.not_eq_true]
  exact hnot

end Input

end EngineState

end Torvyn.Engine
