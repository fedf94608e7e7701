/-
# Unique wrappers

In every run of the stores of an engine the wrappers name live buffers, each buffer has one
wrapper or is with the runtime, and dropping a wrapper never fails. What has been frozen keeps
its bytes, as long as no pool serves a request that is larger than its buffers.
-/
import Torvyn.Engine.Stores
import Torvyn.Resources.Payload
import Torvyn.Resources.Terminal

namespace Torvyn.Engine

open ResourceManager

/-! ## The operations of an event -/

/-- The requests of a host function fit the pools that serve them. -/
def HostState.Fits (config : ResourceManagerConfig) (h : HostState) : HostCall → Prop
  | .allocate alloc capacityHint =>
    FitsPool config h.resources (.allocate alloc h.componentOwner capacityHint h.flowId)
  | .cloneIntoMutable alloc source =>
    ∀ wrapper total, h.table.get .buffer source = .ok wrapper →
      h.resources.payloadLen wrapper.handle = .ok total →
      FitsPool config h.resources (.allocate alloc h.componentOwner (max total 1) h.flowId)
  | _ => True

/-- A buffer that is live before and after, and that no mutable wrapper of the store names. -/
structure Sealed (handle : BufferHandle) (h h' : HostState) : Prop where
  before : ∃ entry, h.resources.table.get handle = .ok entry
  after : ∃ entry, h'.resources.table.get handle = .ok entry
  immutable : ∀ rep wrapper, h.table rep = some wrapper → wrapper.kind = .mutableBuffer →
    wrapper.handle ≠ handle

/-- A sequence of operations takes the manager of one state to that of another. Its requests
fit, and it leaves alone what is sealed. -/
structure Operations (config : ResourceManagerConfig) (h h' : HostState) (ops : List Op) :
    Prop where
  run : ∀ trace, (h.resources.run trace ops).2 = h'.resources
  fits : Allowed (FitsPool config) h.resources ops
  spares : ∀ handle, Sealed handle h h' → Allowed (Spares handle) h.resources ops

namespace Operations

variable {config : ResourceManagerConfig} {h : HostState} {wt : Wasmtime}

/-- No operation. -/
theorem none {h' : HostState} (heq : h'.resources = h.resources) : Operations config h h' [] :=
  ⟨fun _ => heq.symm, trivial, fun _ _ => trivial⟩

/-- One operation that neither releases nor writes. -/
theorem one {h' : HostState} (op : Op) (heq : (h.resources.step op).2 = h'.resources)
    (hfits : FitsPool config h.resources op) (hspares : ∀ handle, ¬op.alters handle)
    (hreclaims : op.reclaims = false) : Operations config h h' [op] :=
  ⟨fun _ => heq, ⟨hfits, trivial⟩, fun handle _ => ⟨⟨hspares handle, hreclaims⟩, trivial⟩⟩

/-- A write through a mutable wrapper. -/
theorem writeAt {rep : ℕ} {wrapper : Wrapper} (hrep : h.table rep = some wrapper)
    (hkind : wrapper.kind = .mutableBuffer) (offset : ℕ) (bytes : List UInt8) :
    Operations config h (h.writeAt wrapper offset bytes).2
      [.writePayload wrapper.handle wrapper.owner offset bytes h.flowId] :=
  ⟨fun _ => rfl, ⟨trivial, trivial⟩,
    fun _ hsealed => ⟨⟨hsealed.immutable rep wrapper hrep hkind, rfl⟩, trivial⟩⟩

/-- A read is one operation or none. -/
theorem readRange (config : ResourceManagerConfig) (h : HostState) (wrapper : Wrapper)
    (offset len : ℕ) :
    ∃ ops, Operations config h (h.readRange wrapper offset len).2 ops ∧
      (ops = [] ∨ ops = [.readPayload wrapper.handle wrapper.owner offset len h.flowId]) := by
  unfold HostState.readRange
  split_ifs
  · exact ⟨[], none rfl, .inl rfl⟩
  · exact ⟨_, one (.readPayload wrapper.handle wrapper.owner offset len h.flowId) rfl trivial
      (fun _ => id) rfl, .inr rfl⟩

/-- A drop releases the buffer of the wrapper, if that succeeds. -/
theorem release {h' : HostState} {handle : BufferHandle} {owner : OwnerId}
    (heq : h'.resources = (h.resources.release handle owner).2) :
    ∃ ops, Operations config h h' ops := by
  have hcases := release_cases handle owner h.resources
  cases hresult : h.resources.release handle owner with
  | mk result m =>
    rw [hresult] at hcases heq
    cases hcases with
    | refused e => exact ⟨[], none heq⟩
    | dropped entry table hget hcheck hrem =>
      refine ⟨[.release handle owner], fun _ => ?_, ⟨trivial, trivial⟩, fun other hsealed => ?_⟩
      · rw [heq, ← congrArg Prod.snd hresult]
        rfl
      · refine ⟨⟨?_, rfl⟩, trivial⟩
        -- what is live afterwards is not what has been released
        rintro rfl
        obtain ⟨entry', hafter⟩ := hsealed.after
        rw [heq] at hafter
        exact hrem.not_mem (List.mem_map_of_mem (ResourceTable.get_eq_ok.1 hafter))

theorem drop (kind : WrapperKind) (rep : ℕ) : ∃ ops, Operations config h (h.drop kind rep).2 ops := by
  unfold HostState.drop
  split
  · exact ⟨[], none rfl⟩
  · split_ifs
    · exact ⟨[], none rfl⟩
    · exact release rfl

/-- Wrapping changes no resource. -/
theorem wrap_resources (handle : BufferHandle) (h : HostState) :
    (HostState.wrap wt handle h).2.resources = h.resources := by
  unfold HostState.wrap
  split <;> rfl

theorem allocate {alloc : Allocator} {capacityHint : ℕ}
    (hfits : FitsPool config h.resources (.allocate alloc h.componentOwner capacityHint h.flowId)) :
    ∃ ops, Operations config h (h.allocate wt alloc capacityHint).2 ops := by
  unfold HostState.allocate
  split_ifs
  · exact ⟨[], none rfl⟩
  · refine ⟨[_], one (.allocate alloc h.componentOwner capacityHint h.flowId) ?_ hfits
      (fun _ => id) rfl⟩
    show (h.resources.allocate alloc h.componentOwner capacityHint h.flowId).2 = _
    split
    · rename_i e m heq
      rw [heq]
    · rename_i handle m heq
      rw [heq, wrap_resources]

/-- A new buffer is not one that was live before. -/
theorem ne_of_allocated {alloc : Allocator} {owner : OwnerId} {n : ℕ} {flowId : FlowId}
    {m m' : ResourceManager} {handle other : BufferHandle} {entry : ResourceEntry}
    (halloc : m.allocate alloc owner n flowId = (.ok handle, m'))
    (hother : m.table.get other = .ok entry) : handle ≠ other := by
  have hcases := allocate_cases alloc owner n flowId m
  rw [halloc] at hcases
  cases hcases with
  | admitted budgets buffer pools heap id table _ _ _ hins =>
    rintro rfl
    exact hins.fresh (List.mem_map_of_mem (ResourceTable.get_eq_ok.1 hother))

theorem allocateCopy (config : ResourceManagerConfig) (h : HostState) (wt : Wasmtime)
    (alloc : Allocator) (bytes : List UInt8) (total : ℕ)
    (hfits : FitsPool config h.resources
      (.allocate alloc h.componentOwner (max total 1) h.flowId)) :
    ∃ ops, Operations config h (h.allocateCopy wt alloc bytes total).2 ops := by
  unfold HostState.allocateCopy
  have hstep : ∀ result m,
      h.resources.allocate alloc h.componentOwner (max total 1) h.flowId = (result, m) →
      (h.resources.step (.allocate alloc h.componentOwner (max total 1) h.flowId)).2 = m := by
    intro result m heq
    show (h.resources.allocate alloc h.componentOwner (max total 1) h.flowId).2 = m
    rw [heq]
  simp only
  split
  · rename_i e m heq
    exact ⟨[_], one (.allocate alloc h.componentOwner (max total 1) h.flowId) (hstep _ _ heq)
      hfits (fun _ => id) rfl⟩
  · rename_i handle m heq
    have hne : ∀ other entry, h.resources.table.get other = .ok entry → handle ≠ other :=
      fun other entry hother => ne_of_allocated heq hother
    split_ifs
    · refine ⟨[_], one (.allocate alloc h.componentOwner (max total 1) h.flowId) ?_ hfits
        (fun _ => id) rfl⟩
      rw [wrap_resources]
      exact hstep _ _ heq
    · let filled : List Op := [.allocate alloc h.componentOwner (max total 1) h.flowId,
        .writePayload handle h.componentOwner 0 bytes h.flowId]
      have hwrite : ∀ trace, (h.resources.run trace filled).2 =
          (m.writePayload handle h.componentOwner 0 bytes h.flowId).2 := by
        intro trace
        show (ResourceManager.step _ _).2 = _
        rw [hstep _ _ heq]
        rfl
      split
      · -- the copy cannot be filled and is released again
        rename_i e m' heq'
        refine ⟨[.allocate alloc h.componentOwner (max total 1) h.flowId,
          .writePayload handle h.componentOwner 0 bytes h.flowId,
          .release handle h.componentOwner], fun trace => ?_, ⟨hfits, trivial, trivial, trivial⟩,
          fun other hsealed => ?_⟩
        · show ((h.resources.run trace filled).2.release handle h.componentOwner).2 = _
          rw [hwrite, heq']
        · obtain ⟨entry, hbefore⟩ := hsealed.before
          exact ⟨⟨id, rfl⟩, ⟨hne _ _ hbefore, rfl⟩, ⟨hne _ _ hbefore, rfl⟩, trivial⟩
      · rename_i m' heq'
        refine ⟨filled, fun trace => ?_, ⟨hfits, trivial, trivial⟩, fun other hsealed => ?_⟩
        · rw [hwrite, heq', wrap_resources]
        · obtain ⟨entry, hbefore⟩ := hsealed.before
          exact ⟨⟨id, rfl⟩, ⟨hne _ _ hbefore, rfl⟩, trivial⟩

/-- Operations after a read. -/
theorem after_read {h₁ h₂ : HostState} {ops ops' : List Op} {m : ResourceManager}
    (hread : Operations config h h₁ ops) (h₁_eq : h₁ = { h with resources := m })
    (htable : m.table = h.resources.table) (hrest : Operations config h₁ h₂ ops') :
    Operations config h h₂ (ops ++ ops') := by
  subst h₁_eq
  refine ⟨fun trace => ?_, ?_, fun handle hsealed => ?_⟩
  · rw [run_append, hread.run]
    exact hrest.run _
  · rw [allowed_append _ [], hread.run]
    exact ⟨hread.fits, hrest.fits⟩
  · obtain ⟨entry, hbefore⟩ := hsealed.before
    have hlive : m.table.get handle = .ok entry := by
      rw [htable]
      exact hbefore
    rw [allowed_append _ [], hread.run]
    exact ⟨hread.spares handle ⟨hsealed.before, ⟨entry, hlive⟩, hsealed.immutable⟩,
      hrest.spares handle ⟨⟨entry, hlive⟩, hsealed.after, hsealed.immutable⟩⟩

/-- **The operations of a host function.** -/
theorem call (wt : Wasmtime) {call : HostCall} (hfits : h.Fits config call) :
    ∃ ops, Operations config h (h.call wt call) ops := by
  cases call with
  | allocate alloc capacityHint => exact allocate hfits
  | cloneIntoMutable alloc source =>
    show ∃ ops, Operations config h (h.cloneIntoMutable wt alloc source).2 ops
    unfold HostState.cloneIntoMutable
    split
    · exact ⟨[], none rfl⟩
    · rename_i wrapper hget
      split
      · exact ⟨[], none rfl⟩
      · rename_i total htotal
        have hfits := hfits wrapper total hget htotal
        obtain ⟨ops, hread, -⟩ := readRange config h wrapper 0 total
        obtain ⟨m, htable, heq⟩ := Called.readRange_table wrapper 0 total h
        have hpools : (h.readRange wrapper 0 total).2.resources.pools = h.resources.pools := by
          unfold HostState.readRange
          split_ifs
          · rfl
          · rcases read_cases wrapper.handle wrapper.owner 0 total h.flowId h.resources with
              ⟨e, hread⟩ | ⟨entry, -, -, hread⟩
            · simp only [hread]
            · simp only [hread]
        generalize h.readRange wrapper 0 total = result at heq hread hpools ⊢
        obtain ⟨read, after⟩ := result
        obtain rfl : after = { h with resources := m } := heq
        cases read with
        | error e => exact ⟨ops, hread⟩
        | ok bytes =>
          have hpools : m.pools = h.resources.pools := hpools
          obtain ⟨ops', hrest⟩ := allocateCopy config { h with resources := m } wt alloc bytes total (by
              show FitsPool config m _
              simp only [FitsPool, hpools]
              exact hfits)
          exact ⟨ops ++ ops', after_read hread rfl htable hrest⟩
  | write rep offset bytes =>
    show ∃ ops, Operations config h (h.write rep offset bytes).2 ops
    unfold HostState.write
    split
    · exact ⟨[], none rfl⟩
    · rename_i wrapper hget
      obtain ⟨hrep, hkind⟩ := WrapperTable.get_eq_ok.1 hget
      split_ifs
      · exact ⟨[], none rfl⟩
      · exact ⟨_, writeAt hrep hkind offset bytes⟩
  | append rep bytes =>
    show ∃ ops, Operations config h (h.append rep bytes).2 ops
    unfold HostState.append
    split
    · exact ⟨[], none rfl⟩
    · rename_i wrapper hget
      obtain ⟨hrep, hkind⟩ := WrapperTable.get_eq_ok.1 hget
      split
      · exact ⟨[], none rfl⟩
      · exact ⟨_, writeAt hrep hkind _ bytes⟩
  | freeze rep =>
    show ∃ ops, Operations config h (h.freeze wt rep).2 ops
    refine ⟨[], none ?_⟩
    unfold HostState.freeze
    split
    · rfl
    · dsimp only
      split <;> rfl
  | read rep offset len =>
    show ∃ ops, Operations config h (h.read rep offset len).2 ops
    unfold HostState.read
    split
    · exact ⟨[], none rfl⟩
    · split
      · exact ⟨[], none rfl⟩
      · obtain ⟨ops, hops, -⟩ := readRange config h _ _ _
        exact ⟨ops, hops⟩
  | readAll rep =>
    show ∃ ops, Operations config h (h.readAll rep).2 ops
    unfold HostState.readAll
    split
    · exact ⟨[], none rfl⟩
    · split
      · exact ⟨[], none rfl⟩
      · obtain ⟨ops, hops, -⟩ := readRange config h _ _ _
        exact ⟨ops, hops⟩
  | drop kind rep => exact drop kind rep

end Operations

namespace EngineState

variable {config : ResourceManagerConfig} {e : EngineState} {wt : Wasmtime}
  {handle : BufferHandle} {event : Event} {slots : PoolTier → List Block}

/-- The requests of an event fit the pools that serve them. -/
def Fits (config : ResourceManagerConfig) (e : EngineState) : Event → Prop
  | .call s call => (e.store s).Fits config call
  | _ => True

/-- The buffer of a handle is live. -/
def Live (e : EngineState) (handle : BufferHandle) : Prop :=
  ∃ entry, e.resources.table.get handle = .ok entry

/-- No mutable wrapper of any store names the handle. -/
def Immutable (e : EngineState) (handle : BufferHandle) : Prop :=
  ∀ s rep wrapper, (e.stores s).table rep = some wrapper → wrapper.kind = .mutableBuffer →
    wrapper.handle ≠ handle

/-- The operations of an event: an event happens to one store. -/
theorem operations (wt : Wasmtime) (hfits : e.Fits config event) :
    ∃ s h' ops, Operations config (e.store s) h' ops ∧
      h'.resources = (e.step wt event).resources := by
  cases event with
  | call s call =>
    obtain ⟨ops, hops⟩ := Operations.call wt hfits
    exact ⟨s, _, ops, hops, rfl⟩
  | marshal s element =>
    refine ⟨s, ((e.store s).toWitStreamElement wt element).2, [], Operations.none ?_, rfl⟩
    rcases HostState.marshal_cases wt element (e.store s) with ⟨-, heq⟩ | ⟨rep, -, -, heq⟩ <;>
      rw [heq]
  | reclaim s inputRep =>
    have hresources : ∃ ops, Operations config (e.store s)
        ((e.store s).reclaimInputElement wt inputRep (e.stores s).componentId).2 ops := by
      rcases HostState.reclaim_cases wt inputRep (e.stores s).componentId (e.store s) with
        ⟨err, heq⟩ | ⟨err, wrapper, -, heq, -⟩ | ⟨wrapper, entry, m, -, -, -, hrelease, heq⟩
      · exact ⟨[], Operations.none (by rw [heq])⟩
      · exact ⟨[], Operations.none (by rw [heq])⟩
      · rw [heq]
        exact Operations.release (by rw [hrelease])
    obtain ⟨ops, hops⟩ := hresources
    exact ⟨s, _, ops, hops, rfl⟩
  | convert s out =>
    let converted := (e.store s).convertOutputElement wt out (e.stores s).componentId
    have hstep : (e.step wt (.convert s out)).resources = converted.2.resources := by
      simp only [EngineState.step]
      split
      · rename_i err h heq
        simp only [converted, heq]
        rfl
      · rename_i output h heq
        simp only [converted, heq]
        rfl
    refine ⟨s, converted.2, ?_⟩
    rw [hstep]
    unfold converted HostState.convertOutputElement
    split
    · exact ⟨[], Operations.none rfl, rfl⟩
    · rename_i entry table heq
      refine ⟨[_], Operations.one (.transferOwnership entry.handle entry.owner .host) ?_ trivial
        (fun _ => id) rfl, rfl⟩
      show ((e.store s).resources.transferOwnership entry.handle entry.owner .host).2 = _
      split
      · rename_i err m hresult
        rw [hresult]
      · rename_i m hresult
        rw [hresult]

/-- The contents of the buffers are kept apart. -/
def Isolated (slots : PoolTier → List Block) (e : EngineState) : Prop :=
  ∃ trace, IsolatedManager slots (written trace) e.resources

theorem Isolated.step (h : Isolated slots e)
    (hslots : ∀ t b, b ∈ slots t → b.size = headerSize + (config.poolConfigs t).tier.capacity)
    (hfits : e.Fits config event) : Isolated slots (e.step wt event) := by
  obtain ⟨trace, hisolated⟩ := h
  obtain ⟨s, h', ops, hops, hresources⟩ := operations wt hfits
  refine ⟨(e.resources.run trace ops).1, ?_⟩
  rw [← hresources, ← hops.run trace]
  exact hisolated.run hslots hops.fits

/-- **An event leaves the payload of what no mutable wrapper names**, if it stays live. -/
theorem payload_step (h : Isolated slots e)
    (hslots : ∀ t b, b ∈ slots t → b.size = headerSize + (config.poolConfigs t).tier.capacity)
    (hfits : e.Fits config event) (himmutable : e.Immutable handle) (hlive : e.Live handle)
    (hafter : (e.step wt event).Live handle) :
    (e.step wt event).resources.payload handle = e.resources.payload handle := by
  obtain ⟨trace, hisolated⟩ := h
  obtain ⟨s, h', ops, hops, hresources⟩ := operations wt hfits
  have hsealed : Sealed handle (e.store s) h' := by
    refine ⟨hlive, ?_, himmutable s⟩
    rw [hresources]
    exact hafter
  obtain ⟨entry, hget⟩ := hlive
  have hsome : (e.resources.payload handle).isSome := by
    rw [payload_of_mem (ResourceTable.get_eq_ok.1 hget)]
    rfl
  rw [← hresources, ← hops.run trace]
  exact payload_run hisolated hslots hops.fits (hops.spares handle hsealed) hsome

/-! ## What is immutable stays immutable -/

/-- The wrappers of a store after it has been changed. -/
theorem put_table (e : EngineState) (s : ℕ) (h : HostState) (s' : ℕ) :
    ((e.put s h).stores s').table = if s' = s then h.table else (e.stores s').table := by
  by_cases hs : s' = s
  · subst hs
    simp [put]
  · simp [put, hs]

/-- A store gets no mutable wrapper of the handle. -/
theorem Immutable.put {s : ℕ} {h : HostState} (himmutable : e.Immutable handle)
    (hnew : ∀ rep wrapper, h.table rep = some wrapper → wrapper.kind = .mutableBuffer →
      wrapper.handle ≠ handle) : (e.put s h).Immutable handle := by
  intro s' rep wrapper hrep
  rw [put_table] at hrep
  split_ifs at hrep
  · exact hnew rep wrapper hrep
  · exact himmutable s' rep wrapper hrep

/-- Changing one wrapper, to one that is not a mutable wrapper of the handle. -/
theorem immutable_update {table : WrapperTable} {rep : ℕ} {w : Option Wrapper}
    (htable : ∀ rep wrapper, table rep = some wrapper → wrapper.kind = .mutableBuffer →
      wrapper.handle ≠ handle)
    (hw : ∀ wrapper, w = some wrapper → wrapper.kind = .mutableBuffer → wrapper.handle ≠ handle) :
    ∀ rep' wrapper, Function.update table rep w rep' = some wrapper →
      wrapper.kind = .mutableBuffer → wrapper.handle ≠ handle := by
  intro rep' wrapper hrep'
  by_cases heq : rep' = rep
  · rw [heq, Function.update_self] at hrep'
    exact hw wrapper hrep'
  · rw [Function.update_of_ne heq] at hrep'
    exact htable rep' wrapper hrep'

theorem Immutable.called {s : ℕ} {h' : HostState} (himmutable : e.Immutable handle)
    (hbacked : e.Backed) (hlive : e.Live handle) (hcalled : Called (e.store s) h') :
    (e.put s h').Immutable handle := by
  obtain ⟨entry, hget⟩ := hlive
  have hspent : ∀ wrapper wrapper' : Wrapper, some wrapper.spent = some wrapper' →
      wrapper'.kind = .mutableBuffer → wrapper'.handle ≠ handle := by
    rintro wrapper _ ⟨⟩ -
    exact (hbacked.ne_sentinel hget).symm
  refine himmutable.put ?_
  cases hcalled with
  | quiet m => exact himmutable s
  | wrote rep wrapper entry newEnd m => exact himmutable s
  | lost handle entry m => exact himmutable s
  | gained new entry' m rep _ hins =>
    refine immutable_update (himmutable s) ?_
    rintro _ ⟨⟩ - rfl
    exact hins.fresh (List.mem_map_of_mem (ResourceTable.get_eq_ok.1 hget))
  | unwrapped rep wrapper => exact immutable_update (himmutable s) (hspent wrapper)
  | froze rep wrapper frozen =>
    refine immutable_update (immutable_update (himmutable s) (hspent wrapper)) ?_
    rintro _ ⟨⟩ hkind
    cases hkind
  | dropped rep wrapper entry m =>
    refine immutable_update (himmutable s) ?_
    rintro _ ⟨⟩
  | forgot rep wrapper =>
    refine immutable_update (himmutable s) ?_
    rintro _ ⟨⟩

/-- **What no mutable wrapper names gets none**, while it is live. -/
theorem Immutable.step (himmutable : e.Immutable handle) (hbacked : e.Backed)
    (hlive : e.Live handle) : (e.step wt event).Immutable handle := by
  cases event with
  | call s call => exact himmutable.called hbacked hlive (Called.call wt _ call)
  | reclaim s inputRep =>
    exact himmutable.called hbacked hlive (hbacked.called_reclaim inputRep _)
  | marshal s element =>
    show (e.put s _).Immutable handle
    refine himmutable.put ?_
    rcases HostState.marshal_cases wt element (e.store s) with ⟨-, heq⟩ | ⟨rep, -, -, heq⟩
    · rw [heq]
      exact himmutable s
    · rw [heq]
      refine immutable_update (himmutable s) ?_
      rintro _ ⟨⟩ hkind
      cases hkind
  | convert s out =>
    have hconverted : ∀ rep wrapper,
        ((e.store s).convertOutputElement wt out (e.stores s).componentId).2.table rep =
          some wrapper → wrapper.kind = .mutableBuffer → wrapper.handle ≠ handle := by
      rcases HostState.convert_cases wt out (e.stores s).componentId (e.store s) with
        ⟨err, heq⟩ | ⟨err, wrapper, -, heq, -⟩ | ⟨wrapper, entry, m, -, -, -, -, heq⟩
      · rw [heq]
        exact himmutable s
      · rw [heq]
        refine immutable_update (himmutable s) ?_
        rintro _ ⟨⟩
      · rw [heq]
        refine immutable_update (himmutable s) ?_
        rintro _ ⟨⟩
    simp only [EngineState.step]
    generalize (e.store s).convertOutputElement wt out (e.stores s).componentId = result
      at hconverted
    obtain ⟨converted, h⟩ := result
    cases converted with
    | error err => exact himmutable.put hconverted
    | ok output =>
      show (e.put s h).Immutable handle
      exact himmutable.put hconverted

/-- **What is immutable keeps its payload** over any run in which it stays live. -/
theorem payload_run {events : List Timed} (hisolated : Isolated slots e)
    (hslots : ∀ t b, b ∈ slots t → b.size = headerSize + (config.poolConfigs t).tier.capacity)
    (hbacked : e.Backed) (hdelivered : Guarded next Delivered e events)
    (hfits : Guarded next (fun e event => e.Fits config event.2) e events) (himmutable : e.Immutable handle)
    (hlive : ∀ events', events' <+: events → (e.run events').Live handle) :
    (e.run events).resources.payload handle = e.resources.payload handle := by
  induction events generalizing e with
  | nil => rfl
  | cons event events ih =>
    have hnow : e.Live handle := hlive [] (List.nil_prefix)
    have hnext : (e.next event).Live handle :=
      hlive [event] (by simp)
    have hrest := ih (hisolated.step hslots hfits.1) (hbacked.step event.2 hdelivered.1)
      hdelivered.2 hfits.2 (himmutable.step hbacked hnow)
      fun events' hprefix => hlive (event :: events') (by simpa using hprefix)
    exact hrest.trans (payload_step hisolated hslots hfits.1 himmutable hnow hnext)

end EngineState

/-! ## What holds of the wrappers -/

namespace EngineState

variable {wt : Wasmtime} {e : EngineState} {handle : BufferHandle}

/-- The buffer of a handle has been released, and nobody names it. -/
structure Gone (e : EngineState) (handle : BufferHandle) : Prop where
  released : ∀ entry, e.resources.table.get handle ≠ .ok entry
  unnamed : ∀ s rep wrapper, (e.stores s).table rep = some wrapper → wrapper.handle ≠ handle
  delivered : handle ∉ e.inFlight

/-- The wrappers of all stores name live buffers as the owners that the manager knows, each
buffer has one wrapper, and dropping a wrapper, reclaiming an input and handing out an output
succeed. -/
structure UniqueWrappers (wt : Wasmtime) (e : EngineState) : Prop where
  owned : ∀ s rep wrapper, (e.stores s).table rep = some wrapper →
    wrapper.handle ≠ frozenSentinel →
    ∃ entry, e.resources.table.get wrapper.handle = .ok entry ∧ entry.owner = wrapper.owner
  distinct : ∀ s rep wrapper s' rep' wrapper', (e.stores s).table rep = some wrapper →
    wrapper.handle ≠ frozenSentinel → (e.stores s').table rep' = some wrapper' →
    wrapper.handle = wrapper'.handle → s = s' ∧ rep = rep'
  dropped : ∀ s kind rep wrapper, (e.stores s).table.get kind rep = .ok wrapper →
    ((e.store s).drop kind rep).1 = .ok ()
  released : ∀ s kind rep wrapper, (e.stores s).table.get kind rep = .ok wrapper →
    wrapper.handle ≠ frozenSentinel → (e.step wt (.call s (.drop kind rep))).Gone wrapper.handle
  reclaimed : ∀ s rep wrapper, (e.stores s).table.get .buffer rep = .ok wrapper →
    wrapper.handle ≠ frozenSentinel →
    ((e.store s).reclaimInputElement wt rep (e.stores s).componentId).1 = .ok () ∧
      (e.step wt (.reclaim s rep)).Gone wrapper.handle
  converted : ∀ s out wrapper, (e.stores s).table.get .buffer out.payload = .ok wrapper →
    wrapper.handle ≠ frozenSentinel →
    ((e.store s).convertOutputElement wt out (e.stores s).componentId).1 =
      .ok ⟨out.metadata, wrapper.handle⟩

/-- With backed claims, a buffer that is not live is named by nobody. -/
theorem gone_of_released (hbacked : e.Backed) (hne : handle ≠ frozenSentinel)
    (hreleased : ∀ entry, e.resources.table.get handle ≠ .ok entry) : e.Gone handle where
  released := hreleased
  unnamed := by
    rintro s rep wrapper hrep rfl
    obtain ⟨entry, hmem, -⟩ := hbacked.owned (claims_wrapper hrep hne)
    exact hreleased entry (ResourceTable.get_eq_ok.2 hmem)
  delivered := by
    intro hmem
    have hclaim : e.claims (.runtime handle) = some ⟨handle, .host⟩ := if_pos hmem
    obtain ⟨entry, hentry, -⟩ := hbacked.owned hclaim
    exact hreleased entry (ResourceTable.get_eq_ok.2 hentry)

/-- What has been removed is not found. -/
theorem get_removed {table table' : ResourceTable} {entry : ResourceEntry}
    (hrem : table.Removed table' handle entry) : ∀ entry', table'.get handle ≠ .ok entry' :=
  fun _ hget => hrem.not_mem (List.mem_map_of_mem (ResourceTable.get_eq_ok.1 hget))

/-- The release of a buffer that a wrapper owns succeeds and ends its life. -/
theorem release_owned {wrapper : Wrapper} {s rep : ℕ} (hbacked : e.Backed)
    (hrep : (e.stores s).table rep = some wrapper) (hne : wrapper.handle ≠ frozenSentinel) :
    ∃ m, e.resources.release wrapper.handle wrapper.owner = (.ok (), m) ∧
      ∀ entry, m.table.get wrapper.handle ≠ .ok entry := by
  obtain ⟨entry, hmem, howned⟩ := hbacked.owned (claims_wrapper hrep hne)
  have hok := release_succeeds (ResourceTable.get_eq_ok.2 hmem) howned.check
  have hcases := release_cases wrapper.handle wrapper.owner e.resources
  cases hresult : e.resources.release wrapper.handle wrapper.owner with
  | mk result m =>
    rw [hresult] at hcases hok
    cases hcases with
    | refused err => cases hok
    | dropped entry' table _ _ hrem => exact ⟨_, rfl, get_removed hrem⟩

/-- **Backed claims make the wrappers unique.** -/
theorem uniqueWrappers (wt : Wasmtime) (hbacked : e.Backed) : UniqueWrappers wt e where
  owned s rep wrapper hrep hne := by
    obtain ⟨entry, hmem, howned⟩ := hbacked.owned (claims_wrapper hrep hne)
    exact ⟨entry, ResourceTable.get_eq_ok.2 hmem, howned.owner⟩
  distinct s rep wrapper s' rep' wrapper' hrep hne hrep' hhandle := by
    have hclaim := claims_wrapper hrep hne
    have hclaim' := claims_wrapper hrep' (hhandle ▸ hne)
    exact Holder.wrapper.inj (hbacked.exclusive hclaim hclaim' hhandle)
  dropped s kind rep wrapper hget := by
    obtain ⟨hrep, -⟩ := WrapperTable.get_eq_ok.1 hget
    have hget : (e.store s).table.get kind rep = .ok wrapper := hget
    by_cases hne : wrapper.handle = frozenSentinel
    · simp only [HostState.drop, WrapperTable.delete, hget, if_pos hne]
    · obtain ⟨m, hrelease, -⟩ := release_owned hbacked hrep hne
      have hrelease : (e.store s).resources.release wrapper.handle wrapper.owner = (.ok (), m) :=
        hrelease
      simp only [HostState.drop, WrapperTable.delete, hget, if_neg hne, hrelease]
      rfl
  released s kind rep wrapper hget hne := by
    obtain ⟨hrep, -⟩ := WrapperTable.get_eq_ok.1 hget
    obtain ⟨m, hrelease, hgone⟩ := release_owned hbacked hrep hne
    refine gone_of_released (hbacked.step _ trivial) hne ?_
    have hresources : (e.step wt (.call s (.drop kind rep))).resources = m := by
      have hget : (e.store s).table.get kind rep = .ok wrapper := hget
      have hrelease : (e.store s).resources.release wrapper.handle wrapper.owner = (.ok (), m) :=
        hrelease
      show ((e.store s).drop kind rep).2.resources = m
      simp only [HostState.drop, WrapperTable.delete, hget, if_neg hne, hrelease]
    rw [hresources]
    exact hgone
  reclaimed s rep wrapper hget hne := by
    obtain ⟨hrep, -⟩ := WrapperTable.get_eq_ok.1 hget
    obtain ⟨m, hrelease, hgone⟩ := release_owned hbacked hrep hne
    have hget : (e.store s).table.get .buffer rep = .ok wrapper := hget
    have hrelease : (e.store s).resources.release wrapper.handle wrapper.owner = (.ok (), m) :=
      hrelease
    have hreclaim : (e.store s).reclaimInputElement wt rep (e.stores s).componentId =
        (.ok (), { e.store s with
          table := Function.update (e.stores s).table rep none, resources := m }) := by
      simp only [HostState.reclaimInputElement, WrapperTable.delete, hget, hrelease]
      rfl
    refine ⟨by rw [hreclaim], gone_of_released (hbacked.step _ trivial) hne ?_⟩
    show ∀ entry, (e.put s _).resources.table.get wrapper.handle ≠ .ok entry
    rw [hreclaim]
    exact hgone
  converted s out wrapper hget hne := by
    obtain ⟨hrep, -⟩ := WrapperTable.get_eq_ok.1 hget
    obtain ⟨entry, hmem, howned⟩ := hbacked.owned (claims_wrapper hrep hne)
    have hentry := ResourceTable.get_eq_ok.2 hmem
    have hok : (e.resources.transferOwnership wrapper.handle wrapper.owner .host).1 = .ok () :=
      transfer_succeeds hentry rfl howned.check
    have hget : (e.store s).table.get .buffer out.payload = .ok wrapper := hget
    cases hresult : (e.store s).resources.transferOwnership wrapper.handle wrapper.owner .host with
    | mk result m =>
      obtain rfl : result = .ok () := by
        rw [← hok]
        exact (congrArg Prod.fst hresult).symm
      simp only [HostState.convertOutputElement, WrapperTable.delete, hget, hresult]

end EngineState

/-- An engine whose stores have no wrappers yet, over a manager that is in use. -/
structure StartedEngine where
  manager : StartedManager
  ops : List Op
  stores : ℕ → Store
  empty : ∀ s rep, (stores s).table rep = none

namespace StartedEngine

open EngineState

/-- The state before the first event. -/
def start (s : StartedEngine) : EngineState := ⟨s.stores, s.manager.after s.ops, ∅⟩

/-- At the start there are no claims. -/
theorem backed_start (s : StartedEngine) : s.start.Backed where
  wellFormed := (s.manager.indexed_after s.ops).wellFormed
  exclusive := Exclusive.of_none fun holder => by
    cases holder with
    | wrapper store rep => simp [claims, start, s.empty]
    | runtime handle => simp [claims, start]
  owned holder c hclaim := by
    cases holder with
    | wrapper store rep => simp [claims, start, s.empty] at hclaim
    | runtime handle => simp [claims, start] at hclaim

/-- In every run the claims are backed. -/
theorem backed_run (s : StartedEngine) {events : List Timed}
    (hdelivered : Guarded next Delivered s.start events) : (s.start.run events).Backed :=
  hdelivered.invariant (fun _ event hdelivered h => h.step event.2 hdelivered) s.backed_start

/-- What has been frozen keeps its payload: from the call of `freeze` on, while it is live. -/
def FrozenKept (s : StartedEngine) (events : List Timed) : Prop :=
  ∀ before wt store rep after, events = before ++ (wt, .call store (.freeze rep)) :: after →
    ∀ wrapper, ((s.start.run before).stores store).table.get .mutableBuffer rep = .ok wrapper →
    wrapper.handle ≠ frozenSentinel →
    (∀ events', events' <+: after →
      (s.start.run (before ++ (wt, .call store (.freeze rep)) :: events')).Live wrapper.handle) →
    (s.start.run events).resources.payload wrapper.handle =
      (s.start.run before).resources.payload wrapper.handle

end StartedEngine

namespace EngineState

variable {wt : Wasmtime} {e : EngineState}

/-- Freezing makes a buffer immutable, and leaves the manager alone. -/
theorem immutable_freeze (wt : Wasmtime) {s rep : ℕ} {wrapper : Wrapper} (hbacked : e.Backed)
    (hget : (e.stores s).table.get .mutableBuffer rep = .ok wrapper)
    (hne : wrapper.handle ≠ frozenSentinel) :
    (e.step wt (.call s (.freeze rep))).Immutable wrapper.handle ∧
      (e.step wt (.call s (.freeze rep))).resources = e.resources := by
  obtain ⟨hrep, hkind⟩ := WrapperTable.get_eq_ok.1 hget
  have hget : (e.store s).table.get .mutableBuffer rep = .ok wrapper := hget
  -- no other mutable wrapper names the buffer
  have hother : ∀ s' rep' wrapper', (e.stores s').table rep' = some wrapper' →
      wrapper'.handle = wrapper.handle → s' = s ∧ rep' = rep := by
    intro s' rep' wrapper' hrep' hhandle
    exact (uniqueWrappers wt hbacked).distinct s' rep' wrapper' s rep wrapper hrep'
      (hhandle ▸ hne) hrep hhandle
  have hspent : ∀ rep' wrapper', Function.update (e.stores s).table rep (some wrapper.spent) rep' =
      some wrapper' → wrapper'.kind = .mutableBuffer → wrapper'.handle ≠ wrapper.handle := by
    intro rep' wrapper' hrep' _ hhandle
    by_cases heq : rep' = rep
    · rw [heq, Function.update_self] at hrep'
      obtain rfl := Option.some.inj hrep'
      exact hne hhandle.symm
    · rw [Function.update_of_ne heq] at hrep'
      exact heq (hother s rep' wrapper' hrep' hhandle).2
  have hfrozen : ∀ h', (∀ rep' wrapper', h'.table rep' = some wrapper' →
      wrapper'.kind = .mutableBuffer → wrapper'.handle ≠ wrapper.handle) →
      (e.put s h').Immutable wrapper.handle := by
    intro h' hnew s' rep' wrapper' hrep' hkind'
    rw [put_table] at hrep'
    split_ifs at hrep' with hs
    · exact hnew rep' wrapper' hrep' hkind'
    · exact fun hhandle => hs (hother s' rep' wrapper' hrep' hhandle).1
  have hresources : ((e.store s).freeze wt rep).2.resources = e.resources := by
    unfold HostState.freeze
    rw [hget]
    dsimp only
    split <;> rfl
  refine ⟨?_, hresources⟩
  show (e.put s ((e.store s).freeze wt rep).2).Immutable _
  unfold HostState.freeze
  rw [hget]
  dsimp only
  split
  · exact hfrozen _ hspent
  · rename_i frozen table heq
    refine hfrozen _ ?_
    unfold WrapperTable.push at heq
    split at heq
    · cases heq
    · cases heq
      refine immutable_update hspent ?_
      rintro _ ⟨⟩ hkind'
      cases hkind'

end EngineState

namespace StartedEngine

open EngineState

/-- **Host-side wrappers are unique.** In every run in which the runtime hands each buffer on
once, the wrappers of all stores name live buffers as their owners, no buffer has two, and no
drop, reclaim or conversion of a valid wrapper fails. If moreover every request fits the pool
that serves it, what has been frozen keeps its payload. -/
theorem wrappers_unique (s : StartedEngine) (events : List Timed)
    (hdelivered : Guarded next Delivered s.start events) :
    (∀ wt, UniqueWrappers wt (s.start.run events)) ∧
    (Allowed (FitsPool s.manager.config) s.manager.manager s.ops →
      Guarded next (fun e event => e.Fits s.manager.config event.2) s.start events →
      s.FrozenKept events) := by
  refine ⟨fun wt => uniqueWrappers wt (s.backed_run hdelivered), fun hops hfits => ?_⟩
  rintro before wt store rep after rfl wrapper hget hne hlive
  have hslots : ∀ t b, b ∈ s.manager.slots t →
      b.size = headerSize + (s.manager.config.poolConfigs t).tier.capacity :=
    fun t b hb => s.manager.size_of_mem_slots hb
  have hstart : Isolated s.manager.slots s.start :=
    ⟨s.manager.trace s.ops, s.manager.isolated_after hops⟩
  obtain ⟨hdelivered₁, -, hdelivered₂⟩ := Guarded.append_iff.1 hdelivered
  obtain ⟨hfits₁, hfreeze, hfits₂⟩ := Guarded.append_iff.1 hfits
  have hbacked := s.backed_run hdelivered₁
  have hisolated : Isolated s.manager.slots (s.start.run before) :=
    hfits₁.invariant (fun _ event hfits h => h.step hslots hfits) hstart
  obtain ⟨himmutable, hresources⟩ := immutable_freeze wt hbacked hget hne
  have hrun : ∀ events', s.start.run (before ++ (wt, .call store (.freeze rep)) :: events') =
      ((s.start.run before).step wt (.call store (.freeze rep))).run events' := by
    intro events'
    exact List.foldl_append
  rw [hrun, payload_run (hisolated.step hslots hfreeze) hslots (hbacked.step _ trivial)
    hdelivered₂ hfits₂ himmutable fun events' hprefix => hrun events' ▸ hlive events' hprefix,
    hresources]

/-- A table that puts an entry at the first free place below 16. -/
def firstFree : Wasmtime where
  place table := (List.range 16).find? fun rep => (table rep).isNone
  place_free _ _ hplace := by
    have hfree := List.find?_some hplace
    exact Option.isNone_iff_eq_none.1 hfree
  errorText
    | .full => "resource table has no free keys"
    | .notPresent => "resource not present"
    | .wrongType => "resource is of another type"

/-- An engine over a manager that has not been used, with component 0 in every store. -/
def unused (manager : StartedManager) : StartedEngine where
  manager := manager
  ops := []
  stores _ := ⟨⟨0⟩, ⟨0⟩, fun _ => none⟩
  empty _ _ := rfl

/-- A buffer is written and frozen in store 0 and goes through the runtime to store 1, which
reclaims it. -/
def handedOn : List Timed :=
  [.call 0 (.allocate .bump 10), .call 0 (.write 0 0 [7]), .call 0 (.freeze 0),
    .convert 0 ⟨⟨0, 0, ""⟩, 1⟩, .marshal 1 ⟨⟨0, 0, ""⟩, ⟨⟨0, 1⟩⟩⟩, .reclaim 1 0].map
      fun event => (firstFree, event)

theorem wrappers_unique_handedOn :
    Guarded next Delivered (unused StartedManager.startedSmallPool).start handedOn ∧
    ∀ wt, UniqueWrappers wt ((unused StartedManager.startedSmallPool).start.run handedOn) := by
  have hmem : ⟨⟨0, 1⟩⟩ ∈
      ((unused StartedManager.startedSmallPool).start.run (handedOn.take 4)).inFlight := by
    decide
  have hdelivered :
      Guarded next Delivered (unused StartedManager.startedSmallPool).start handedOn :=
    ⟨trivial, trivial, trivial, trivial, hmem, trivial, trivial⟩
  exact ⟨hdelivered, (wrappers_unique _ handedOn hdelivered).1⟩

/-- A buffer of 1 MiB is written and frozen; then the buffer of 2 MiB in front of it is written
at its second half. -/
def overlapping : List Timed :=
  [.call 0 (.allocate .bump (2 * 1024 * 1024)), .call 0 (.allocate .bump (1024 * 1024)),
    .call 0 (.write 1 0 [7]), .call 0 (.freeze 1),
    .call 0 (.write 0 (1024 * 1024 + headerSize) [9])].map fun event => (firstFree, event)

/-- What has a payload is live. -/
theorem live_of_payload {e : EngineState} {handle : BufferHandle} {bytes : List UInt8}
    (h : e.resources.payload handle = some bytes) : e.Live handle := by
  unfold ResourceManager.payload at h
  unfold Live
  split at h
  · cases h
  · rename_i entry hget
    exact ⟨entry, hget⟩

/-- The frozen buffer changes: its bytes are within the payload of the other. -/
theorem frozen_payload_overwritten :
    Guarded next Delivered (unused StartedManager.startedHugePools).start overlapping ∧
    ¬FrozenKept (unused StartedManager.startedHugePools) overlapping := by
  let s := unused StartedManager.startedHugePools
  have hbefore : (s.start.run (overlapping.take 3)).resources.payload ⟨⟨1, 1⟩⟩ = some [7] := by
    decide
  have hfrozen : (s.start.run (overlapping.take 4)).resources.payload ⟨⟨1, 1⟩⟩ = some [7] := by
    decide
  have hafter : (s.start.run overlapping).resources.payload ⟨⟨1, 1⟩⟩ = some [9] := by
    decide
  have hget : ((s.start.run (overlapping.take 3)).stores 0).table.get .mutableBuffer 1 =
      .ok ⟨.mutableBuffer, ⟨⟨1, 1⟩⟩, .component ⟨0⟩⟩ := by
    decide
  refine ⟨⟨trivial, trivial, trivial, trivial, trivial, trivial⟩, fun hkept => ?_⟩
  have hsame := hkept (overlapping.take 3) firstFree 0 1 (overlapping.drop 4) rfl _ hget
    (by decide) fun events' hprefix => ?_
  · rw [hbefore, hafter] at hsame
    exact absurd hsame (by decide)
  · -- the last event has not happened, or it has
    rcases List.prefix_cons_iff.1 hprefix with rfl | ⟨rest, rfl, hrest⟩
    · exact live_of_payload hfrozen
    · obtain rfl := List.prefix_nil.1 hrest
      exact live_of_payload hafter

end StartedEngine

end Torvyn.Engine
