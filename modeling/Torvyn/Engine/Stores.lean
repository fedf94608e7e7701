/-
# The stores of an engine

Several stores share one manager. A buffer goes from store to store through the runtime: a
component returns it and it becomes the host's, and the runtime hands it to the next store. The
runtime hands each buffer on once.

In every run the claims of all holders, the wrappers of all stores and the runtime, are backed
by the resource table.
-/
import Torvyn.Data.GuardedRun
import Torvyn.Engine.Claims
import Torvyn.Engine.Invoker

namespace Torvyn.Engine

open ResourceManager

/-- The stores by number, the manager that they share, and the buffers that the runtime has
been handed and has not handed on. -/
structure EngineState where
  stores : ℕ → Store
  resources : ResourceManager
  inFlight : Finset BufferHandle

/-- Who may claim a buffer: a wrapper of a store, or the runtime. -/
inductive Holder where
  | wrapper (store rep : ℕ)
  | runtime (handle : BufferHandle)
  deriving DecidableEq, Repr

/-- The claim that a wrapper stands for, unless its buffer has been frozen. -/
def Wrapper.claim (wrapper : Wrapper) : Option Claim :=
  if wrapper.handle = frozenSentinel then none else some ⟨wrapper.handle, wrapper.owner⟩

/-- What happens to a store from outside: its component calls a host function, it is handed an
element, it hands one out, or an element that it was handed is reclaimed. -/
inductive Event where
  | call (store : ℕ) (call : HostCall)
  | marshal (store : ℕ) (element : StreamElement)
  | convert (store : ℕ) (out : WitOutputElement)
  | reclaim (store inputRep : ℕ)

namespace EngineState

/-- The state of one store. -/
def store (e : EngineState) (s : ℕ) : HostState := ⟨e.stores s, e.resources⟩

/-- Change the state of one store. -/
def put (e : EngineState) (s : ℕ) (h : HostState) : EngineState :=
  { e with stores := Function.update e.stores s h.toStore, resources := h.resources }

/-- The runtime is handed a buffer. -/
def handIn (handle : BufferHandle) (e : EngineState) : EngineState :=
  { e with inFlight := insert handle e.inFlight }

/-- The runtime hands a buffer on. -/
def handOn (handle : BufferHandle) (e : EngineState) : EngineState :=
  { e with inFlight := e.inFlight.erase handle }

/-- One event. -/
def step (wt : Wasmtime) (e : EngineState) : Event → EngineState
  | .call s call => e.put s ((e.store s).call wt call)
  | .marshal s element =>
    (e.put s ((e.store s).toWitStreamElement wt element).2).handOn element.payload
  | .convert s out =>
    match (e.store s).convertOutputElement wt out (e.stores s).componentId with
    | (.error _, h) => e.put s h
    | (.ok output, h) => (e.put s h).handIn output.payload
  | .reclaim s inputRep =>
    e.put s ((e.store s).reclaimInputElement wt inputRep (e.stores s).componentId).2

/-- An event, in the state that wasmtime's table has reached by then: where it puts its next
entries depends on what it has freed so far. -/
abbrev Timed := Wasmtime × Event

/-- The state after an event. -/
def next (e : EngineState) (event : Timed) : EngineState := e.step event.1 event.2

/-- The state after a sequence of events. -/
def run (e : EngineState) (events : List Timed) : EngineState := events.foldl next e

/-- The runtime hands on what it has been handed and has not handed on yet. -/
def Delivered (e : EngineState) (event : Timed) : Prop :=
  match event.2 with
  | .marshal _ element => element.payload ∈ e.inFlight
  | _ => True

/-- The claims of all holders. -/
def claims (e : EngineState) : Holder → Option Claim
  | .wrapper s rep => ((e.stores s).table rep).bind Wrapper.claim
  | .runtime handle => if handle ∈ e.inFlight then some ⟨handle, .host⟩ else none

/-! ## How claims change -/

variable {e : EngineState} {s rep : ℕ} {wrapper : Wrapper} {handle : BufferHandle}

/-- The claims after a store has changed. -/
theorem claims_put (e : EngineState) (s : ℕ) (h : HostState) :
    (e.put s h).claims = fun
      | .wrapper s' rep =>
        if s' = s then (h.table rep).bind Wrapper.claim else e.claims (.wrapper s' rep)
      | .runtime handle => e.claims (.runtime handle) := by
  funext holder
  cases holder with
  | runtime handle => rfl
  | wrapper s' rep =>
    by_cases hs : s' = s
    · subst hs
      simp [claims, put]
    · simp [claims, put, hs]

/-- Without a change of its table a store claims what it did. -/
theorem claims_put_same {h : HostState} (htable : h.table = (e.stores s).table) :
    (e.put s h).claims = e.claims := by
  rw [claims_put]
  funext holder
  cases holder with
  | runtime handle => rfl
  | wrapper s' rep =>
    show (if s' = s then (h.table rep).bind Wrapper.claim else _) = _
    split_ifs with hs
    · rw [hs, htable]
      rfl
    · rfl

/-- A change of one wrapper changes the claim of that wrapper. -/
theorem claims_put_update {h : HostState} {w : Option Wrapper}
    (htable : h.table = Function.update (e.stores s).table rep w) :
    (e.put s h).claims = Function.update e.claims (.wrapper s rep) (w.bind Wrapper.claim) := by
  rw [claims_put]
  funext holder
  cases holder with
  | runtime handle => rfl
  | wrapper s' rep' =>
    show (if s' = s then (h.table rep').bind Wrapper.claim else _) = _
    by_cases hs : s' = s
    · subst hs
      rw [if_pos rfl, htable]
      by_cases hrep : rep' = rep
      · rw [hrep, Function.update_self, Function.update_self]
      · have hne : Holder.wrapper s' rep' ≠ .wrapper s' rep := fun heq =>
          hrep (Holder.wrapper.inj heq).2
        rw [Function.update_of_ne hrep, Function.update_of_ne hne]
        rfl
    · have hne : Holder.wrapper s' rep' ≠ .wrapper s rep := fun heq =>
        hs (Holder.wrapper.inj heq).1
      rw [if_neg hs, Function.update_of_ne hne]

/-- A change of two wrappers, one after the other. -/
theorem claims_put_update₂ {h : HostState} {rep' : ℕ} {w w' : Option Wrapper}
    (htable : h.table = Function.update (Function.update (e.stores s).table rep w) rep' w') :
    (e.put s h).claims =
      Function.update (Function.update e.claims (.wrapper s rep) (w.bind Wrapper.claim))
        (.wrapper s rep') (w'.bind Wrapper.claim) := by
  let first : EngineState :=
    e.put s { e.store s with table := Function.update (e.stores s).table rep w }
  have hfirst : first.claims =
      Function.update e.claims (.wrapper s rep) (w.bind Wrapper.claim) := claims_put_update rfl
  have hstore : (first.stores s).table = Function.update (e.stores s).table rep w := by
    show (Function.update e.stores s _ s).table = _
    rw [Function.update_self]
  have hput : first.put s h = e.put s h := by
    simp only [first, put, Function.update_idem]
  rw [← hput, claims_put_update (hstore ▸ htable), hfirst]

/-- A buffer that the runtime is handed is claimed by the runtime. -/
theorem claims_handIn (e : EngineState) (handle : BufferHandle) :
    (e.handIn handle).claims =
      Function.update e.claims (.runtime handle) (some ⟨handle, .host⟩) := by
  funext holder
  cases holder with
  | wrapper s rep => rfl
  | runtime other =>
    by_cases h : other = handle
    · subst h
      simp [claims, handIn]
    · simp [claims, handIn, h]

/-- A buffer that the runtime hands on is no longer claimed by it. -/
theorem claims_handOn (e : EngineState) (handle : BufferHandle) :
    (e.handOn handle).claims = Function.update e.claims (.runtime handle) none := by
  funext holder
  cases holder with
  | wrapper s rep => rfl
  | runtime other =>
    by_cases h : other = handle
    · subst h
      simp [claims, handOn]
    · simp [claims, handOn, h]

/-- The wrapper of a claim. -/
theorem claims_wrapper (h : (e.stores s).table rep = some wrapper)
    (hne : wrapper.handle ≠ frozenSentinel) :
    e.claims (.wrapper s rep) = some ⟨wrapper.handle, wrapper.owner⟩ := by
  show ((e.stores s).table rep).bind Wrapper.claim = _
  rw [h]
  exact if_neg hne

end EngineState

/-! ## Every event -/

/-- The claims are backed. -/
abbrev EngineState.Backed (e : EngineState) : Prop := Engine.Backed e.claims e.resources.table

namespace Backed

variable {κ : Type*} {claims : κ → Option Claim} {table : ResourceTable} {k : κ}
  {handle : BufferHandle}

/-- No buffer is live under the sentinel. -/
theorem get_sentinel (h : Backed claims table) :
    table.get frozenSentinel = .error (.staleHandle frozenSentinel.resourceId) := by
  have hnone : table.entries[2 ^ 32 - 1]? = none := by
    rw [List.getElem?_eq_none_iff, h.wellFormed.length]
    exact h.wellFormed.capacity_le
  simp only [ResourceTable.get, frozenSentinel, hnone]

theorem ne_sentinel (h : Backed claims table) {entry : ResourceEntry}
    (hget : table.get handle = .ok entry) : handle ≠ frozenSentinel := by
  rintro rfl
  rw [h.get_sentinel] at hget
  cases hget

/-- A wrapper of an owned buffer that nobody claims may be put anywhere. -/
theorem wrap [DecidableEq κ] (h : Backed claims table) (wrapper : Wrapper)
    (hfree : Unclaimed claims wrapper.handle) (howned : Owned table ⟨wrapper.handle, wrapper.owner⟩)
    (k : κ) : Backed (Function.update claims k wrapper.claim) table := by
  unfold Wrapper.claim
  split_ifs
  · exact h.take k
  · exact h.give (c := ⟨wrapper.handle, wrapper.owner⟩) hfree howned k

variable {e : EngineState} {s : ℕ} {wt : Wasmtime}

/-- **A call of a host function keeps the claims backed.** -/
theorem called {h' : HostState} (h : e.Backed) (hcalled : Called (e.store s) h') :
    (e.put s h').Backed := by
  show Backed (e.put s h').claims h'.resources.table
  cases hcalled with
  | quiet m hsame =>
    rw [EngineState.claims_put_same rfl]
    exact h.unchanged hsame
  | wrote rep wrapper entry newEnd m _ _ hrep =>
    rw [EngineState.claims_put_same rfl]
    exact h.replaced hrep (.inr fun c hc => ⟨hc.state, hc.owner, hc.unborrowed⟩)
  | lost handle entry m _ hins =>
    rw [EngineState.claims_put_same rfl]
    exact h.inserted hins
  | gained handle entry m rep hentry hins =>
    rw [EngineState.claims_put_update rfl]
    refine (h.inserted hins).wrap ⟨.mutableBuffer, handle, _⟩
      (h.unclaimed_inserted hins) ⟨entry, ?_, ?_⟩ _
    · exact hins.live.mem_iff.2 List.mem_cons_self
    · exact ⟨hentry.state, hentry.owner, hentry.unborrowed⟩
  | unwrapped rep wrapper =>
    rw [EngineState.claims_put_update rfl]
    exact h.take _
  | froze rep wrapper frozen hrep =>
    -- the claim goes from the mutable wrapper to the new one
    rw [EngineState.claims_put_update₂ rfl]
    by_cases hne : wrapper.handle = frozenSentinel
    · have hnone : Wrapper.claim ⟨.buffer, wrapper.handle, wrapper.owner⟩ = none := if_pos hne
      show Backed (Function.update _ _ (Wrapper.claim ⟨.buffer, _, _⟩)) _
      rw [hnone]
      exact (h.take _).take _
    · have hsome : Wrapper.claim ⟨.buffer, wrapper.handle, wrapper.owner⟩ =
          some ⟨wrapper.handle, wrapper.owner⟩ := if_neg hne
      show Backed (Function.update _ _ (Wrapper.claim ⟨.buffer, _, _⟩)) _
      rw [hsome]
      exact h.move (EngineState.claims_wrapper hrep hne) _
  | dropped rep wrapper entry m hrep hne hrem =>
    have hclaim := EngineState.claims_wrapper hrep hne
    rw [EngineState.claims_put_update rfl]
    exact (h.take _).removed hrem (h.exclusive.unheld_take hclaim)
  | forgot rep wrapper =>
    rw [EngineState.claims_put_update rfl]
    exact h.take _

end Backed

namespace HostState

variable {h : HostState} {wt : Wasmtime}

/-- How an element comes into a store. -/
theorem marshal_cases (wt : Wasmtime) (element : StreamElement) (h : HostState) :
    (wt.place h.table = none ∧ h.toWitStreamElement wt element = (.error .full, h)) ∨
    ∃ rep, wt.place h.table = some rep ∧ h.table rep = none ∧
      h.toWitStreamElement wt element = (.ok ⟨element.metadata, rep⟩,
        { h with table := Function.update h.table rep (some ⟨.buffer, element.payload, .host⟩) }) := by
  unfold toWitStreamElement WrapperTable.push
  cases hplace : wt.place h.table with
  | none => exact .inl ⟨rfl, rfl⟩
  | some rep => exact .inr ⟨rep, rfl, wt.place_free _ _ hplace, rfl⟩

/-- How an element leaves a store. -/
theorem convert_cases (wt : Wasmtime) (out : WitOutputElement) (componentId : ComponentId)
    (h : HostState) :
    (∃ e, h.convertOutputElement wt out componentId = (.error e, h)) ∨
    (∃ e wrapper, h.table out.payload = some wrapper ∧
      h.convertOutputElement wt out componentId =
        (.error e, { h with table := Function.update h.table out.payload none }) ∧
      ∀ entry, h.resources.table.get wrapper.handle = .ok entry →
        checkOwnedBy wrapper.handle wrapper.owner entry ≠ .ok ()) ∨
    ∃ wrapper entry m, h.table out.payload = some wrapper ∧
      h.resources.table.get wrapper.handle = .ok entry ∧
      checkOwnedBy wrapper.handle wrapper.owner entry = .ok () ∧
      m.table = h.resources.table.put wrapper.handle { entry with owner := .host } ∧
      h.convertOutputElement wt out componentId = (.ok ⟨out.metadata, wrapper.handle⟩,
        { h with table := Function.update h.table out.payload none, resources := m }) := by
  unfold convertOutputElement WrapperTable.delete
  cases hget : h.table.get .buffer out.payload with
  | error e => exact .inl ⟨_, rfl⟩
  | ok wrapper =>
    obtain ⟨hrep, -⟩ := WrapperTable.get_eq_ok.1 hget
    refine .inr ?_
    have hsucceeds : ∀ entry, h.resources.table.get wrapper.handle = .ok entry →
        checkOwnedBy wrapper.handle wrapper.owner entry = .ok () →
        (h.resources.transferOwnership wrapper.handle wrapper.owner .host).1 = .ok () :=
      fun entry hentry hcheck => transfer_succeeds hentry rfl hcheck
    have hcases := transfer_cases wrapper.handle wrapper.owner .host h.resources
    cases hresult : h.resources.transferOwnership wrapper.handle wrapper.owner .host with
    | mk result m =>
      rw [hresult] at hcases hsucceeds
      cases hcases with
      | refused e =>
        refine .inl ⟨_, wrapper, hrep, by simp only [hresult]; rfl, fun entry hentry hcheck => ?_⟩
        cases hsucceeds entry hentry hcheck
      | charged entry budgets e hentry hbudgets hcheck =>
        obtain rfl := Except.ok.inj hbudgets
        refine .inl ⟨_, wrapper, hrep, by simp only [hresult]; rfl, fun entry hentry hcheck => ?_⟩
        cases hsucceeds entry hentry hcheck
      | moved entry budgets hentry hbudgets hcheck =>
        exact .inr ⟨wrapper, entry, _, hrep, hentry, hcheck, rfl, by simp only [hresult]; rfl⟩

/-- How an input is reclaimed: like a wrapper that is dropped, except that the sentinel is not
looked at. -/
theorem reclaim_cases (wt : Wasmtime) (inputRep : ℕ) (componentId : ComponentId) (h : HostState) :
    (∃ e, h.reclaimInputElement wt inputRep componentId = (.error e, h)) ∨
    (∃ e wrapper, h.table inputRep = some wrapper ∧
      h.reclaimInputElement wt inputRep componentId =
        (.error e, { h with table := Function.update h.table inputRep none }) ∧
      ∀ entry, h.resources.table.get wrapper.handle = .ok entry →
        checkOwnedBy wrapper.handle wrapper.owner entry ≠ .ok ()) ∨
    ∃ wrapper entry m, h.table inputRep = some wrapper ∧
      h.resources.table.get wrapper.handle = .ok entry ∧
      h.resources.table.Removed m.table wrapper.handle entry ∧
      h.resources.release wrapper.handle wrapper.owner = (.ok (), m) ∧
      h.reclaimInputElement wt inputRep componentId =
        (.ok (), { h with table := Function.update h.table inputRep none, resources := m }) := by
  unfold reclaimInputElement WrapperTable.delete
  cases hget : h.table.get .buffer inputRep with
  | error e => exact .inl ⟨_, rfl⟩
  | ok wrapper =>
    obtain ⟨hrep, -⟩ := WrapperTable.get_eq_ok.1 hget
    refine .inr ?_
    have hsucceeds : ∀ entry, h.resources.table.get wrapper.handle = .ok entry →
        checkOwnedBy wrapper.handle wrapper.owner entry = .ok () →
        (h.resources.release wrapper.handle wrapper.owner).1 = .ok () :=
      fun entry hentry hcheck => release_succeeds hentry hcheck
    have hcases := release_cases wrapper.handle wrapper.owner h.resources
    cases hresult : h.resources.release wrapper.handle wrapper.owner with
    | mk result m =>
      rw [hresult] at hcases hsucceeds
      cases hcases with
      | refused e =>
        refine .inl ⟨_, wrapper, hrep, by simp only [hresult]; rfl, fun entry hentry hcheck => ?_⟩
        cases hsucceeds entry hentry hcheck
      | dropped entry table hentry hcheck hrem =>
        refine .inr ⟨wrapper, entry, _, hrep, hentry, hrem, hresult, ?_⟩
        simp only [hresult]

end HostState

/-! ## Runs -/

namespace Backed

variable {e : EngineState} {s : ℕ} {wt : Wasmtime}

/-- An input that is reclaimed goes like a wrapper that is dropped. -/
theorem called_reclaim (h : e.Backed) (inputRep : ℕ) (componentId : ComponentId) :
    Called (e.store s) ((e.store s).reclaimInputElement wt inputRep componentId).2 := by
  rcases HostState.reclaim_cases wt inputRep componentId (e.store s) with
    ⟨err, heq⟩ | ⟨err, wrapper, hrep, heq, hrefused⟩ | ⟨wrapper, entry, m, hrep, hget, hrem, -, heq⟩
  · rw [heq]
    exact .refused _
  · rw [heq]
    refine .forgot inputRep wrapper hrep (.inr ?_)
    have hcases := release_cases wrapper.handle wrapper.owner e.resources
    cases hresult : e.resources.release wrapper.handle wrapper.owner with
    | mk result m =>
      rw [hresult] at hcases
      cases hcases with
      | refused err' => exact ⟨err', hresult⟩
      | dropped entry table hget hcheck => exact absurd hcheck (hrefused entry hget)
  · rw [heq]
    exact .dropped inputRep wrapper entry m hrep (h.ne_sentinel hget) hrem

/-- **Every event keeps the claims backed.** -/
theorem step (h : e.Backed) (event : Event) (hdelivered : e.Delivered (wt, event)) :
    (e.step wt event).Backed := by
  cases event with
  | call s call => exact h.called (Called.call wt _ call)
  | reclaim s inputRep => exact h.called (h.called_reclaim inputRep _)
  | marshal s element =>
    have hclaim : e.claims (.runtime element.payload) = some ⟨element.payload, .host⟩ :=
      if_pos hdelivered
    show Backed ((e.put s _).handOn element.payload).claims (e.put s _).resources.table
    rw [EngineState.claims_handOn]
    rcases HostState.marshal_cases wt element (e.store s) with
      ⟨-, heq⟩ | ⟨rep, -, -, heq⟩
    · rw [heq, EngineState.claims_put_same rfl]
      exact h.take _
    · -- the claim goes from the runtime to the wrapper
      have hne : Holder.wrapper s rep ≠ .runtime element.payload := by simp
      rw [heq, EngineState.claims_put_update rfl, Function.update_comm hne]
      exact (h.take _).wrap ⟨.buffer, element.payload, .host⟩
        (h.exclusive.unheld_take hclaim) (h.owned hclaim) _
  | convert s out =>
    simp only [EngineState.step]
    rcases HostState.convert_cases wt out (e.stores s).componentId (e.store s) with
      ⟨err, heq⟩ | ⟨err, wrapper, hrep, heq, -⟩ |
      ⟨wrapper, entry, m, hrep, hget, hcheck, hm, heq⟩
    · rw [heq]
      show Backed (e.put s _).claims _
      rw [EngineState.claims_put_same rfl]
      exact h
    · rw [heq]
      show Backed (e.put s _).claims _
      rw [EngineState.claims_put_update rfl]
      exact h.take _
    · -- the claim goes from the wrapper to the runtime, and the buffer from its owner to the host
      rw [heq]
      have hclaim := EngineState.claims_wrapper hrep (h.ne_sentinel hget)
      have hfree := h.exclusive.unheld_take hclaim
      obtain ⟨found, hmem, howned⟩ := h.owned hclaim
      obtain rfl := Except.ok.inj (hget.symm.trans (ResourceTable.get_eq_ok.2 hmem))
      have hrep' := ResourceTable.Replaced.of_put hget { entry with owner := .host } rfl
      rw [← hm] at hrep'
      show Backed ((e.put s _).handIn wrapper.handle).claims m.table
      rw [EngineState.claims_handIn, EngineState.claims_put_update rfl]
      have hmoved := (h.take (.wrapper s out.payload)).replaced hrep' (.inl hfree)
      exact hmoved.give (c := ⟨wrapper.handle, .host⟩) hfree ⟨_, hrep'.mem, howned.state, rfl, howned.unborrowed⟩ _

end Backed

end Torvyn.Engine
