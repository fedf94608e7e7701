/-
# The ownership state machine in every run

The state, the owner and the borrow count of an entry are three fields, changed by different
functions. In every run they agree: an entry is borrowed exactly while its count is positive,
the count is the number of borrows that have been started and not ended, and what is borrowed
cannot be released, transferred or written.
-/
import Torvyn.Resources.Payload

namespace Torvyn

namespace ResourceManager

/-! ## The borrows of a handle -/

/-- What a call means for the borrows of a handle. -/
inductive BorrowEvent where
  | allocated
  | started
  | ended
  deriving DecidableEq, Repr

/-- The event of a successful call on the handle. -/
def borrowEvent (handle : BufferHandle) : Op × Reply → Option BorrowEvent
  | (.allocate _ _ _ _, .handle (.ok h)) => if h = handle then some .allocated else none
  | (.borrowStart h _, .done (.ok ())) => if h = handle then some .started else none
  | (.borrowEnd h _, .done (.ok ())) => if h = handle then some .ended else none
  | _ => none

/-- The borrow events of a handle since it was allocated, the latest first. -/
def borrowEvents (handle : BufferHandle) (trace : Trace) : List BorrowEvent :=
  (trace.filterMap (borrowEvent handle)).takeWhile (· ≠ .allocated)

section Events

variable {handle : BufferHandle} {call : Op × Reply} {trace : Trace}

theorem borrowEvents_cons_none (h : borrowEvent handle call = none) :
    borrowEvents handle (call :: trace) = borrowEvents handle trace := by
  rw [borrowEvents, List.filterMap_cons_none h, borrowEvents]

theorem borrowEvents_cons_allocated (h : borrowEvent handle call = some .allocated) :
    borrowEvents handle (call :: trace) = [] := by
  rw [borrowEvents, List.filterMap_cons_some h, List.takeWhile_cons_of_neg (by simp)]

theorem borrowEvents_cons_borrow {event : BorrowEvent} (h : borrowEvent handle call = some event)
    (hne : event ≠ .allocated) :
    borrowEvents handle (call :: trace) = event :: borrowEvents handle trace := by
  rw [borrowEvents, List.filterMap_cons_some h, List.takeWhile_cons_of_pos (by simpa using hne),
    borrowEvents]

/-- A failed call is no event. -/
theorem borrowEvent_of_failed {op : Op} {reply : Reply} (h : reply.failed = true) :
    borrowEvent handle (op, reply) = none := by
  cases reply with
  | done result => cases result <;> cases op <;> first | rfl | cases h
  | handle result => cases result <;> cases op <;> first | rfl | cases h
  | bytes result => cases op <;> rfl
  | reclaimed resources => cases op <;> rfl
  | stats result => cases op <;> rfl

end Events

/-! ## The invariant -/

/-- A live entry is owned or borrowed, borrowed exactly while its count is positive; its count
is that of the borrows outstanding, and it is not in transit. -/
structure EntryState (trace : Trace) (p : ResourceId × ResourceEntry) : Prop where
  state : p.2.state = .owned ∨ p.2.state = .borrowed
  borrowed : p.2.state = .borrowed ↔ 0 < p.2.borrowCount
  count : p.2.borrowCount + (borrowEvents ⟨p.1⟩ trace).count .ended =
    (borrowEvents ⟨p.1⟩ trace).count .started
  owner : p.2.owner ≠ .transit

/-- The calls of a run: a transfer is to the host or to a component, and no borrow is started
while the count of its entry is at its limit. -/
def Disciplined (m : ResourceManager) : Op → Prop
  | .transferOwnership _ _ recipient => recipient ≠ .transit
  | .borrowStart handle _ =>
    ∀ entry, m.table.get handle = .ok entry → entry.borrowCount + 1 < 2 ^ 32
  | _ => True

/-- An allocation names an owner that can hold a buffer. -/
def NamesOwner : Op → Prop
  | .allocate _ owner _ _ => owner ≠ .transit
  | _ => True

namespace EntryState

variable {trace : Trace} {p : ResourceId × ResourceEntry}

/-- A call on other handles does not matter. -/
theorem cons_of_none {call : Op × Reply} (h : EntryState trace p)
    (hnone : borrowEvent ⟨p.1⟩ call = none) : EntryState (call :: trace) p where
  state := h.state
  borrowed := h.borrowed
  count := by
    rw [borrowEvents_cons_none hnone]
    exact h.count
  owner := h.owner

/-- A borrow that starts below the limit of the count. -/
theorem borrowStart {handle : BufferHandle} {entry borrowed : ResourceEntry}
    (h : EntryState trace (handle.resourceId, entry))
    (hok : Torvyn.borrowStart handle entry = .ok borrowed)
    (hlimit : entry.borrowCount + 1 < 2 ^ 32) (borrower : ComponentId) :
    EntryState ((.borrowStart handle borrower, .done (.ok ())) :: trace)
      (handle.resourceId, borrowed) := by
  have hborrowed : borrowed =
      { entry with borrowCount := entry.borrowCount + 1, state := .borrowed } := by
    unfold Torvyn.borrowStart at hok
    rw [Nat.mod_eq_of_lt hlimit] at hok
    have hstate : entry.state = .owned ∨ entry.state = .borrowed := h.state
    rcases hstate with hstate | hstate
    all_goals
      simp only [hstate] at hok
      exact (Except.ok.inj hok).symm
  have hevents : borrowEvents handle ((.borrowStart handle borrower, .done (.ok ())) :: trace) =
      .started :: borrowEvents handle trace :=
    borrowEvents_cons_borrow (if_pos rfl) (by decide)
  have hcount : entry.borrowCount + (borrowEvents handle trace).count .ended =
      (borrowEvents handle trace).count .started := h.count
  subst hborrowed
  refine ⟨.inr rfl, iff_of_true rfl (Nat.succ_pos _), ?_, h.owner⟩
  rw [hevents, List.count_cons_self, List.count_cons_of_ne (by decide)]
  show entry.borrowCount + 1 + _ = _
  omega

/-- A borrow that ends. -/
theorem borrowEnd {handle : BufferHandle} {entry returned : ResourceEntry}
    (h : EntryState trace (handle.resourceId, entry))
    (hok : Torvyn.borrowEnd handle entry = .ok returned) (borrower : ComponentId) :
    EntryState ((.borrowEnd handle borrower, .done (.ok ())) :: trace)
      (handle.resourceId, returned) := by
  have hreturned : entry.state = .borrowed ∧ returned =
      { entry with
        borrowCount := entry.borrowCount - 1
        state := if entry.borrowCount - 1 = 0 then .owned else entry.state } := by
    unfold Torvyn.borrowEnd at hok
    split at hok
    · rename_i hstate
      split_ifs at hok
      exact ⟨hstate, (Except.ok.inj hok).symm⟩
    · cases hok
  obtain ⟨hstate, rfl⟩ := hreturned
  have hpos : 0 < entry.borrowCount := h.borrowed.1 hstate
  have hevents : borrowEvents handle ((.borrowEnd handle borrower, .done (.ok ())) :: trace) =
      .ended :: borrowEvents handle trace :=
    borrowEvents_cons_borrow (if_pos rfl) (by decide)
  have hcount : entry.borrowCount + (borrowEvents handle trace).count .ended =
      (borrowEvents handle trace).count .started := h.count
  refine ⟨?_, ?_, ?_, h.owner⟩
  · show (if entry.borrowCount - 1 = 0 then _ else _) = _ ∨ _
    split_ifs
    · exact .inl rfl
    · exact .inr hstate
  · show (if entry.borrowCount - 1 = 0 then _ else _) = _ ↔ 0 < entry.borrowCount - 1
    split_ifs with hzero
    · simp [hzero]
    · exact iff_of_true hstate (Nat.pos_of_ne_zero hzero)
  · rw [hevents, List.count_cons_self, List.count_cons_of_ne (by decide)]
    show entry.borrowCount - 1 + (_ + 1) = _
    omega

end EntryState

/-- Every live entry is in such a state. -/
def EntryStates (trace : Trace) (m : ResourceManager) : Prop :=
  ∀ p ∈ m.table.iter, EntryState trace p

namespace EntryStates

variable {trace : Trace} {m : ResourceManager}

/-- A call that is no event of a borrow and adds no entry. -/
theorem mono {call : Op × Reply} {after : ResourceManager} (h : EntryStates trace m)
    (hevent : ∀ handle, borrowEvent handle call = none)
    (hsub : ∀ p ∈ after.table.iter, p ∈ m.table.iter) : EntryStates (call :: trace) after :=
  fun p hp => (h p (hsub p hp)).cons_of_none (hevent _)

/-- A call that changes one entry. -/
theorem replace {call : Op × Reply} {handle : BufferHandle} {entry entry' : ResourceEntry}
    {table : ResourceTable} (h : EntryStates trace m)
    (hrep : m.table.Replaced table handle entry entry')
    (hself : EntryState (call :: trace) (handle.resourceId, entry'))
    (hother : ∀ other, other ≠ handle → borrowEvent other call = none) :
    ∀ p ∈ table.iter, EntryState (call :: trace) p := by
  intro p hp
  rcases hrep.cases hp with rfl | ⟨hold, hne⟩
  · exact hself
  · refine (h p hold).cons_of_none (hother _ fun heq => hne ?_)
    rw [← heq]

/-- **Every call keeps the entries in such a state.** -/
theorem step (h : EntryStates trace m) (op : Op) (hop : Disciplined m op) (howner : NamesOwner op) :
    EntryStates ((op, (m.step op).1) :: trace) (m.step op).2 := by
  have hstep := step_cases m op
  generalize (m.step op).1 = reply at hstep ⊢
  generalize (m.step op).2 = after at hstep ⊢
  cases hstep with
  | registeredFlow flowId => exact h.mono (fun _ => rfl) fun _ hp => hp
  | registeredComponent component maxOwnedBytes => exact h.mono (fun _ => rfl) fun _ hp => hp
  | refused op reply hop hfailed =>
    exact h.mono (fun _ => borrowEvent_of_failed hfailed) fun _ hp => hp
  | exhausted alloc owner n flowId budgets e => exact h.mono (fun _ => rfl) fun _ hp => hp
  | rolledBack alloc owner n flowId budgets e buffer pools heap =>
    exact h.mono (fun _ => rfl) fun _ hp => hp
  | admitted alloc owner n flowId budgets buffer pools heap id table _ _ _ hins =>
    intro p hp
    rcases List.mem_cons.1 (hins.live.mem_iff.1 hp) with rfl | hold
    · have hevents : borrowEvents ⟨id⟩
          ((.allocate alloc owner n flowId, .handle (.ok ⟨id⟩)) :: trace) = [] :=
        borrowEvents_cons_allocated (if_pos rfl)
      refine ⟨.inl rfl, by simp [freshEntry], ?_, howner⟩
      rw [hevents]
      rfl
    · refine (h p hold).cons_of_none (if_neg fun heq => hins.fresh ?_)
      rw [BufferHandle.mk.inj heq]
      exact List.mem_map_of_mem hold
  | dropped handle caller entry table hget hcheck hrem =>
    exact h.mono (fun _ => rfl) fun p hp => hrem.live.mem_iff.2 (List.mem_cons_of_mem _ hp)
  | charged handle sender recipient entry budgets e => exact h.mono (fun _ => rfl) fun _ hp => hp
  | moved handle sender recipient entry budgets hget =>
    have hentry := h _ (ResourceTable.get_eq_ok.1 hget)
    refine h.replace (.of_put hget { entry with owner := recipient } rfl) ?_ fun _ _ => rfl
    exact EntryState.cons_of_none ⟨hentry.state, hentry.borrowed, hentry.count, hop⟩ rfl
  | borrowStarted handle borrower entry borrowed hget hok =>
    have hentry := h _ (ResourceTable.get_eq_ok.1 hget)
    refine h.replace (.of_put hget borrowed (borrowStart_same hok).1.generation)
      (hentry.borrowStart hok (hop entry hget) borrower) fun other hne => ?_
    exact if_neg (Ne.symm hne)
  | borrowEnded handle borrower entry returned hget hok =>
    have hentry := h _ (ResourceTable.get_eq_ok.1 hget)
    refine h.replace (.of_put hget returned (borrowEnd_same hok).1.generation)
      (hentry.borrowEnd hok borrower) fun other hne => ?_
    exact if_neg (Ne.symm hne)
  | read handle caller offset length flowId entry => exact h.mono (fun _ => rfl) fun _ hp => hp
  | wrote handle caller offset data flowId entry hget =>
    have hentry := h _ (ResourceTable.get_eq_ok.1 hget)
    refine h.replace (.of_put hget (writtenEntry entry (offset + data.length)) rfl) ?_
      fun _ _ => rfl
    exact EntryState.cons_of_none ⟨hentry.state, hentry.borrowed, hentry.count, hentry.owner⟩ rfl
  | forceReclaimed component hash =>
    obtain ⟨removed, hswept⟩ := forceReclaim_swept (m := m) component hash
    exact h.mono (fun _ => rfl) fun _ hp => hswept.mem_of_mem hp
  | flowReclaimed flowId hash =>
    obtain ⟨removed, hswept⟩ := reclaimFlow_swept (m := m) flowId hash
    exact h.mono (fun _ => rfl) fun _ hp => hswept.mem_of_mem hp
  | flowReleased flowId hash =>
    obtain ⟨removed, hswept⟩ := reclaimFlow_swept (m := m) flowId hash
    exact h.mono (fun _ => rfl) fun _ hp => hswept.mem_of_mem hp

end EntryStates

/-! ## What a borrow protects -/

/-- A borrowed resource refuses to be released, transferred and written, and its payload
stays as it is until it is reclaimed by force. -/
structure Protected (config : ResourceManagerConfig) (m : ResourceManager)
    (handle : BufferHandle) (entry : ResourceEntry) : Prop where
  release : ∀ caller, ∃ e, (m.release handle caller).1 = .error e
  transfer : ∀ sender recipient, ∃ e, (m.transferOwnership handle sender recipient).1 = .error e
  write : ∀ caller offset data flowId,
    ∃ e, (m.writePayload handle caller offset data flowId).1 = .error e
  payload : ∀ op, FitsPool config m op →
    (∃ entry', (m.step op).2.table.get handle = .ok entry' ∧
      payloadOf (m.step op).2 entry' = payloadOf m entry) ∨
    (op.reclaims = true ∧ ∀ entry', (m.step op).2.table.get handle ≠ .ok entry')

theorem EntryState.protected_of_isolated {config : ResourceManagerConfig}
    {slots : PoolTier → List Block} {trace : Trace} {m : ResourceManager} {handle : BufferHandle}
    {entry : ResourceEntry} (h : EntryState trace (handle.resourceId, entry))
    (hget : m.table.get handle = .ok entry) (hpos : 0 < entry.borrowCount)
    (hisolated : IsolatedManager slots (written trace) m)
    (hslots : ∀ t b, b ∈ slots t →
      b.size = headerSize + (config.poolConfigs t).tier.capacity) :
    Protected config m handle entry := by
  have hborrowed : entry.state = .borrowed := h.borrowed.2 hpos
  have hnot : ∀ {entry'}, m.table.get handle = .ok entry' → entry'.state ≠ .owned := by
    intro entry' hget' howned
    obtain rfl := Except.ok.inj (hget.symm.trans hget')
    rw [hborrowed] at howned
    cases howned
  have hrelease : ∀ caller, ∃ e, (m.release handle caller).1 = .error e := by
    intro caller
    have hcases := release_cases handle caller m
    generalize m.release handle caller = result at hcases ⊢
    cases hcases with
    | refused e => exact ⟨e, rfl⟩
    | dropped entry' table hget' hcheck =>
      exact absurd (owner_eq_of_checkOwnedBy hcheck).1 (hnot hget')
  have hwrite : ∀ caller offset data flowId,
      ∃ e, (m.writePayload handle caller offset data flowId).1 = .error e := by
    intro caller offset data flowId
    rcases write_cases handle caller offset data flowId m with
      ⟨e, heq⟩ | ⟨entry', hget', -, hstate, -⟩
    · exact ⟨e, by rw [heq]⟩
    · exact absurd hstate (hnot hget')
  refine ⟨hrelease, fun sender recipient => ?_, hwrite, fun op hfits => ?_⟩
  · have hcases := transfer_cases handle sender recipient m
    generalize m.transferOwnership handle sender recipient = result at hcases ⊢
    cases hcases with
    | refused e => exact ⟨e, rfl⟩
    | charged entry' budgets e => exact ⟨e, rfl⟩
    | moved entry' budgets hget' _ hcheck =>
      exact absurd (owner_eq_of_checkOwnedBy hcheck).1 (hnot hget')
  · -- what would alter the resource is refused
    have hfailed : op.alters handle → (m.step op).1.failed = true := by
      intro halters
      cases op <;> try cases halters
      · rename_i caller
        obtain ⟨e, he⟩ := hrelease caller
        show (Reply.done (m.release handle caller).1).failed = true
        rw [he]
        rfl
      · rename_i caller offset data flowId
        obtain ⟨e, he⟩ := hwrite caller offset data flowId
        show (Reply.done (m.writePayload handle caller offset data flowId).1).failed = true
        rw [he]
        rfl
    have hp := ResourceTable.get_eq_ok.1 hget
    rcases payload_step hisolated hslots hp hfits hfailed with ⟨entry', hmem, heq⟩ | ⟨hop, hgone⟩
    · exact .inl ⟨entry', ResourceTable.get_eq_ok.2 hmem, heq⟩
    · refine .inr ⟨hop, fun entry' hget' => hgone ?_⟩
      exact List.mem_map.2 ⟨_, ResourceTable.get_eq_ok.1 hget', rfl⟩

/-! ## The changes of state -/

/-- The change of state that a transition makes. -/
def stateChange (entry : ResourceEntry) :
    Except ResourceError ResourceEntry → List (ResourceState × ResourceState)
  | .ok entry' => [(entry.state, entry'.state)]
  | .error _ => []

/-- The changes of state that a call makes, in order: a buffer leaves the pool, a transition
is made, a forced reclaim sets its entries to owned. -/
def stateChanges (m : ResourceManager) : Op → List (ResourceState × ResourceState)
  | .allocate alloc owner n flowId =>
    match (m.allocate alloc owner n flowId).1 with
    | .ok _ => [(.pooled, .owned)]
    | .error _ => []
  | .release handle caller =>
    match m.table.get handle with
    | .ok entry => stateChange entry (releaseToPool handle caller entry)
    | .error _ => []
  | .transferOwnership handle sender recipient =>
    match m.table.get handle with
    | .ok entry =>
      match m.budgets.reserveFor recipient entry.payloadCapacity with
      | .ok _ =>
        match beginTransfer handle sender entry with
        | .ok inTransit =>
          (entry.state, inTransit.state) ::
            stateChange inTransit (completeTransfer handle recipient inTransit)
        | .error _ => []
      | .error _ => []
    | .error _ => []
  | .borrowStart handle _ =>
    match m.table.get handle with
    | .ok entry => stateChange entry (Torvyn.borrowStart handle entry)
    | .error _ => []
  | .borrowEnd handle _ =>
    match m.table.get handle with
    | .ok entry => stateChange entry (Torvyn.borrowEnd handle entry)
    | .error _ => []
  | .forceReclaim component hash =>
    (m.forceReclaim component hash).1.map fun report => (report.previousState, .owned)
  | _ => []

section Changes

variable {handle : BufferHandle} {caller : OwnerId} {entry : ResourceEntry}
  {change : ResourceState × ResourceState}

theorem legal_borrowStart (h : change ∈ stateChange entry (Torvyn.borrowStart handle entry)) :
    change.1.canTransitionTo change.2 = true := by
  unfold Torvyn.borrowStart at h
  cases hstate : entry.state
  all_goals simp_all [stateChange, ResourceState.canTransitionTo]

theorem legal_borrowEnd (h : change ∈ stateChange entry (Torvyn.borrowEnd handle entry)) :
    change.1.canTransitionTo change.2 = true := by
  unfold Torvyn.borrowEnd at h
  cases hstate : entry.state with
  | borrowed =>
    simp only [hstate] at h
    split_ifs at h
    · simp [stateChange] at h
    all_goals
      simp only [stateChange, List.mem_singleton] at h
      subst h
      simp [hstate, ResourceState.canTransitionTo]
  | _ => simp [hstate, stateChange] at h

theorem legal_release (h : change ∈ stateChange entry (releaseToPool handle caller entry)) :
    change.1.canTransitionTo change.2 = true := by
  cases hok : releaseToPool handle caller entry with
  | error e => simp [hok, stateChange] at h
  | ok released =>
    obtain ⟨hcheck, rfl⟩ := releaseToPool_spec hok
    simp only [hok, stateChange, List.mem_singleton] at h
    subst h
    simp [(owner_eq_of_checkOwnedBy hcheck).1, ResourceState.canTransitionTo]

/-- The two halves of a transfer. -/
theorem legal_transfer {recipient : OwnerId} {inTransit : ResourceEntry}
    (hok : beginTransfer handle caller entry = .ok inTransit)
    (h : change = (entry.state, inTransit.state) ∨
      change ∈ stateChange inTransit (completeTransfer handle recipient inTransit)) :
    change.1.canTransitionTo change.2 = true := by
  have hbegin : entry.state = .owned ∧ inTransit.state = .transit := by
    unfold beginTransfer at hok
    split at hok
    · cases hok
    · rename_i hcheck
      obtain rfl := Except.ok.inj hok
      exact ⟨(owner_eq_of_checkOwnedBy hcheck).1, rfl⟩
  obtain ⟨howned, htransit⟩ := hbegin
  rcases h with rfl | h
  · rw [howned, htransit]
    rfl
  · simp only [completeTransfer, htransit, ne_eq, not_true_eq_false, if_false, stateChange,
      List.mem_singleton] at h
    subst h
    rfl

end Changes

/-- **Every change of state is a legal one.** -/
theorem EntryStates.legal {trace : Trace} {m : ResourceManager} (h : EntryStates trace m)
    (op : Op) {change : ResourceState × ResourceState} (hchange : change ∈ stateChanges m op)
    (hne : change.1 ≠ change.2) : change.1.canTransitionTo change.2 = true := by
  cases op with
  | allocate alloc owner n flowId =>
    simp only [stateChanges] at hchange
    split at hchange
    · obtain rfl := List.mem_singleton.1 hchange
      rfl
    · cases hchange
  | release handle caller =>
    simp only [stateChanges] at hchange
    split at hchange
    · exact legal_release hchange
    · cases hchange
  | transferOwnership handle sender recipient =>
    simp only [stateChanges] at hchange
    split at hchange
    · split at hchange
      · split at hchange
        · rename_i hok
          exact legal_transfer hok (List.mem_cons.1 hchange)
        · cases hchange
      · cases hchange
    · cases hchange
  | borrowStart handle borrower =>
    simp only [stateChanges] at hchange
    split at hchange
    · exact legal_borrowStart hchange
    · cases hchange
  | borrowEnd handle borrower =>
    simp only [stateChanges] at hchange
    split at hchange
    · exact legal_borrowEnd hchange
    · cases hchange
  | forceReclaim component hash =>
    obtain ⟨removed, hswept, hreports, -⟩ :=
      forceReclaim_sweep (hash.order (m.componentResources component))
        { m with
          componentResources := Function.update m.componentResources component ∅ } []
    have hreports : (m.forceReclaim component hash).1 = removed.map reportOf := hreports
    simp only [stateChanges, hreports, List.map_map, List.mem_map, Function.comp_apply] at hchange
    obtain ⟨p, hp, rfl⟩ := hchange
    have hentry := h p (hswept.live.mem_iff.2 (List.mem_append_left _ hp))
    -- an owned entry is only assigned the state that it has
    rcases hentry.state with hstate | hstate
    · exact absurd hstate hne
    · simp [reportOf, hstate, ResourceState.canTransitionTo]
  | _ => simp [stateChanges] at hchange

/-- The ownership state machine: the state of the entries, what a borrow protects, and the
changes of state that calls make. -/
structure OwnershipMachine (config : ResourceManagerConfig) (trace : Trace) (m : ResourceManager) :
    Prop where
  entries : ∀ handle entry, m.table.get handle = .ok entry →
    EntryState trace (handle.resourceId, entry)
  borrows : ∀ handle entry, m.table.get handle = .ok entry → 0 < entry.borrowCount →
    Protected config m handle entry
  changes : ∀ op, ∀ change ∈ stateChanges m op, change.1 ≠ change.2 →
    change.1.canTransitionTo change.2 = true

end ResourceManager

namespace StartedManager

open ResourceManager

/-- **The ownership state machine holds in every run** in which no buffer is allocated in
transit and every pooled request fits. -/
theorem ownership_machine (s : StartedManager) {ops : List Op}
    (hops : Allowed (fun m op => Disciplined m op ∧ NamesOwner op ∧ FitsPool s.config m op)
      s.manager ops) :
    OwnershipMachine s.config (s.trace ops) (s.after ops) := by
  have hstates : EntryStates (s.trace ops) (s.after ops) := by
    refine run_invariant (P := EntryStates) (fun trace m op hop h => h.step op hop.1 hop.2.1) hops ?_
    intro p hp
    rw [s.iter_manager] at hp
    cases hp
  have hisolated := s.isolated_after (hops.mono fun m op hop => hop.2.2)
  refine ⟨fun handle entry hget => ?_, fun handle entry hget hpos => ?_,
    fun op change hchange hne => hstates.legal op hchange hne⟩
  · exact hstates _ (ResourceTable.get_eq_ok.1 hget)
  · have hentry := hstates _ (ResourceTable.get_eq_ok.1 hget)
    exact hentry.protected_of_isolated hget hpos hisolated fun t b hb => s.size_of_mem_slots hb

/-- A buffer that is written, borrowed twice and returned once. -/
def borrowed : List Op :=
  [.allocate .bump .host 10 ⟨0⟩, .writePayload ⟨⟨0, 1⟩⟩ .host 0 [7] ⟨0⟩,
    .borrowStart ⟨⟨0, 1⟩⟩ ⟨0⟩, .borrowStart ⟨⟨0, 1⟩⟩ ⟨1⟩, .borrowEnd ⟨⟨0, 1⟩⟩ ⟨0⟩]

theorem ownership_machine_borrowed :
    (∃ entry, (startedSmallPool.after borrowed).table.get ⟨⟨0, 1⟩⟩ = .ok entry ∧
      entry.borrowCount = 1 ∧ entry.state = .borrowed) ∧
    OwnershipMachine startedSmallPool.config (startedSmallPool.trace borrowed)
      (startedSmallPool.after borrowed) := by
  have hlimit : ∀ (m : ResourceManager) (entry₀ : ResourceEntry), entry₀.borrowCount < 2 →
      m.table.get ⟨⟨0, 1⟩⟩ = .ok entry₀ →
      ∀ entry, m.table.get ⟨⟨0, 1⟩⟩ = .ok entry → entry.borrowCount + 1 < 2 ^ 32 := by
    intro m entry₀ hlt hget entry hget'
    obtain rfl := Except.ok.inj (hget.symm.trans hget')
    omega
  refine ⟨⟨_, rfl, rfl, rfl⟩, startedSmallPool.ownership_machine ?_⟩
  exact ⟨⟨trivial, by simp [NamesOwner], .inr (by decide)⟩, ⟨trivial, trivial, trivial⟩,
    ⟨hlimit _ _ (by decide) rfl, trivial, trivial⟩, ⟨hlimit _ _ (by decide) rfl, trivial, trivial⟩,
    ⟨trivial, trivial, trivial⟩, trivial⟩

/-- A buffer that is allocated in transit stays there, in the state of an owned one. -/
theorem ownership_machine_transit :
    Allowed Disciplined startedSmallPool.manager [.allocate .bump .transit 10 ⟨0⟩] ∧
    (∃ entry, (startedSmallPool.after [.allocate .bump .transit 10 ⟨0⟩]).table.get ⟨⟨0, 1⟩⟩ =
      .ok entry ∧ entry.state = .owned ∧ entry.owner = .transit) ∧
    ¬OwnershipMachine startedSmallPool.config
      (startedSmallPool.trace [.allocate .bump .transit 10 ⟨0⟩])
      (startedSmallPool.after [.allocate .bump .transit 10 ⟨0⟩]) := by
  refine ⟨⟨trivial, trivial⟩, ⟨_, rfl, rfl, rfl⟩, fun h => ?_⟩
  exact (h.entries ⟨⟨0, 1⟩⟩ _ rfl).owner rfl

end StartedManager

end Torvyn
