/-
# The memory budget bound

What a component owns never exceeds what is reserved for it, and that never exceeds its
limit, as long as no reservation can carry the 64-bit counter past its range. A limit close to
the range breaks this: a transfer that fails after its reservation leaves the reservation
behind, and enough of them carry the counter around.
-/
import Torvyn.Resources.Bounds

namespace Torvyn

namespace ResourceManager

/-- The part of `bytes` that counts for a component. -/
def share (c : ComponentId) (owner : OwnerId) (bytes : ℕ) : ℕ :=
  if owner = .component c then bytes else 0

/-- The payload capacity of the live buffers that a component owns. -/
def owned (table : ResourceTable) (c : ComponentId) : ℕ :=
  (table.iter.map fun p => share c p.2.owner p.2.payloadCapacity).sum

/-- A component owns at most what is reserved for it, at most its limit is reserved, and its
counter has never left its range. -/
structure WithinBudget (c : ComponentId) (m : ResourceManager) : Prop where
  bound : ∀ budget, m.budgets.budgets c = some budget →
    owned m.table c ≤ budget.currentOwnedBytes ∧
    budget.currentOwnedBytes ≤ budget.maxOwnedBytes
  exact : m.budgets.wrapped c = false

/-- The component is registered only while it owns nothing, and with at most `limit` bytes. -/
def Registers (limit : ℕ) (c : ComponentId) (m : ResourceManager) : Op → Prop
  | .registerComponent c' maxOwnedBytes => c' = c →
      (∀ handle entry, m.table.get handle = .ok entry → entry.owner ≠ .component c) ∧
      maxOwnedBytes.getD m.budgets.defaultMax ≤ limit
  | _ => True

/-! ## The account of one component -/

/-- The account of a component covers `amount` bytes. -/
structure Covered (limit : ℕ) (c : ComponentId) (amount : ℕ) (registry : BudgetRegistry) :
    Prop where
  bound : ∀ budget, registry.budgets c = some budget → amount ≤ budget.currentOwnedBytes ∧
    budget.currentOwnedBytes ≤ budget.maxOwnedBytes ∧ budget.maxOwnedBytes ≤ limit
  exact : registry.wrapped c = false

namespace Covered

variable {limit amount bytes : ℕ} {c : ComponentId} {registry registry' : BudgetRegistry}
  {owner : OwnerId}

/-- Less is covered, too. -/
theorem mono {amount' : ℕ} (h : Covered limit c amount registry) (hle : amount' ≤ amount) :
    Covered limit c amount' registry where
  bound budget hbudget := by
    obtain ⟨h₁, h₂⟩ := h.bound budget hbudget
    exact ⟨hle.trans h₁, h₂⟩
  exact := h.exact

/-- Another component's budget does not matter. -/
theorem congr (h : Covered limit c amount registry) (hbudget : registry'.budgets c = registry.budgets c)
    (hwrapped : registry'.wrapped c = registry.wrapped c) : Covered limit c amount registry' :=
  ⟨hbudget ▸ h.bound, hwrapped ▸ h.exact⟩

/-- A reservation covers the bytes reserved. -/
theorem reserve (h : Covered limit c amount registry) (hlimit : limit + bytes < 2 ^ 64)
    (hreserve : registry.reserveFor owner bytes = .ok registry') :
    Covered limit c (amount + share c owner bytes) registry' := by
  unfold BudgetRegistry.reserveFor at hreserve
  split at hreserve
  · rename_i component
    unfold BudgetRegistry.tryReserve at hreserve
    split at hreserve
    · rename_i hnone
      obtain rfl := Except.ok.inj hreserve
      refine ⟨fun budget hbudget => ?_, h.exact⟩
      by_cases hc : component = c
      · subst hc
        cases hnone.symm.trans hbudget
      · have hshare : share c (.component component) bytes = 0 :=
          if_neg fun heq => hc (OwnerId.component.inj heq)
        rw [hshare]
        exact h.bound budget hbudget
    · rename_i budget hbudget
      split at hreserve
      · cases hreserve
      · rename_i budget' hok
        obtain rfl := Except.ok.inj hreserve
        by_cases hc : component = c
        · subst hc
          obtain ⟨hamount, hmax, hle⟩ := h.bound budget hbudget
          obtain ⟨rfl, hfits⟩ := ComponentBudget.tryReserve_spec hok (by omega)
          have hshare : share component (.component component) bytes = bytes := if_pos rfl
          refine ⟨fun b hb => ?_, ?_⟩
          · simp only [Function.update_self, Option.some.injEq] at hb
            subst hb
            rw [hshare]
            exact ⟨Nat.add_le_add_right hamount _, hfits, hle⟩
          · have hlt : ¬2 ^ 64 ≤ budget.currentOwnedBytes + bytes := by omega
            simp only [Function.update_self, h.exact, hlt, decide_false, Bool.or_false]
        · have hshare : share c (.component component) bytes = 0 :=
            if_neg fun heq => hc (OwnerId.component.inj heq)
          rw [hshare]
          exact h.congr (Function.update_of_ne (Ne.symm hc) _ _)
            (Function.update_of_ne (Ne.symm hc) _ _)
  · rename_i hother
    obtain rfl := Except.ok.inj hreserve
    have hshare : share c owner bytes = 0 := if_neg fun heq => hother c heq
    rwa [hshare]

/-- A release gives back covered bytes. -/
theorem release (h : Covered limit c (amount + share c owner bytes) registry)
    (hlimit : limit < 2 ^ 64) : Covered limit c amount (registry.releaseFor owner bytes) := by
  unfold BudgetRegistry.releaseFor
  split
  · rename_i component
    unfold BudgetRegistry.releaseBytes
    split
    · exact h.mono (Nat.le_add_right _ _)
    · rename_i budget hbudget
      by_cases hc : component = c
      · subst hc
        have hshare : share component (.component component) bytes = bytes := if_pos rfl
        rw [hshare] at h
        obtain ⟨hamount, hmax, hle⟩ := h.bound budget hbudget
        have hspec : budget.release bytes = _ :=
          ComponentBudget.release_spec (by omega) (by omega)
        refine ⟨fun b hb => ?_, ?_⟩
        · simp only [Function.update_self, Option.some.injEq] at hb
          subst hb
          rw [hspec]
          refine ⟨?_, ?_, hle⟩
          · show amount ≤ budget.currentOwnedBytes - bytes
            omega
          · show budget.currentOwnedBytes - bytes ≤ budget.maxOwnedBytes
            omega
        · have hlt : ¬budget.currentOwnedBytes < bytes := by omega
          simp only [Function.update_self, h.exact, hlt, decide_false, Bool.or_false]
      · have hcover := h.mono (Nat.le_add_right _ _)
        exact hcover.congr (Function.update_of_ne (Ne.symm hc) _ _)
          (Function.update_of_ne (Ne.symm hc) _ _)
  · exact h.mono (Nat.le_add_right _ _)

end Covered

/-! ## Every operation -/

section Owned

variable {table table' : ResourceTable} {handle : BufferHandle} {entry entry' : ResourceEntry}
  {id : ResourceId} {c : ComponentId}

theorem owned_of_perm {rest : List (ResourceId × ResourceEntry)}
    (h : table.iter.Perm ((id, entry) :: rest)) :
    owned table c = (rest.map fun p => share c p.2.owner p.2.payloadCapacity).sum +
      share c entry.owner entry.payloadCapacity := by
  rw [owned, (h.map _).sum_eq, List.map_cons, List.sum_cons, Nat.add_comm]

theorem owned_inserted (h : table.Inserted table' id entry) :
    owned table' c = owned table c + share c entry.owner entry.payloadCapacity :=
  owned_of_perm h.live

theorem owned_removed (h : table.Removed table' handle entry) :
    owned table c = owned table' c + share c entry.owner entry.payloadCapacity :=
  owned_of_perm h.live

/-- A component that owns no live entry owns no bytes. -/
theorem owned_eq_zero
    (h : ∀ handle entry, table.get handle = .ok entry → entry.owner ≠ .component c) :
    owned table c = 0 := by
  rw [owned, List.sum_eq_zero_iff]
  simp only [List.mem_map]
  rintro _ ⟨p, hp, rfl⟩
  exact if_neg (h ⟨p.1⟩ p.2 (ResourceTable.get_eq_ok.2 hp))

end Owned

/-- The live entries are in custody and the account of the component covers what it owns. -/
structure Accounted (slots : PoolTier → List Block) (limit : ℕ) (c : ComponentId)
    (m : ResourceManager) : Prop where
  stored : StoredManager slots m
  covered : Covered limit c (owned m.table c) m.budgets

namespace Accounted

variable {slots : PoolTier → List Block} {limit : ℕ} {c : ComponentId} {m : ResourceManager}

/-- A reservation for an allocation stays in the range of the counter. -/
theorem actualCapacity_fits (hlimit : limit + maxBufferSize < 2 ^ 64) {n : ℕ}
    (hn : n ≤ maxBufferSize) : limit + actualCapacity n < 2 ^ 64 := by
  have hcap : actualCapacity n ≤ maxBufferSize :=
    max_le ((PoolTier.capacity_le_largestRequest _).trans
      (PoolTier.largestRequest_le_maxBufferSize _)) hn
  omega

/-- So does a reservation for the payload of a live entry. -/
theorem payloadCapacity_fits (hlimit : limit + maxBufferSize < 2 ^ 64)
    (h : Accounted slots limit c m) {handle : BufferHandle} {entry : ResourceEntry}
    (hget : m.table.get handle = .ok entry) : limit + entry.payloadCapacity < 2 ^ 64 := by
  have hcap : entry.payloadCapacity ≤ maxBufferSize :=
    (h.stored.entry_of_get hget).le_tier.trans (PoolTier.largestRequest_le_maxBufferSize _)
  omega

/-- In a forced reclaim nothing is released: the component owns less, and is then forgotten. -/
theorem forceReclaim_loop (ids : List ResourceId) (reclaimed : List ResourceReclaimed)
    (h : Covered limit c (owned m.table c) m.budgets) :
    let m' := (ids.foldl forceReclaimOne (m, reclaimed)).1
    Covered limit c (owned m'.table c) m'.budgets := by
  induction ids generalizing m reclaimed with
  | nil => exact h
  | cons id rest ih =>
    rw [List.foldl_cons]
    rcases forceReclaimOne_cases m reclaimed id with ⟨-, heq⟩ | ⟨entry, table, -, hrem, heq⟩
    · rw [heq]
      exact ih _ h
    · rw [heq]
      refine ih _ (h.mono ?_)
      rw [owned_removed hrem]
      exact Nat.le_add_right _ _

theorem reclaimFlow_loop (hlimit : limit < 2 ^ 64) (ids : List ResourceId)
    (stats : FlowResourceStats) (h : Covered limit c (owned m.table c) m.budgets) :
    let m' := (ids.foldl reclaimFlowOne (m, stats)).1
    Covered limit c (owned m'.table c) m'.budgets := by
  induction ids generalizing m stats with
  | nil => exact h
  | cons id rest ih =>
    rw [List.foldl_cons]
    rcases reclaimFlowOne_cases m stats id with ⟨-, heq⟩ | ⟨entry, table, -, hrem, heq⟩
    · rw [heq]
      exact ih _ h
    · rw [heq]
      rw [owned_removed hrem] at h
      exact ih _ (h.release hlimit)

theorem reclaimFlow (hlimit : limit < 2 ^ 64) (h : Accounted slots limit c m) (f : FlowId)
    (hash : HashOrder) :
    let m' := (m.reclaimFlowBuffers f hash).2
    Covered limit c (owned m'.table c) m'.budgets :=
  reclaimFlow_loop (m := { m with flowResources := Function.update m.flowResources f ∅ }) hlimit _
    {} h.covered

theorem forceReclaim (h : Accounted slots limit c m) (c' : ComponentId) (hash : HashOrder) :
    let m' := (m.forceReclaim c' hash).2
    Covered limit c (owned m'.table c) m'.budgets := by
  have hloop := forceReclaim_loop
    (m := { m with componentResources := Function.update m.componentResources c' ∅ })
    (hash.order (m.componentResources c')) [] h.covered
  refine ⟨fun budget hbudget => hloop.bound budget ?_, hloop.exact⟩
  simp only [ResourceManager.forceReclaim, BudgetRegistry.unregister] at hbudget
  by_cases hc : c' = c
  · subst hc
    simp at hbudget
  · rwa [Function.update_of_ne (Ne.symm hc)] at hbudget

theorem transition (h : Accounted slots limit c m) {handle : BufferHandle}
    {change : BufferHandle → ResourceEntry → Except ResourceError ResourceEntry}
    (hchange : ∀ {entry entry'}, change handle entry = .ok entry' →
      SameResource entry entry' ∧ entry'.owner = entry.owner ∧
      entry'.payloadLen = entry.payloadLen) :
    let m' := (ResourceManager.transition change handle m).2
    Covered limit c (owned m'.table c) m'.budgets := by
  rcases transition_cases change handle m with ⟨e, heq⟩ | ⟨entry, entry', hget, hok, heq⟩
  · rw [heq]
    exact h.covered
  · obtain ⟨hsame, howner, -⟩ := hchange hok
    obtain ⟨rest, hlive, hlive'⟩ := ResourceTable.put_spec hget entry' hsame.generation
    have howned : owned (m.table.put handle entry') c = owned m.table c := by
      rw [owned_of_perm hlive, owned_of_perm hlive', howner, hsame.payloadCapacity]
    rw [heq]
    show Covered limit c (owned (m.table.put handle entry') c) m.budgets
    rw [howned]
    exact h.covered

/-- Every operation that registers the component properly keeps its account. -/
theorem step (hlimit : limit + maxBufferSize < 2 ^ 64) (h : Accounted slots limit c m) (op : Op)
    (hregisters : Registers limit c m op) : Accounted slots limit c (m.step op).2 := by
  have hlt : limit < 2 ^ 64 := by omega
  refine ⟨h.stored.step op, ?_⟩
  cases op with
  | registerFlow flowId => exact h.covered
  | registerComponent c' maxOwnedBytes =>
    refine ⟨fun budget hbudget => ?_, h.covered.exact⟩
    by_cases hc : c' = c
    · subst hc
      obtain ⟨hnone, hle⟩ := hregisters rfl
      obtain rfl := Option.some.inj ((Function.update_self c' _ _).symm.trans hbudget)
      exact ⟨(owned_eq_zero hnone).le, Nat.zero_le _, hle⟩
    · exact h.covered.bound budget ((Function.update_of_ne (Ne.symm hc) _ _).symm.trans hbudget)
  | allocate alloc owner n flowId =>
    have hcases := allocate_cases alloc owner n flowId m
    simp only [ResourceManager.step]
    generalize m.allocate alloc owner n flowId = result at hcases ⊢
    cases hcases with
    | refused e => exact h.covered
    | exhausted budgets e hn hreserve =>
      exact (h.covered.reserve (actualCapacity_fits hlimit hn) hreserve).mono (Nat.le_add_right _ _)
    | rolledBack budgets e buffer pools heap hn hreserve =>
      exact (h.covered.reserve (actualCapacity_fits hlimit hn) hreserve).release hlt
    | admitted budgets buffer pools heap id table hn hreserve _ hins =>
      show Covered limit c (owned table c) budgets
      rw [owned_inserted hins]
      exact h.covered.reserve (actualCapacity_fits hlimit hn) hreserve
  | release handle caller =>
    have hcases := release_cases handle caller m
    simp only [ResourceManager.step]
    generalize m.release handle caller = result at hcases ⊢
    cases hcases with
    | refused e => exact h.covered
    | dropped entry table hget hcheck hrem =>
      have hcovered := h.covered
      rw [owned_removed hrem] at hcovered
      exact hcovered.release hlt
  | transferOwnership handle sender recipient =>
    have hcases := transfer_cases handle sender recipient m
    simp only [ResourceManager.step]
    generalize m.transferOwnership handle sender recipient = result at hcases ⊢
    cases hcases with
    | refused e => exact h.covered
    | charged entry budgets e hget hreserve =>
      exact (h.covered.reserve (h.payloadCapacity_fits hlimit hget) hreserve).mono
        (Nat.le_add_right _ _)
    | moved entry budgets hget hreserve hcheck =>
      obtain ⟨rest, hlive, hlive'⟩ :=
        ResourceTable.put_spec hget { entry with owner := recipient } rfl
      have hreserved := h.covered.reserve (h.payloadCapacity_fits hlimit hget) hreserve
      rw [owned_of_perm hlive, Nat.add_right_comm] at hreserved
      show Covered limit c (owned (m.table.put handle { entry with owner := recipient }) c) _
      rw [owned_of_perm hlive']
      exact hreserved.release hlt
  | borrowStart handle borrower => exact h.transition borrowStart_same
  | borrowEnd handle borrower => exact h.transition borrowEnd_same
  | readPayload handle caller offset length flowId =>
    simp only [ResourceManager.step]
    rcases read_cases handle caller offset length flowId m with ⟨e, heq⟩ | ⟨entry, -, -, heq⟩
    all_goals rw [heq]; exact h.covered
  | writePayload handle caller offset data flowId =>
    simp only [ResourceManager.step]
    rcases write_cases handle caller offset data flowId m with
      ⟨e, heq⟩ | ⟨entry, hget, -, -, hle, heq⟩
    · rw [heq]
      exact h.covered
    · rw [heq]
      obtain ⟨rest, hlive, hlive'⟩ :=
        ResourceTable.put_spec hget (writtenEntry entry (offset + data.length)) rfl
      show Covered limit c (owned (m.table.put handle (writtenEntry entry _)) c) m.budgets
      have hcovered := h.covered
      rw [owned_of_perm hlive] at hcovered
      rw [owned_of_perm hlive']
      exact hcovered
  | forceReclaim component hash => exact h.forceReclaim component hash
  | reclaimFlowBuffers flowId hash => exact h.reclaimFlow hlt flowId hash
  | releaseFlowResources flowId hash => exact h.reclaimFlow hlt flowId hash

end Accounted

end ResourceManager

namespace StartedManager

open ResourceManager

/-- In every run that registers the component properly, its account covers what it owns. -/
theorem accounted_after (s : StartedManager) {limit : ℕ} {c : ComponentId} {ops : List Op}
    (hlimit : limit + maxBufferSize < 2 ^ 64) (hops : Allowed (Registers limit c) s.manager ops) :
    Accounted s.slots limit c (s.after ops) := by
  refine run_invariant (P := fun _ m => Accounted s.slots limit c m)
    (fun _ m op hregisters h => h.step hlimit op hregisters) hops ⟨s.stored_after [], ?_⟩
  rw [s.manager_eq.2.2.2.1]
  exact ⟨fun budget hbudget => (Option.some_ne_none _ hbudget.symm).elim, rfl⟩

end StartedManager

/-! ## Reservations left behind -/

namespace ResourceManager

/-- The limit that is 16 MiB short of the range of the counter. -/
def nearLimit : ℕ := 2 ^ 64 - maxBufferSize

/-- A transfer that names the wrong sender. -/
def failingTransfer : Op := .transferOwnership ⟨⟨0, 1⟩⟩ .host (.component ⟨0⟩)

/-- Component 0 owns the one live buffer, of 16 MiB, and `current` bytes are reserved. -/
structure Leaking (m : ResourceManager) (current : ℕ) : Prop where
  entry : ∃ entry, m.table.get ⟨⟨0, 1⟩⟩ = .ok entry ∧ entry.owner = .component ⟨0⟩ ∧
    entry.state = .owned ∧ entry.payloadCapacity = maxBufferSize
  budget : m.budgets.budgets ⟨0⟩ = some ⟨nearLimit, current⟩

namespace Leaking

variable {m : ResourceManager} {current : ℕ}

/-- A failing transfer reserves 16 MiB more, by machine arithmetic. -/
theorem transfer (h : Leaking m current)
    (hle : (current + maxBufferSize) % 2 ^ 64 ≤ nearLimit) :
    Leaking (m.step failingTransfer).2 ((current + maxBufferSize) % 2 ^ 64) := by
  obtain ⟨entry, hget, howner, hstate, hcap⟩ := h.entry
  have hreserve : m.budgets.reserveFor (.component ⟨0⟩) entry.payloadCapacity = .ok
      { m.budgets with
        budgets := Function.update m.budgets.budgets ⟨0⟩
          (some ⟨nearLimit, (current + maxBufferSize) % 2 ^ 64⟩)
        wrapped := Function.update m.budgets.wrapped ⟨0⟩
          (m.budgets.wrapped ⟨0⟩ || decide (2 ^ 64 ≤ current + maxBufferSize)) } := by
    simp only [BudgetRegistry.reserveFor, BudgetRegistry.tryReserve, h.budget,
      ComponentBudget.tryReserve, hcap, if_neg (Nat.not_lt.2 hle)]
  have hcheck : beginTransfer ⟨⟨0, 1⟩⟩ .host entry =
      .error (.notOwner ⟨0, 1⟩ (toString entry.owner) (toString OwnerId.host)) := by
    simp [beginTransfer, checkOwnedBy, hstate, howner]
  have hstep : (m.step failingTransfer).2 = { m with
      budgets := { m.budgets with
        budgets := Function.update m.budgets.budgets ⟨0⟩
          (some ⟨nearLimit, (current + maxBufferSize) % 2 ^ 64⟩)
        wrapped := Function.update m.budgets.wrapped ⟨0⟩
          (m.budgets.wrapped ⟨0⟩ || decide (2 ^ 64 ≤ current + maxBufferSize)) } } := by
    simp only [step, failingTransfer, transferOwnership, hget, hreserve, hcheck, Prod.map, id]
  rw [hstep]
  exact ⟨⟨entry, hget, howner, hstate, hcap⟩, by simp only [Function.update_self]⟩

/-- Failing transfers add up as long as the limit admits them. -/
theorem transfers (k : ℕ) (trace : Trace) (h : Leaking m current)
    (hle : current + k * maxBufferSize ≤ nearLimit) :
    Leaking (run m trace (List.replicate k failingTransfer)).2 (current + k * maxBufferSize) := by
  induction k generalizing m current trace with
  | zero => simpa [run] using h
  | succ k ih =>
    have hnear : nearLimit < 2 ^ 64 := by decide
    have hstep : current + maxBufferSize ≤ nearLimit := by
      rw [Nat.add_mul, Nat.one_mul] at hle
      omega
    have hmod : (current + maxBufferSize) % 2 ^ 64 = current + maxBufferSize :=
      Nat.mod_eq_of_lt (by omega)
    have hnext := h.transfer (hmod.trans_le hstep)
    rw [hmod] at hnext
    rw [List.replicate_succ, run, Nat.add_mul, Nat.one_mul, Nat.add_comm (k * _), ← Nat.add_assoc]
    refine ih _ hnext ?_
    rw [Nat.add_mul, Nat.one_mul] at hle
    omega

end Leaking

/-- Component 0 is registered and allocates 16 MiB. -/
def leakPrefix : List Op :=
  [.registerComponent ⟨0⟩ (some nearLimit), .allocate .bump (.component ⟨0⟩) maxBufferSize ⟨0⟩]

/-- It allocates 16 MiB, and transfers of that buffer to it fail until the counter is full,
and once more. -/
def leak : List Op :=
  leakPrefix ++ (List.replicate (2 ^ 40 - 2) failingTransfer ++ [failingTransfer])

end ResourceManager

namespace StartedManager

open ResourceManager

/-- A manager without pools. -/
def startedNoPools : StartedManager where
  alloc := .bump
  config := ⟨1, fun tier => ⟨tier, 0, false⟩, 0⟩
  manager := (ResourceManager.new .bump ⟨1, fun tier => ⟨tier, 0, false⟩, 0⟩).getD
    ⟨.new 0, fun _ => ∅, fun _ => ∅, fun _ => ⟨[], 0⟩, .empty, .new 0, .new⟩
  started := by rfl

/-- The buffer is owned and its reservation complete. -/
theorem leaking_leakPrefix : Leaking (startedNoPools.after leakPrefix) maxBufferSize where
  entry := ⟨_, rfl, rfl, rfl, rfl⟩
  budget := rfl

/-- The last transfer follows `k` others. -/
theorem run_transfers (m : ResourceManager) (k : ℕ) (ops : List Op) :
    (m.run [] (ops ++ (List.replicate k failingTransfer ++ [failingTransfer]))).2 =
      ((run (m.run [] ops).2 (m.run [] ops).1 (List.replicate k failingTransfer)).2.step
        failingTransfer).2 := by
  rw [run_append, run_append]
  rfl

/-- After the leak nothing is reserved for the buffer that the component still owns. -/
theorem leaking_leak : Leaking (startedNoPools.after leak) 0 := by
  have hprefix := leaking_leakPrefix
  have htransfers := hprefix.transfers (2 ^ 40 - 2) (startedNoPools.trace leakPrefix)
    (by unfold nearLimit maxBufferSize; omega)
  have hfull : maxBufferSize + (2 ^ 40 - 2) * maxBufferSize = nearLimit := by
    unfold nearLimit maxBufferSize
    omega
  rw [hfull] at htransfers
  have hwrap : (nearLimit + maxBufferSize) % 2 ^ 64 = 0 := by decide
  have hlast := htransfers.transfer (hwrap.trans_le (Nat.zero_le _))
  rw [hwrap] at hlast
  rw [after, leak, run_transfers]
  exact hlast

/-- The leaking run registers its component properly. -/
theorem allowed_leak {limit : ℕ} (hlimit : nearLimit ≤ limit) :
    Allowed (Registers limit ⟨0⟩) startedNoPools.manager leak := by
  have hempty : ∀ handle entry, startedNoPools.manager.table.get handle = .ok entry →
      entry.owner ≠ .component ⟨0⟩ := by
    intro handle entry hget
    have hmem := ResourceTable.get_eq_ok.1 hget
    rw [startedNoPools.iter_manager] at hmem
    cases hmem
  refine (allowed_append _ [] _ _).2 ⟨⟨fun _ => ⟨hempty, hlimit⟩, trivial, trivial⟩, ?_⟩
  have htransfers : ∀ (ops : List Op) (m : ResourceManager), (∀ op ∈ ops, op = failingTransfer) →
      Allowed (Registers limit ⟨0⟩) m ops := by
    intro ops
    induction ops with
    | nil => exact fun _ _ => trivial
    | cons op ops ih =>
      intro m hops
      obtain ⟨rfl, hrest⟩ := List.forall_mem_cons.1 hops
      exact ⟨trivial, ih _ hrest⟩
  refine htransfers _ _ fun op hop => ?_
  rcases List.mem_append.1 hop with hop | hop
  · exact List.eq_of_mem_replicate hop
  · exact List.mem_singleton.1 hop

/-- The component owns 16 MiB, and none of them is reserved. -/
theorem not_withinBudget_leak : ¬WithinBudget ⟨0⟩ (startedNoPools.after leak) := by
  intro hwithin
  obtain ⟨⟨entry, hget, howner, -, hcap⟩, hbudget⟩ := leaking_leak
  have hle := (hwithin.bound _ hbudget).1
  have hzero : owned (startedNoPools.after leak).table ⟨0⟩ = 0 := Nat.le_zero.1 hle
  rw [owned, List.sum_eq_zero_iff] at hzero
  have hshare := hzero _ (List.mem_map_of_mem (ResourceTable.get_eq_ok.1 hget))
  simp [share, howner, hcap, maxBufferSize] at hshare

/-- **The budget bound**: with limits of at most `limit` bytes every run keeps every properly
registered component within its budget, exactly when a reservation of the largest buffer on
top of `limit` stays in the range of the counter. -/
theorem withinBudget_iff (limit : ℕ) :
    (∀ (s : StartedManager) (c : ComponentId) (ops : List Op),
      Allowed (Registers limit c) s.manager ops → WithinBudget c (s.after ops)) ↔
    limit + maxBufferSize < 2 ^ 64 := by
  constructor
  · intro h
    by_contra hlimit
    have hnear : nearLimit ≤ limit := by
      unfold nearLimit
      omega
    exact not_withinBudget_leak (h _ _ _ (allowed_leak hnear))
  · intro hlimit s c ops hops
    have hcovered := (s.accounted_after hlimit hops).covered
    refine ⟨fun budget hbudget => ?_, hcovered.exact⟩
    obtain ⟨howned, hmax, -⟩ := hcovered.bound budget hbudget
    exact ⟨howned, hmax⟩

/-- A component with a limit of 2^64 - 2^24 bytes is registered before it owns anything and
allocates one buffer of 16 MiB. After 2^40 - 1 transfers that fail, its counter is zero while
it still owns the buffer. -/
theorem budget_wraps :
    Allowed (Registers (2 ^ 64 - 1) ⟨0⟩) startedNoPools.manager leak ∧
    (startedNoPools.after leak).budgets.budgets ⟨0⟩ = some ⟨2 ^ 64 - 2 ^ 24, 0⟩ ∧
    ¬WithinBudget ⟨0⟩ (startedNoPools.after leak) :=
  ⟨allowed_leak (by decide), leaking_leak.budget, not_withinBudget_leak⟩

end StartedManager

end Torvyn
