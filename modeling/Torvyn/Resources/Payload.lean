/-
# What becomes of a resource

Whatever an operation is, a live resource keeps its buffer and its payload unless the
operation releases it, writes to it or reclaims it by force.
-/
import Torvyn.Resources.Isolation
import Torvyn.Resources.Reclaim

namespace Torvyn

namespace ResourceManager

variable {m : ResourceManager} {handle : BufferHandle} {trace : Trace}

/-- A failed call writes nothing. -/
theorem lastWritten_of_failed {op : Op} {reply : Reply} (h : reply.failed = true) (i : ℕ) :
    lastWritten handle i ((op, reply) :: trace) = lastWritten handle i trace := by
  cases reply with
  | done result => cases result <;> cases op <;> first | rfl | cases h
  | handle result => cases result <;> cases op <;> first | rfl | cases h
  | bytes result => cases op <;> rfl
  | reclaimed resources => cases op <;> rfl
  | stats result => cases op <;> rfl

/-- The operations that reclaim buffers by force. -/
def Op.reclaims : Op → Bool
  | .forceReclaim _ _ | .reclaimFlowBuffers _ _ | .releaseFlowResources _ _ => true
  | _ => false

/-- The operations that end the life of a resource or change its payload. -/
def Op.alters (handle : BufferHandle) : Op → Prop
  | .release h _ | .writePayload h _ _ _ _ => h = handle
  | _ => False

/-- A resource that is not altered stays, with its buffer and its contents, unless it is
reclaimed by force. -/
theorem resource_step {p : ResourceId × ResourceEntry} (hp : p ∈ m.table.iter) (op : Op)
    (hop : op.alters ⟨p.1⟩ → (m.step op).1.failed = true) :
    (∃ entry', (p.1, entry') ∈ (m.step op).2.table.iter ∧ SameResource p.2 entry' ∧
      entry'.payloadLen = p.2.payloadLen ∧
      ∀ i, lastWritten ⟨p.1⟩ i ((op, (m.step op).1) :: trace) = lastWritten ⟨p.1⟩ i trace) ∨
    (op.reclaims = true ∧ p.1 ∉ (m.step op).2.table.iter.map Prod.fst) := by
  have hsame : SameResource p.2 p.2 := ⟨rfl, rfl, rfl, rfl⟩
  have hchange : ∀ {handle : BufferHandle} {entry entry' : ResourceEntry},
      m.table.get handle = .ok entry → SameResource entry entry' →
      entry'.payloadLen = entry.payloadLen →
      ∃ entry'', (p.1, entry'') ∈ (m.table.put handle entry').iter ∧ SameResource p.2 entry'' ∧
        entry''.payloadLen = p.2.payloadLen := by
    intro handle entry entry' hget hsame' hlen
    have hrep := ResourceTable.Replaced.of_put hget entry' hsame'.generation
    by_cases hid : p.1 = handle.resourceId
    · have hmem := ResourceTable.get_eq_ok.1 hget
      have hpair := List.inj_on_of_nodup_map m.table.nodup_iter hp hmem hid
      obtain rfl : p.2 = entry := congrArg Prod.snd hpair
      refine ⟨entry', ?_, hsame', hlen⟩
      rw [hid]
      exact hrep.mem
    · exact ⟨p.2, hrep.mem_of_ne hp hid, hsame, rfl⟩
  have hstep := step_cases m op
  generalize (m.step op).1 = reply at hstep hop ⊢
  generalize (m.step op).2 = after at hstep ⊢
  cases hstep with
  | registeredFlow flowId => exact .inl ⟨p.2, hp, hsame, rfl, fun _ => rfl⟩
  | registeredComponent component maxOwnedBytes =>
    exact .inl ⟨p.2, hp, hsame, rfl, fun _ => rfl⟩
  | refused op reply _ hfailed =>
    exact .inl ⟨p.2, hp, hsame, rfl, lastWritten_of_failed hfailed⟩
  | exhausted alloc owner n flowId budgets e => exact .inl ⟨p.2, hp, hsame, rfl, fun _ => rfl⟩
  | rolledBack alloc owner n flowId budgets e buffer pools heap =>
    exact .inl ⟨p.2, hp, hsame, rfl, fun _ => rfl⟩
  | admitted alloc owner n flowId budgets buffer pools heap id table _ _ _ hins =>
    have hne : ¬(⟨id⟩ : BufferHandle) = ⟨p.1⟩ := by
      intro h
      apply hins.fresh
      rw [BufferHandle.mk.inj h]
      exact List.mem_map_of_mem hp
    exact .inl ⟨p.2, hins.live.mem_iff.2 (List.mem_cons_of_mem _ hp), hsame, rfl,
      fun i => if_neg hne⟩
  | dropped handle caller entry table hget hcheck hrem =>
    have hne : p.1 ≠ handle.resourceId := fun heq => by
      cases hop (congrArg BufferHandle.mk heq.symm)
    exact .inl ⟨p.2, hrem.mem_of_ne hp hne, hsame, rfl, fun _ => rfl⟩
  | charged handle sender recipient entry budgets e =>
    exact .inl ⟨p.2, hp, hsame, rfl, fun _ => rfl⟩
  | moved handle sender recipient entry budgets hget =>
    obtain ⟨entry', hmem, hsame', hlen⟩ :=
      hchange hget (show SameResource entry { entry with owner := recipient } from
        ⟨rfl, rfl, rfl, rfl⟩) rfl
    exact .inl ⟨entry', hmem, hsame', hlen, fun _ => rfl⟩
  | borrowStarted handle borrower entry borrowed hget hok =>
    obtain ⟨hsame', -, hlen⟩ := borrowStart_same hok
    obtain ⟨entry', hmem, hsame', hlen⟩ := hchange hget hsame' hlen
    exact .inl ⟨entry', hmem, hsame', hlen, fun _ => rfl⟩
  | borrowEnded handle borrower entry returned hget hok =>
    obtain ⟨hsame', -, hlen⟩ := borrowEnd_same hok
    obtain ⟨entry', hmem, hsame', hlen⟩ := hchange hget hsame' hlen
    exact .inl ⟨entry', hmem, hsame', hlen, fun _ => rfl⟩
  | read handle caller offset length flowId entry =>
    exact .inl ⟨p.2, hp, hsame, rfl, fun _ => rfl⟩
  | wrote handle caller offset data flowId entry hget =>
    have hne : handle ≠ ⟨p.1⟩ := fun heq => by cases hop heq
    have hrep := ResourceTable.Replaced.of_put hget
      (writtenEntry entry (offset + data.length)) rfl
    refine .inl ⟨p.2, hrep.mem_of_ne hp fun heq => hne ?_, hsame, rfl, fun i => if_neg ?_⟩
    · rw [heq]
    · exact fun hwrite => hne hwrite.1
  | forceReclaimed component hash =>
    obtain ⟨removed, hswept⟩ := forceReclaim_swept (m := m) component hash
    rcases hswept.kept_or_gone hp with hkept | hgone
    · exact .inl ⟨p.2, hkept, hsame, rfl, fun _ => rfl⟩
    · exact .inr ⟨rfl, hgone⟩
  | flowReclaimed flowId hash =>
    obtain ⟨removed, hswept⟩ := reclaimFlow_swept (m := m) flowId hash
    rcases hswept.kept_or_gone hp with hkept | hgone
    · exact .inl ⟨p.2, hkept, hsame, rfl, fun _ => rfl⟩
    · exact .inr ⟨rfl, hgone⟩
  | flowReleased flowId hash =>
    obtain ⟨removed, hswept⟩ := reclaimFlow_swept (m := m) flowId hash
    rcases hswept.kept_or_gone hp with hkept | hgone
    · exact .inl ⟨p.2, hkept, hsame, rfl, fun _ => rfl⟩
    · exact .inr ⟨rfl, hgone⟩

/-! ## Payloads -/

/-- The payload of a live handle. -/
def payload (handle : BufferHandle) (m : ResourceManager) : Option (List UInt8) :=
  match m.table.get handle with
  | .error _ => none
  | .ok entry => some (payloadOf m entry)

theorem payload_of_mem {entry : ResourceEntry} (h : (handle.resourceId, entry) ∈ m.table.iter) :
    m.payload handle = some (payloadOf m entry) := by
  unfold payload
  rw [ResourceTable.get_eq_ok.2 h]

/-- A resource that is not altered keeps its payload or is reclaimed by force. -/
theorem payload_step {config : ResourceManagerConfig} {slots : PoolTier → List Block}
    (h : IsolatedManager slots (written trace) m)
    (hslots : ∀ t b, b ∈ slots t → b.size = headerSize + (config.poolConfigs t).tier.capacity)
    {entry : ResourceEntry} (hp : (handle.resourceId, entry) ∈ m.table.iter) {op : Op}
    (hfits : FitsPool config m op) (hop : op.alters handle → (m.step op).1.failed = true) :
    (∃ entry', (handle.resourceId, entry') ∈ (m.step op).2.table.iter ∧
      payloadOf (m.step op).2 entry' = payloadOf m entry) ∨
    (op.reclaims = true ∧ handle.resourceId ∉ (m.step op).2.table.iter.map Prod.fst) := by
  rcases resource_step hp op hop with ⟨entry', hmem, -, hlen, hbytes⟩ | hgone
  · refine .inl ⟨entry', hmem, ?_⟩
    rw [payloadOf_eq (h.step hslots op hfits) hmem, payloadOf_eq h hp, hlen]
    exact List.map_congr_left fun i _ => hbytes i
  · exact .inr hgone

/-- The calls that leave a resource alone. -/
def Spares (handle : BufferHandle) (_m : ResourceManager) (op : Op) : Prop :=
  ¬op.alters handle ∧ op.reclaims = false

/-- **A resource that is left alone keeps its payload** over any sequence of calls that fit. -/
theorem payload_run {config : ResourceManagerConfig} {slots : PoolTier → List Block}
    {ops : List Op} (h : IsolatedManager slots (written trace) m)
    (hslots : ∀ t b, b ∈ slots t → b.size = headerSize + (config.poolConfigs t).tier.capacity)
    (hfits : Allowed (FitsPool config) m ops) (hspares : Allowed (Spares handle) m ops)
    (hlive : (m.payload handle).isSome) :
    (m.run trace ops).2.payload handle = m.payload handle := by
  induction ops generalizing m trace with
  | nil => rfl
  | cons op ops ih =>
    obtain ⟨entry, hget⟩ : ∃ entry, m.table.get handle = .ok entry := by
      unfold payload at hlive
      cases hget : m.table.get handle with
      | error e => simp [hget] at hlive
      | ok entry => exact ⟨entry, rfl⟩
    have hp := ResourceTable.get_eq_ok.1 hget
    obtain ⟨⟨hop, hreclaims⟩, hspares⟩ := hspares
    rcases payload_step h hslots hp hfits.1 (fun halters => absurd halters hop) with
      ⟨entry', hmem, heq⟩ | ⟨hreclaim, -⟩
    · have hstep : (m.step op).2.payload handle = m.payload handle := by
        rw [payload_of_mem hmem, payload_of_mem hp, heq]
      rw [← hstep]
      exact ih (h.step hslots op hfits.1) hfits.2 hspares (hstep ▸ hlive)
    · rw [hreclaims] at hreclaim
      cases hreclaim

/-- Isolation over a sequence of calls that fit. -/
theorem IsolatedManager.run {config : ResourceManagerConfig} {slots : PoolTier → List Block}
    {ops : List Op} (h : IsolatedManager slots (written trace) m)
    (hslots : ∀ t b, b ∈ slots t → b.size = headerSize + (config.poolConfigs t).tier.capacity)
    (hfits : Allowed (FitsPool config) m ops) :
    IsolatedManager slots (written (m.run trace ops).1) (m.run trace ops).2 :=
  run_invariant (P := fun trace m => IsolatedManager slots (written trace) m)
    (fun _ _ op hop h => h.step hslots op hop) hfits h

end ResourceManager

end Torvyn
