/-
# Exactness of the copy ledger

The statistics of a flow count the payload copies made for it since its entry was created:
the successful reads and writes that name it, and nothing else. Two operations besides them
touch the entry: a registration creates it, and `release_flow_resources` drops it. The
counters are 64-bit, so they count modulo 2^64.
-/
import Torvyn.Resources.Isolation
import Torvyn.Resources.Reclaim

namespace Torvyn

namespace ResourceManager

/-! ## The copies of a run -/

/-- The copy that a call has made for a flow: its reason and the bytes it moved. -/
def copyOf (f : FlowId) : Op × Reply → Option (CopyReason × ℕ)
  | (.readPayload _ _ _ _ flowId, .bytes (.ok data)) =>
    if flowId = f then some (.hostToComponent, data.length) else none
  | (.writePayload _ _ _ data flowId, .done (.ok ())) =>
    if flowId = f then some (.componentToHost, data.length) else none
  | _ => none

/-- The copies that a run has made for a flow, the latest first. -/
def copiesOf (f : FlowId) (trace : Trace) : List (CopyReason × ℕ) := trace.filterMap (copyOf f)

/-- What a call does to the copies that count for a flow: those made since its entry was
created, `none` while it has no entry. -/
def count (f : FlowId) (call : Op × Reply) (copies : Option (List (CopyReason × ℕ))) :
    Option (List (CopyReason × ℕ)) :=
  match call.1 with
  | .registerFlow flowId => if flowId = f then some (copies.getD []) else copies
  | .releaseFlowResources flowId _ => if flowId = f then none else copies
  | _ => copies.map ((copyOf f call).toList ++ ·)

/-- The statistics of a list of copies. -/
def statsOf (copies : List (CopyReason × ℕ)) : FlowCopyStats where
  totalPayloadBytes := (copies.map Prod.snd).sum % 2 ^ 64
  totalCopyOps := copies.length % 2 ^ 64
  copiesByReason reason := copies.countP (·.1 = reason) % 2 ^ 64

theorem statsOf_nil : statsOf [] = .new := rfl

/-- Recording a copy adds it to the statistics. -/
theorem statsOf_cons (reason : CopyReason) (byteCount : ℕ) (copies : List (CopyReason × ℕ)) :
    statsOf ((reason, byteCount) :: copies) = (statsOf copies).record byteCount reason := by
  simp only [statsOf, FlowCopyStats.record, List.map_cons, List.sum_cons, List.length_cons,
    FlowCopyStats.mk.injEq]
  refine ⟨?_, ?_, ?_⟩
  · rw [Nat.mod_add_mod, Nat.add_comm]
  · rw [Nat.mod_add_mod]
  · funext other
    by_cases h : other = reason
    · subst h
      rw [Function.update_self, Nat.mod_add_mod, List.countP_cons_of_pos (by simp)]
    · rw [Function.update_of_ne h, List.countP_cons_of_neg (by simpa using Ne.symm h)]

/-- Every copy has one reason. -/
theorem sum_countP (copies : List (CopyReason × ℕ)) :
    ∑ reason, copies.countP (·.1 = reason) = copies.length := by
  induction copies with
  | nil => simp
  | cons copy copies ih =>
    simp only [List.countP_cons, Finset.sum_add_distrib, ih, List.length_cons]
    simp

/-- The counters of the reasons add up to the number of copies, modulo 2^64. -/
theorem sum_copiesByReason (copies : List (CopyReason × ℕ)) :
    (∑ reason, (statsOf copies).copiesByReason reason) % 2 ^ 64 =
      (statsOf copies).totalCopyOps := by
  simp only [statsOf]
  rw [← Finset.sum_nat_mod, sum_countP]

/-- Below 2^64 copies the counters do not wrap. -/
theorem sum_copiesByReason_of_lt {copies : List (CopyReason × ℕ)} (h : copies.length < 2 ^ 64) :
    ∑ reason, (statsOf copies).copiesByReason reason = (statsOf copies).totalCopyOps := by
  have hmod : ∀ reason, (statsOf copies).copiesByReason reason =
      copies.countP (·.1 = reason) := fun reason =>
    Nat.mod_eq_of_lt (List.countP_le_length.trans_lt h)
  simp only [hmod, sum_countP]
  exact (Nat.mod_eq_of_lt h).symm

/-! ## What a call does to the ledger -/

variable {m : ResourceManager} {f : FlowId}

theorem ledger_forceReclaim (component : ComponentId) (hash : HashOrder) :
    (m.forceReclaim component hash).2.ledger = m.ledger := by
  obtain ⟨removed, hswept⟩ := forceReclaim_swept (m := m) component hash
  exact hswept.ledger

theorem ledger_reclaimFlowBuffers (flowId : FlowId) (hash : HashOrder) :
    (m.reclaimFlowBuffers flowId hash).2.ledger = m.ledger := by
  obtain ⟨removed, hswept⟩ := reclaimFlow_swept (m := m) flowId hash
  exact hswept.ledger

/-- The bytes of a read are as many as were asked for. -/
theorem length_readPayload (ptr offset length : ℕ) (heap : Heap) :
    (Torvyn.readPayload ptr offset length heap).length = length := by
  simp [Torvyn.readPayload, Heap.load]

/-- A copy in the ledger, seen from one flow. -/
theorem recordCopy_eq {copies : Option (List (CopyReason × ℕ))} {ledger : CopyLedger}
    (h : ledger f = copies.map statsOf) (flowId : FlowId) (byteCount : ℕ) (reason : CopyReason) :
    ledger.recordCopy flowId byteCount reason f =
      (copies.map ((if flowId = f then some (reason, byteCount) else none).toList ++ ·)).map
        statsOf := by
  by_cases hflow : flowId = f
  · subst hflow
    cases copies with
    | none => simp [CopyLedger.recordCopy, h]
    | some copies =>
      rw [if_pos rfl, CopyLedger.recordCopy_self h, Option.toList_some, Option.map_some,
        Option.map_some, List.singleton_append, statsOf_cons]
  · rw [if_neg hflow, CopyLedger.recordCopy_of_ne (Ne.symm hflow), h]
    cases copies <;> rfl

/-- A failed call makes no copy. -/
theorem copyOf_of_failed {op : Op} {reply : Reply} (h : reply.failed = true) :
    copyOf f (op, reply) = none := by
  cases reply with
  | done result => cases result <;> cases op <;> first | rfl | cases h
  | bytes result => cases result <;> cases op <;> first | rfl | cases h
  | handle result => cases op <;> rfl
  | reclaimed resources => cases op <;> rfl
  | stats result => cases op <;> rfl

/-- **What a call does to the statistics of a flow.** -/
theorem ledger_step {copies : Option (List (CopyReason × ℕ))}
    (h : m.ledger f = copies.map statsOf) (op : Op) :
    (m.step op).2.ledger f = (count f (op, (m.step op).1) copies).map statsOf := by
  have hsame : m.ledger f = (copies.map (([] : List (CopyReason × ℕ)) ++ ·)).map statsOf := by
    simpa using h
  have hstep := step_cases m op
  generalize (m.step op).1 = reply at hstep ⊢
  generalize (m.step op).2 = after at hstep ⊢
  cases hstep with
  | registeredFlow flowId =>
    by_cases hflow : flowId = f
    · subst hflow
      cases copies <;> simp [registerFlow, CopyLedger.registerFlow, h, count, statsOf_nil]
    · simp [registerFlow, CopyLedger.registerFlow, Function.update_of_ne (Ne.symm hflow), h, count,
        hflow]
  | registeredComponent component maxOwnedBytes => exact hsame
  | refused op reply hop hfailed =>
    have hcount : count f (op, reply) copies = copies.map ((copyOf f (op, reply)).toList ++ ·) := by
      cases op <;> first | rfl | cases hop
    rw [hcount, copyOf_of_failed hfailed]
    exact hsame
  | exhausted alloc owner n flowId budgets e => exact hsame
  | rolledBack alloc owner n flowId budgets e buffer pools heap => exact hsame
  | admitted alloc owner n flowId budgets buffer pools heap id table => exact hsame
  | dropped handle caller entry table => exact hsame
  | charged handle sender recipient entry budgets e => exact hsame
  | moved handle sender recipient entry budgets => exact hsame
  | borrowStarted handle borrower entry borrowed => exact hsame
  | borrowEnded handle borrower entry returned => exact hsame
  | read handle caller offset length flowId entry hget hle =>
    simp only [count, copyOf, length_readPayload]
    exact recordCopy_eq h flowId length .hostToComponent
  | wrote handle caller offset data flowId entry hget howner hstate hle =>
    exact recordCopy_eq h flowId data.length .componentToHost
  | forceReclaimed component hash =>
    rw [ledger_forceReclaim]
    exact hsame
  | flowReclaimed flowId hash =>
    rw [ledger_reclaimFlowBuffers]
    exact hsame
  | flowReleased flowId hash =>
    by_cases hflow : flowId = f
    · subst hflow
      simp [CopyLedger.removeFlow, count]
    · simp [ledger_reclaimFlowBuffers, CopyLedger.removeFlow,
        Function.update_of_ne (Ne.symm hflow), h, count, hflow]

/-- A call that does not release the flow adds the copy it has made, if any. -/
theorem count_some {op : Op} (hop : ∀ hash, op ≠ .releaseFlowResources f hash) (reply : Reply)
    (copies : List (CopyReason × ℕ)) :
    count f (op, reply) (some copies) = some ((copyOf f (op, reply)).toList ++ copies) := by
  cases op with
  | registerFlow flowId =>
    simp only [count, copyOf]
    split <;> rfl
  | releaseFlowResources flowId hash =>
    have hne : flowId ≠ f := by
      rintro rfl
      exact hop hash rfl
    simp only [count, copyOf, if_neg hne]
    rfl
  | _ => rfl

/-- While the flow stays registered, its statistics count the copies of the run on top of
those counted before. -/
theorem ledger_run {copies : List (CopyReason × ℕ)} (h : m.ledger f = some (statsOf copies))
    {ops : List Op} (hkept : ∀ hash, Op.releaseFlowResources f hash ∉ ops) (trace : Trace) :
    ∃ new, (run m trace ops).1 = new ++ trace ∧
      (run m trace ops).2.ledger f = some (statsOf (copiesOf f new ++ copies)) := by
  induction ops generalizing m trace copies with
  | nil => exact ⟨[], rfl, h⟩
  | cons op ops ih =>
    have hop : ∀ hash, op ≠ .releaseFlowResources f hash := by
      rintro hash rfl
      exact hkept hash List.mem_cons_self
    have hstep : (m.step op).2.ledger f = (count f (op, (m.step op).1) (some copies)).map statsOf :=
      ledger_step h op
    rw [count_some hop] at hstep
    obtain ⟨new, hnew, hledger⟩ := ih hstep
      (fun hash hmem => hkept hash (List.mem_cons_of_mem _ hmem)) ((op, (m.step op).1) :: trace)
    refine ⟨new ++ [(op, (m.step op).1)], ?_, ?_⟩
    · rw [run, hnew, List.append_assoc]
      rfl
    · rw [run, hledger, copiesOf, copiesOf, List.filterMap_append, List.append_assoc]
      cases hcopy : copyOf f (op, (m.step op).1) <;> simp [hcopy]

end ResourceManager

namespace StartedManager

open ResourceManager

/-- In every state of a run the statistics of a flow are those of some copies. -/
theorem exists_copies (s : StartedManager) (ops : List Op) (f : FlowId) :
    ∃ copies : Option (List (CopyReason × ℕ)),
      (s.after ops).ledger f = copies.map statsOf := by
  apply s.after_invariant (P := fun m => ∃ copies : Option (List (CopyReason × ℕ)),
    m.ledger f = copies.map statsOf)
  · obtain ⟨-, -, -, -, hledger, -⟩ := s.manager_eq
    exact ⟨none, by rw [hledger]; rfl⟩
  · rintro m op ⟨copies, h⟩
    exact ⟨_, ledger_step h op⟩

/-- A registration keeps what the flow has counted, and starts at zero without an entry. -/
theorem ledger_registered (s : StartedManager) (before : List Op) (f : FlowId) :
    ∃ copies, ((s.after before).ledger f = none → copies = []) ∧
      (s.after before).ledger.flowStats f = statsOf copies ∧
      (s.after (before ++ [.registerFlow f])).ledger f = some (statsOf copies) := by
  obtain ⟨copies, hcopies⟩ := s.exists_copies before f
  have hafter : s.after (before ++ [.registerFlow f]) =
      ((s.after before).step (.registerFlow f)).2 := by
    rw [after, run_append]
    rfl
  refine ⟨copies.getD [], ?_, ?_, ?_⟩
  · intro hnone
    rw [hcopies, Option.map_eq_none_iff] at hnone
    rw [hnone, Option.getD_none]
  · rw [CopyLedger.flowStats, hcopies]
    cases copies <;> rfl
  · rw [hafter, ledger_step hcopies]
    simp only [count, if_true, Option.map_some]

/-- **Exactness of the copy ledger.** From a registration of a flow on, up to a call that
releases the flow's resources and drops its entry, its statistics count the successful reads
and writes that name it, on top of what the flow had counted before (nothing when it had no
entry): their number, the bytes they moved, and each under its reason. The counters are
64-bit. No other call changes the statistics. -/
theorem copyStats_exact (s : StartedManager) (before ops : List Op) (f : FlowId)
    (hkept : ∀ hash, Op.releaseFlowResources f hash ∉ ops) :
    let base := (s.after before).ledger.flowStats f
    let result := (s.after (before ++ [.registerFlow f])).run [] ops
    let copies := copiesOf f result.1
    let stats := result.2.ledger.flowStats f
    stats.totalCopyOps = (base.totalCopyOps + copies.length) % 2 ^ 64 ∧
    stats.totalPayloadBytes = (base.totalPayloadBytes + (copies.map Prod.snd).sum) % 2 ^ 64 ∧
    (∑ reason, stats.copiesByReason reason) % 2 ^ 64 = stats.totalCopyOps ∧
    ((s.after before).ledger f = none → copies.length < 2 ^ 64 →
      stats.totalCopyOps = copies.length ∧
      ∑ reason, stats.copiesByReason reason = stats.totalCopyOps) ∧
    ∀ op, (∀ hash, op ≠ .releaseFlowResources f hash) →
      copyOf f (op, (result.2.step op).1) = none →
      (result.2.step op).2.ledger.flowStats f = stats := by
  obtain ⟨earlier, hfresh, hbase, hregistered⟩ := s.ledger_registered before f
  obtain ⟨new, hnew, hledger⟩ := ledger_run hregistered hkept []
  rw [List.append_nil] at hnew
  intro base result copies stats
  have hcopies : copies = copiesOf f new := congrArg (copiesOf f) hnew
  have hstats : stats = statsOf (copies ++ earlier) := by
    rw [hcopies]
    simp only [stats, result, CopyLedger.flowStats, hledger, Option.getD_some]
  have hbase : base = statsOf earlier := hbase
  refine ⟨?_, ?_, ?_, ?_, ?_⟩
  · rw [hstats, hbase]
    simp only [statsOf, List.length_append]
    rw [Nat.mod_add_mod, Nat.add_comm]
  · rw [hstats, hbase]
    simp only [statsOf, List.map_append, List.sum_append]
    rw [Nat.mod_add_mod, Nat.add_comm]
  · rw [hstats]
    exact sum_copiesByReason _
  · intro hnone hlt
    rw [hstats, hfresh hnone, List.append_nil]
    exact ⟨Nat.mod_eq_of_lt hlt, sum_copiesByReason_of_lt hlt⟩
  · intro op hop hcopy
    have hstep : (result.2.step op).2.ledger f =
        (count f (op, (result.2.step op).1) (some (copiesOf f new ++ earlier))).map statsOf :=
      ledger_step hledger op
    rw [count_some hop, hcopy, Option.toList_none, List.nil_append, Option.map_some] at hstep
    simp only [stats, result, CopyLedger.flowStats, hstep, hledger]

/-! ## Statistics that are dropped or wrap -/

/-- A buffer is written for flow 0. -/
def written : List Op :=
  [.allocate .bump .host 10 ⟨0⟩, .writePayload ⟨⟨0, 1⟩⟩ .host 0 [7, 7, 7] ⟨0⟩]

/-- A read of no bytes for flow 0. -/
def emptyRead : Op := .readPayload ⟨⟨0, 1⟩⟩ .host 0 0 ⟨0⟩

/-- Every empty read of a live buffer succeeds and counts as a copy. -/
theorem copiesOf_emptyReads (k : ℕ) {m : ResourceManager} {entry : ResourceEntry}
    (hget : m.table.get ⟨⟨0, 1⟩⟩ = .ok entry) (trace : Trace) :
    copiesOf ⟨0⟩ (run m trace (List.replicate k emptyRead)).1 =
      List.replicate k (.hostToComponent, 0) ++ copiesOf ⟨0⟩ trace := by
  induction k generalizing m trace with
  | zero => rfl
  | succ k ih =>
    have hstep : m.step emptyRead = (.bytes (.ok []),
        { m with ledger := m.ledger.recordCopy ⟨0⟩ 0 .hostToComponent }) := by
      simp [step, emptyRead, ResourceManager.readPayload, hget, Torvyn.readPayload, Heap.load]
    have hnext := ih (m := { m with ledger := m.ledger.recordCopy ⟨0⟩ 0 .hostToComponent }) hget
      ((emptyRead, .bytes (.ok [])) :: trace)
    rw [List.replicate_succ, run, hstep]
    refine hnext.trans ?_
    rw [List.replicate_succ', List.append_assoc]
    rfl

/-- After a registration and one write for the flow, releasing its resources drops its
statistics; and after 2^64 reads the counter of its copies is back at zero. -/
theorem copyStats_dropped_or_wrapped :
    let m := startedSmallPool.after [.registerFlow ⟨0⟩]
    let released := m.run [] (written ++ [.releaseFlowResources ⟨0⟩ default])
    let reads := m.run [] ([.allocate .bump .host 10 ⟨0⟩] ++ List.replicate (2 ^ 64) emptyRead)
    ((copiesOf ⟨0⟩ released.1).length = 1 ∧
        (released.2.ledger.flowStats ⟨0⟩).totalCopyOps = 0) ∧
      (copiesOf ⟨0⟩ reads.1).length = 2 ^ 64 ∧
        (reads.2.ledger.flowStats ⟨0⟩).totalCopyOps = 0 := by
  intro m released reads
  have hreleased : released = run (m.run [] written).2 (m.run [] written).1
      [.releaseFlowResources ⟨0⟩ default] := run_append m [] _ _
  have hreads : reads = run (m.run [] [.allocate .bump .host 10 ⟨0⟩]).2
      (m.run [] [.allocate .bump .host 10 ⟨0⟩]).1 (List.replicate (2 ^ 64) emptyRead) :=
    run_append m [] _ _
  obtain ⟨entry, hget⟩ :
      ∃ entry, (m.run [] [.allocate .bump .host 10 ⟨0⟩]).2.table.get ⟨⟨0, 1⟩⟩ = .ok entry :=
    ⟨_, rfl⟩
  have hfirst : copiesOf ⟨0⟩ (m.run [] [.allocate .bump .host 10 ⟨0⟩]).1 = [] := by rfl
  have hlength : (copiesOf ⟨0⟩ reads.1).length = 2 ^ 64 := by
    rw [hreads, copiesOf_emptyReads (2 ^ 64) hget, hfirst, List.append_nil,
      List.length_replicate]
  refine ⟨⟨?_, ?_⟩, hlength, ?_⟩
  · rw [hreleased]
    rfl
  · rw [hreleased]
    simp only [run, step, releaseFlowResources, Prod.map, id, CopyLedger.flowStats,
      CopyLedger.removeFlow, Function.update_self, Option.getD_none]
    rfl
  · have hregistered : m.ledger ⟨0⟩ = some (statsOf []) := rfl
    have hkept : ∀ hash, Op.releaseFlowResources ⟨0⟩ hash ∉
        [.allocate .bump .host 10 ⟨0⟩] ++ List.replicate (2 ^ 64) emptyRead := by
      intro hash hmem
      rcases List.mem_append.1 hmem with hmem | hmem
      · simp at hmem
      · cases List.eq_of_mem_replicate hmem
    obtain ⟨new, hnew, hledger⟩ := ledger_run hregistered hkept []
    rw [List.append_nil] at hnew
    simp only [CopyLedger.flowStats, reads, hledger, Option.getD_some, List.append_nil, statsOf]
    rw [← hnew]
    exact (congrArg (· % 2 ^ 64) hlength).trans (Nat.mod_self _)

theorem copyStats_exact_reuse :
    let result := (startedSmallPool.after [.registerFlow ⟨0⟩]).run [] reuse
    copiesOf ⟨0⟩ result.1 = [(.componentToHost, 1), (.componentToHost, 3)] ∧
    (result.2.ledger.flowStats ⟨0⟩).totalCopyOps = 2 := by
  have hkept : ∀ hash, Op.releaseFlowResources ⟨0⟩ hash ∉ reuse := by
    intro hash hmem
    simp [reuse] at hmem
  have hcopies : copiesOf ⟨0⟩ ((startedSmallPool.after [.registerFlow ⟨0⟩]).run [] reuse).1 =
      [(.componentToHost, 1), (.componentToHost, 3)] := by rfl
  have hexact := (startedSmallPool.copyStats_exact [] reuse ⟨0⟩ hkept).1
  refine ⟨hcopies, hexact.trans ?_⟩
  simp only [List.nil_append, hcopies]
  rfl

end StartedManager

end Torvyn
