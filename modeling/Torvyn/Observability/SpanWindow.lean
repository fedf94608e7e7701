/-
# The window of spans that is retained

`SpanRingBuffer` of `tracer/ring_buffer.rs` between two drains: what it holds, how long it is, and
whether it says that spans have been lost.  It holds the last spans that have been pushed
(`buffer_is_window`); a buffer that is exactly full says that it has wrapped, although nothing has
been overwritten (`wrapped_exact_iff`).
-/
import Torvyn.Data.RingBuffer
import Torvyn.Observability.Tracer

namespace Torvyn.Observability

open RingBuffer

/-! ## Queries -/

/-- `CompactSpanRecord::is_error`. -/
def CompactSpanRecord.isError (r : CompactSpanRecord) : Bool := r.statusCode = 1

namespace SpanRingBuffer

/-- `SpanRingBuffer::len`. -/
def len (b : SpanRingBuffer) : ℕ := min b.writePos b.slots.length

/-- `SpanRingBuffer::is_empty`. -/
def isEmpty (b : SpanRingBuffer) : Bool := b.writePos = 0

/-- `SpanRingBuffer::has_wrapped`. -/
def hasWrapped (b : SpanRingBuffer) : Bool := b.slots.length ≤ b.writePos

/-- The slot that a push writes. -/
def nextSlot (b : SpanRingBuffer) : ℕ := b.writePos &&& b.mask

/-- `SpanRingBuffer::contains_error`. -/
def containsError (b : SpanRingBuffer) : Bool :=
  (List.range b.len).any fun i =>
    let idx := if b.hasWrapped then (b.nextSlot + i) % b.slots.length else i
    b.slots[idx]?.any CompactSpanRecord.isError

/-- What is asked of a buffer. -/
inductive Call where
  | push (record : CompactSpanRecord)
  | drain

/-- One call. -/
def step (b : SpanRingBuffer) : Call → SpanRingBuffer
  | .push record => b.push record
  | .drain => b.drain.1

/-- The buffer after some calls. -/
def after (b : SpanRingBuffer) (calls : List Call) : SpanRingBuffer := calls.foldl step b

def Call.isPush : Call → Bool
  | .push _ => true
  | .drain => false

/-- What has been pushed since the last drain, one call later. -/
def pushedNext (pushed : List CompactSpanRecord) : Call → List CompactSpanRecord
  | .push record => pushed ++ [record]
  | .drain => []

/-- The records that have been pushed since the last drain. -/
def sinceDrain (calls : List Call) : List CompactSpanRecord := calls.foldl pushedNext []

/-! ## The buffer and its history -/

/-- A buffer that these records have been pushed to since it was empty. -/
structure Filled (b : SpanRingBuffer) (pushed : List CompactSpanRecord) : Prop where
  holds : RingBuffer.Holds b.slots pushed
  writePos_eq : b.writePos = pushed.length

variable {b : SpanRingBuffer} {pushed : List CompactSpanRecord}

theorem slots_length_pos (b : SpanRingBuffer) : 0 < b.slots.length := by
  obtain ⟨k, hk⟩ := b.isPowerOfTwo
  rw [hk]
  exact Nat.two_pow_pos k

/-- The mask takes the remainder. -/
theorem nextSlot_eq (b : SpanRingBuffer) : b.nextSlot = b.writePos % b.slots.length := by
  obtain ⟨k, hk⟩ := b.isPowerOfTwo
  rw [nextSlot, mask, hk, Nat.and_two_pow_sub_one_eq_mod]

theorem Filled.push (h : b.Filled pushed) (record : CompactSpanRecord)
    (hfew : pushed.length + 1 < 2 ^ 64) : (b.push record).Filled (pushed ++ [record]) := by
  constructor
  · show RingBuffer.Holds (b.slots.set b.nextSlot record) _
    rw [nextSlot_eq, h.writePos_eq]
    exact h.holds.write b.slots_length_pos record
  · show (b.writePos + 1) % 2 ^ 64 = _
    rw [h.writePos_eq, List.length_append, List.length_singleton, Nat.mod_eq_of_lt hfew]

theorem filled_of_empty (h : b.writePos = 0) : b.Filled [] := ⟨RingBuffer.Holds.nil _, h⟩

theorem Filled.records (h : b.Filled pushed) : b.records = lastOf b.slots.length pushed := by
  unfold SpanRingBuffer.records
  rw [h.writePos_eq]
  split
  · exact h.holds.take_eq ‹_›
  · rw [← h.holds.rotate_eq (by omega), ← h.writePos_eq]
    exact congrArg _ b.nextSlot_eq

theorem Filled.len (h : b.Filled pushed) : b.len = (lastOf b.slots.length pushed).length := by
  rw [SpanRingBuffer.len, h.writePos_eq, length_lastOf]

/-- The scan for errors meets the records in the order in which they are drained. -/
theorem records_getElem? (b : SpanRingBuffer) {i : ℕ} (hi : i < b.len) : b.records[i]? =
    b.slots[if b.hasWrapped then (b.nextSlot + i) % b.slots.length else i]? := by
  have hpos := b.slots_length_pos
  unfold len at hi
  unfold records hasWrapped
  by_cases hle : b.writePos ≤ b.slots.length
  · rw [if_pos hle, List.getElem?_take, if_pos (by omega)]
    by_cases hfull : b.slots.length ≤ b.writePos
    · -- the ring is exactly full, and the next slot is the first
      have hnext : b.nextSlot = 0 := by
        rw [nextSlot_eq, show b.writePos = b.slots.length by omega, Nat.mod_self]
      rw [if_pos (by simpa using hfull), hnext, Nat.zero_add, Nat.mod_eq_of_lt (by omega)]
    · rw [if_neg (by simpa using hfull)]
  · rw [if_neg hle, if_pos (by simp; omega), List.getElem?_rotate (by omega), Nat.add_comm]
    rfl

/-- Looking at the elements one after the other. -/
theorem any_range_getElem? {α : Type*} (p : α → Bool) (l : List α) :
    ((List.range l.length).any fun i => l[i]?.any p) = l.any p := by
  induction l with
  | nil => rfl
  | cons a l ih =>
      rw [List.length_cons, List.range_succ_eq_map, List.any_cons, List.any_map, List.any_cons,
        ← ih]
      rfl

theorem length_records (b : SpanRingBuffer) : b.records.length = b.len := by
  unfold records len
  split
  · rw [List.length_take]
  · rw [List.length_rotate]
    omega

/-- There is an error in the buffer exactly when there is one in what would be drained. -/
theorem containsError_eq (b : SpanRingBuffer) :
    b.containsError = b.records.any CompactSpanRecord.isError := by
  rw [← any_range_getElem?, length_records, containsError, Bool.eq_iff_iff, List.any_eq_true,
    List.any_eq_true]
  apply exists_congr
  intro i
  apply and_congr_right
  intro hi
  rw [records_getElem? b (List.mem_range.mp hi)]

/-! ## Any number of pushes and drains -/

theorem length_slots_step (b : SpanRingBuffer) (call : Call) :
    (b.step call).slots.length = b.slots.length := by
  cases call with
  | push record => exact List.length_set
  | drain => rfl

@[simp] theorem length_slots_after (b : SpanRingBuffer) (calls : List Call) :
    (b.after calls).slots.length = b.slots.length := by
  induction calls generalizing b with
  | nil => rfl
  | cons call calls ih =>
      show ((b.step call).after calls).slots.length = _
      rw [ih, length_slots_step]

theorem after_append (b : SpanRingBuffer) (calls : List Call) (call : Call) :
    b.after (calls ++ [call]) = (b.after calls).step call := by
  unfold after
  rw [List.foldl_append]
  rfl

theorem sinceDrain_append (calls : List Call) (call : Call) :
    sinceDrain (calls ++ [call]) = pushedNext (sinceDrain calls) call := by
  unfold sinceDrain
  rw [List.foldl_append]
  rfl

theorem length_sinceDrain_le (calls : List Call) :
    (sinceDrain calls).length ≤ calls.countP Call.isPush := by
  induction calls using List.reverseRecOn with
  | nil => exact Nat.le_refl _
  | append_singleton calls call ih =>
      rw [sinceDrain_append, List.countP_append]
      cases call with
      | push record =>
          rw [pushedNext, List.length_append, List.length_singleton]
          exact Nat.add_le_add_right ih 1
      | drain => exact Nat.zero_le _

theorem filled_after (capacity : RingCapacity) {calls : List Call}
    (hfew : calls.countP Call.isPush < 2 ^ 64) :
    ((new capacity).after calls).Filled (sinceDrain calls) := by
  induction calls using List.reverseRecOn with
  | nil => exact filled_of_empty rfl
  | append_singleton calls call ih =>
      have hle := length_sinceDrain_le calls
      rw [List.countP_append] at hfew
      rw [after_append, sinceDrain_append]
      cases call with
      | push record =>
          have hone : [Call.push record].countP Call.isPush = 1 := rfl
          exact (ih (by omega)).push record (by omega)
      | drain => exact filled_of_empty rfl

/-- **The buffer is a window** on the records that have been pushed since the last drain: it holds
the last of them, as many as it has slots, and its length and its errors are theirs. -/
theorem buffer_is_window (capacity : RingCapacity) (calls : List Call)
    (hfew : calls.countP Call.isPush < 2 ^ 64) :
    ((new capacity).after calls).drain.2 = lastOf capacity (sinceDrain calls) ∧
      ((new capacity).after calls).len = min (sinceDrain calls).length capacity ∧
      ((new capacity).after calls).isEmpty = (sinceDrain calls).isEmpty ∧
      ((new capacity).after calls).containsError =
        (lastOf capacity (sinceDrain calls)).any CompactSpanRecord.isError := by
  have hfilled := filled_after capacity hfew
  have hlength : ((new capacity).after calls).slots.length = capacity := by
    rw [length_slots_after]
    exact List.length_replicate
  have hrecords := hfilled.records
  have hlen := hfilled.len
  rw [hlength] at hrecords hlen
  refine ⟨hrecords, by rw [hlen, length_lastOf], ?_, by rw [containsError_eq, hrecords]⟩
  rw [isEmpty, hfilled.writePos_eq, Bool.eq_iff_iff, decide_eq_true_iff, List.length_eq_zero_iff,
    List.isEmpty_iff]

/-- Nine spans go through eight slots. -/
theorem window_of_nine : (((new ⟨8, by decide, 3, rfl⟩).after
    ((List.range 9).map fun n => .push { CompactSpanRecord.zeroed with startNs := n })).drain.2.map
      CompactSpanRecord.startNs) = [1, 2, 3, 4, 5, 6, 7, 8] := by
  rw [(buffer_is_window ⟨8, by decide, 3, rfl⟩ _ (by decide)).1]
  decide

end SpanRingBuffer

/-! ## What the collector says of a flow -/

/-- `FlowTraceState::has_wrapped`. -/
def FlowTraceState.hasWrapped (state : FlowTraceState) : Bool := state.spans.hasWrapped

namespace ObservabilityCollector

/-- `flow_spans_wrapped`. -/
def flowSpansWrapped (s : ObservabilityCollector) (flowId : FlowId) : Bool :=
  (s.traces.lookup flowId).any FlowTraceState.hasWrapped

/-- The collector after some actions. -/
def after (s : ObservabilityCollector) (actions : List Action) : ObservabilityCollector :=
  actions.foldl step s

/-- The slots of the buffer of a flow that have been written since it was empty, one action
later. -/
def writtenNext (flowId : FlowId) (s : ObservabilityCollector) (written : List ℕ) :
    Action → List ℕ
  | .recordElementSpan e =>
      if e.flowId = flowId ∧ s.Traces flowId then
        written ++ ((s.traces.lookup flowId).map fun state => state.spans.nextSlot).toList
      else written
  | .deregisterFlow other | .drainFlowSpans other => if other = flowId then [] else written
  | .setLevel _ | .onFlowStart _ _ => written

/-- The slots of the buffer of a flow that have been written since its last drain, one for each
span that has been pushed. -/
def slotsWritten (flowId : FlowId) (s : ObservabilityCollector) (actions : List Action) : List ℕ :=
  (actions.foldl (fun (s, written) action => (s.step action, writtenNext flowId s written action))
    (s, [])).2

/-- Some span of the flow has been overwritten since the last drain. -/
def Overwritten (flowId : FlowId) (s : ObservabilityCollector) (actions : List Action) : Prop :=
  ¬(slotsWritten flowId s actions).Nodup

/-- The buffer of the flow has been written round and round since it was empty. -/
structure Turning (flowId : FlowId) (capacity : ℕ) (s : ObservabilityCollector)
    (written : List ℕ) : Prop where
  capacity_eq : (s.capacity : ℕ) = capacity
  slots : ∀ state, s.traces.lookup flowId = some state → state.spans.slots.length = capacity
  writePos : ∀ state, s.traces.lookup flowId = some state →
    state.spans.writePos = written.length % 2 ^ 64
  unregistered : s.traces.lookup flowId = none → written = []
  inOrder : written = (List.range written.length).map (· % capacity)

variable {flowId : FlowId} {capacity : ℕ} {s : ObservabilityCollector} {written : List ℕ}

/-- The state of another flow changes. -/
theorem Turning.congr (h : Turning flowId capacity s written) {s' : ObservabilityCollector}
    (hcapacity : s'.capacity = s.capacity)
    (hlookup : s'.traces.lookup flowId = s.traces.lookup flowId) :
    Turning flowId capacity s' written := by
  refine ⟨by rw [hcapacity]; exact h.capacity_eq, ?_, ?_, ?_, h.inOrder⟩
  · rw [hlookup]
    exact h.slots
  · rw [hlookup]
    exact h.writePos
  · rw [hlookup]
    exact h.unregistered

/-- The buffer of the flow is emptied, or the flow is gone. -/
theorem Turning.empty (h : Turning flowId capacity s written) {s' : ObservabilityCollector}
    (hcapacity : s'.capacity = s.capacity)
    (hempty : ∀ state, s'.traces.lookup flowId = some state →
      state.spans.slots.length = capacity ∧ state.spans.writePos = 0) :
    Turning flowId capacity s' [] :=
  ⟨by rw [hcapacity]; exact h.capacity_eq, fun state hstate => (hempty state hstate).1,
    fun state hstate => (hempty state hstate).2, fun _ => rfl, rfl⟩

/-- A span more. -/
theorem Turning.push (h : Turning flowId capacity s written) (hdvd : capacity ∣ 2 ^ 64)
    {state : FlowTraceState} (hstate : s.traces.lookup flowId = some state)
    (record : CompactSpanRecord) :
    Turning flowId capacity
      { s with traces := s.traces.insert flowId { state with spans := state.spans.push record } }
      (written ++ [state.spans.nextSlot]) := by
  have hslot : state.spans.nextSlot = written.length % capacity := by
    rw [SpanRingBuffer.nextSlot_eq, h.writePos state hstate, h.slots state hstate,
      Nat.mod_mod_of_dvd _ hdvd]
  refine ⟨h.capacity_eq, ?_, ?_, ?_, ?_⟩
  · intro state' hstate'
    rw [AList.lookup_insert] at hstate'
    cases hstate'
    exact (List.length_set).trans (h.slots state hstate)
  · intro state' hstate'
    rw [AList.lookup_insert] at hstate'
    cases hstate'
    show (state.spans.writePos + 1) % 2 ^ 64 = _
    rw [h.writePos state hstate, List.length_append, List.length_singleton, Nat.mod_add_mod]
  · intro hnone
    rw [AList.lookup_insert] at hnone
    cases hnone
  · rw [List.length_append, List.length_singleton, List.range_succ, List.map_append, ← h.inOrder,
      List.map_singleton, hslot]

/-- A span is pushed, or it is not traced. -/
theorem recordElementSpan_cases (s : ObservabilityCollector) (e : ElementSpan) :
    (∃ state, s.Traces e.flowId ∧ s.traces.lookup e.flowId = some state ∧
      s.recordElementSpan e = { s with
        traces := s.traces.insert e.flowId
          ⟨state.context, state.spans.push (e.record state.context)⟩ }) ∨
    (¬s.Traces e.flowId ∧ (s.recordElementSpan e = s ∨
      s.recordElementSpan e = { s with spansDropped := s.spansDropped + 1 })) := by
  unfold recordElementSpan
  by_cases hlevel : s.level = .diagnostic
  · rw [if_neg (not_not.mpr hlevel)]
    cases hlookup : s.traces.lookup e.flowId with
    | none =>
        refine .inr ⟨?_, .inr rfl⟩
        rintro ⟨-, state, hstate, -⟩
        rw [hlookup] at hstate
        cases hstate
    | some state =>
        by_cases hsampled : state.context.sampled = false
        · refine .inr ⟨?_, .inl (if_pos hsampled)⟩
          rintro ⟨-, state', hstate, hsampled'⟩
          rw [hlookup] at hstate
          cases hstate
          rw [hsampled] at hsampled'
          cases hsampled'
        · refine .inl ⟨state, ⟨hlevel, state, hlookup, ?_⟩, rfl, if_neg hsampled⟩
          exact Bool.eq_true_of_not_eq_false hsampled
  · exact .inr ⟨fun htraces => hlevel htraces.1, .inl (if_pos hlevel)⟩

/-- One action more. -/
theorem Turning.step (h : Turning flowId capacity s written) (hdvd : capacity ∣ 2 ^ 64)
    (action : Action) :
    Turning flowId capacity (s.step action) (writtenNext flowId s written action) := by
  cases action with
  | setLevel level => exact h.congr rfl rfl
  | onFlowStart other context =>
      simp only [ObservabilityCollector.step, onFlowStart, writtenNext]
      split
      · exact h
      · rename_i hnew
        by_cases hother : flowId = other
        · subst hother
          rw [h.unregistered (AList.lookup_eq_none.mpr hnew)]
          refine h.empty rfl fun state hstate => ?_
          rw [AList.lookup_insert] at hstate
          cases hstate
          exact ⟨(List.length_replicate).trans h.capacity_eq, rfl⟩
        · exact h.congr rfl (AList.lookup_insert_ne hother)
  | deregisterFlow other =>
      simp only [ObservabilityCollector.step, writtenNext]
      by_cases hother : other = flowId
      · subst hother
        rw [if_pos rfl]
        refine h.empty rfl fun state hstate => ?_
        rw [AList.lookup_erase] at hstate
        cases hstate
      · rw [if_neg hother]
        exact h.congr rfl (AList.lookup_erase_ne (Ne.symm hother))
  | recordElementSpan e =>
      show Turning flowId capacity (s.recordElementSpan e) (writtenNext flowId s written _)
      rw [writtenNext]
      rcases recordElementSpan_cases s e with
        ⟨state, htraces, hlookup, hresult⟩ | ⟨hnot, hresult | hresult⟩
      · rw [hresult]
        by_cases hflow : e.flowId = flowId
        · subst hflow
          rw [if_pos ⟨rfl, htraces⟩, hlookup]
          exact h.push hdvd hlookup _
        · rw [if_neg fun hboth => hflow hboth.1]
          exact h.congr rfl (AList.lookup_insert_ne (Ne.symm hflow))
      · rw [hresult, if_neg]
        · exact h
        · rintro ⟨rfl, htraces⟩
          exact hnot htraces
      · rw [hresult, if_neg]
        · exact h.congr rfl rfl
        · rintro ⟨rfl, htraces⟩
          exact hnot htraces
  | drainFlowSpans other =>
      simp only [ObservabilityCollector.step, drainFlowSpans, writtenNext]
      by_cases hother : other = flowId
      · subst hother
        rw [if_pos rfl]
        cases hlookup : s.traces.lookup other with
        | none =>
            rw [← h.unregistered hlookup]
            exact h
        | some state =>
            refine h.empty rfl fun state' hstate' => ?_
            rw [AList.lookup_insert] at hstate'
            cases hstate'
            exact ⟨h.slots state hlookup, rfl⟩
      · rw [if_neg hother]
        split
        · exact h
        · exact h.congr rfl (AList.lookup_insert_ne (Ne.symm hother))

theorem turning_after (level : ObservabilityLevel) (capacity : RingCapacity)
    (hdvd : (capacity : ℕ) ∣ 2 ^ 64) (flowId : FlowId) (actions : List Action) :
    Turning flowId capacity ((new level capacity).after actions)
      (slotsWritten flowId (new level capacity) actions) := by
  have hrun : ∀ (s : ObservabilityCollector) (written : List ℕ),
      Turning flowId capacity s written →
      Turning flowId capacity (s.after actions) (actions.foldl (fun (s, written) action =>
        (s.step action, writtenNext flowId s written action)) (s, written)).2 := by
    induction actions with
    | nil => exact fun s written h => h
    | cons action actions ih =>
        intro s written h
        exact ih _ _ (h.step hdvd action)
  apply hrun
  refine ⟨rfl, ?_, ?_, fun _ => rfl, rfl⟩
  · intro state hstate
    cases hstate
  · intro state hstate
    cases hstate

/-- **Exactly when truncation is reported as it is**: unless the flow has filled its ring to the
last slot and no further, or the 64 bits of its write position have come round to less than a
ring's length. -/
theorem wrapped_exact_iff (level : ObservabilityLevel) (capacity : RingCapacity)
    (hcapacity : (capacity : ℕ) < 2 ^ 64) (flowId : FlowId) (actions : List Action) :
    (((new level capacity).after actions).flowSpansWrapped flowId = true ↔
        Overwritten flowId (new level capacity) actions) ↔
      (slotsWritten flowId (new level capacity) actions).length ≠ capacity ∧
        ((slotsWritten flowId (new level capacity) actions).length < capacity ∨
          capacity ≤ (slotsWritten flowId (new level capacity) actions).length % 2 ^ 64) := by
  obtain ⟨k, hk⟩ := capacity.2.2
  have hk64 : k < 64 := by
    rw [hk] at hcapacity
    exact (Nat.pow_lt_pow_iff_right (by decide)).mp hcapacity
  have hturning := turning_after level capacity (hk ▸ Nat.pow_dvd_pow 2 hk64.le) flowId actions
  have hpos : 0 < (capacity : ℕ) := lt_of_lt_of_le (by decide) capacity.2.1
  have hover : Overwritten flowId (new level capacity) actions ↔
      capacity < (slotsWritten flowId (new level capacity) actions).length := by
    rw [Overwritten, hturning.inOrder, RingBuffer.nodup_slots_iff hpos, List.length_map,
      List.length_range, Nat.not_le]
  have hwrapped : ((new level capacity).after actions).flowSpansWrapped flowId = true ↔
      capacity ≤ (slotsWritten flowId (new level capacity) actions).length % 2 ^ 64 := by
    unfold flowSpansWrapped FlowTraceState.hasWrapped SpanRingBuffer.hasWrapped
    cases hlookup : ((new level capacity).after actions).traces.lookup flowId with
    | none =>
        rw [hturning.unregistered hlookup]
        simp
        omega
    | some state =>
        rw [Option.any_some, decide_eq_true_iff, hturning.slots state hlookup,
          hturning.writePos state hlookup]
  rw [hover, hwrapped]
  have hmod := Nat.mod_le (slotsWritten flowId (new level capacity) actions).length (2 ^ 64)
  by_cases hsmall : (slotsWritten flowId (new level capacity) actions).length < 2 ^ 64
  · rw [Nat.mod_eq_of_lt hsmall]
    omega
  · omega

/-- A flow that is traced, and the first spans of one of its components. -/
def firstSpans (count : ℕ) : List Action :=
  .onFlowStart ⟨1⟩ ⟨⟨List.replicate 8 1⟩, true⟩ ::
    (List.range count).map fun n =>
      .recordElementSpan ⟨⟨1⟩, ⟨⟨1⟩, BitVec.ofNat 64 n⟩, n, n + 1, .ok⟩

/-- Eight spans fill a ring of eight slots.  None is lost, and the trace is said to be truncated. -/
theorem full_ring_said_wrapped :
    ((new .diagnostic ⟨8, by decide, 3, rfl⟩).after (firstSpans 8)).flowSpansWrapped ⟨1⟩ = true ∧
      ¬Overwritten ⟨1⟩ (new .diagnostic ⟨8, by decide, 3, rfl⟩) (firstSpans 8) := by
  constructor
  · decide
  · unfold Overwritten
    decide

/-- The ninth span overwrites the first. -/
theorem ninth_span_wraps :
    ((new .diagnostic ⟨8, by decide, 3, rfl⟩).after (firstSpans 9)).flowSpansWrapped ⟨1⟩ = true ↔
      Overwritten ⟨1⟩ (new .diagnostic ⟨8, by decide, 3, rfl⟩) (firstSpans 9) :=
  (wrapped_exact_iff .diagnostic ⟨8, by decide, 3, rfl⟩ (by decide) ⟨1⟩ (firstSpans 9)).mpr
    (by decide)

end ObservabilityCollector

end Torvyn.Observability
