/-
# Span identities

`derive_span_id` of `tracer/registry.rs`, the ring buffer that retains a flow's spans and the
collector that records and drains them.  The id mixes one 64-bit key per invocation with
SplitMix64, which loses nothing; the key is where two invocations can meet.
-/
import Torvyn.Data.BitMix
import Torvyn.Data.KeyMap
import Torvyn.Types

namespace Torvyn.Observability

open BitMix

/-! ## Span ids -/

/-- A span id: eight bytes. -/
structure SpanId where
  bytes : List (BitVec 8)
  deriving DecidableEq, Repr

/-- `SpanId::is_valid`. -/
def SpanId.isValid (id : SpanId) : Bool := id.bytes ≠ List.replicate 8 0

/-- `u64::to_le_bytes`. -/
def toLeBytes (x : BitVec 64) : List (BitVec 8) :=
  (List.range 8).map fun i => x.extractLsb' (8 * i) 8

/-- The SplitMix64 finalizer. -/
def splitmix64 (x : BitVec 64) : BitVec 64 :=
  let x := x + 0x9E3779B97F4A7C15#64
  let x := xorShiftRight x 30 * 0xBF58476D1CE4E5B9#64
  let x := xorShiftRight x 27 * 0x94D049BB133111EB#64
  xorShiftRight x 31

/-- An invocation of a component of a flow. -/
structure Invocation where
  componentId : ComponentId
  elementSequence : BitVec 64
  deriving DecidableEq, Repr

/-- The identifiers of an invocation, combined into one key. -/
def spanKey (flowId : FlowId) (i : Invocation) : BitVec 64 :=
  i.elementSequence ^^^ (BitVec.ofNat 64 i.componentId.id).rotateLeft 21 ^^^
    (BitVec.ofNat 64 flowId.id).rotateLeft 43

/-- The span id of an invocation. -/
def deriveSpanId (flowId : FlowId) (i : Invocation) : SpanId :=
  ⟨toLeBytes (splitmix64 (spanKey flowId i))⟩

/-- The bytes of a word determine it. -/
theorem toLeBytes_injective : Function.Injective toLeBytes := by
  intro x y h
  have hbyte : ∀ i < 8, x.extractLsb' (8 * i) 8 = y.extractLsb' (8 * i) 8 := by
    intro i hi
    exact List.map_inj_left.mp h i (List.mem_range.mpr hi)
  apply BitVec.eq_of_getLsbD_eq
  intro n hn
  have hbit := congrArg (fun b => b.getLsbD (n % 8)) (hbyte (n / 8) (by omega))
  have hlt : n % 8 < 8 := Nat.mod_lt n (by decide)
  simpa [BitVec.getLsbD_extractLsb', hlt, Nat.div_add_mod] using hbit

/-- The finalizer loses nothing. -/
theorem splitmix64_injective : Function.Injective splitmix64 := by
  have hadd : Function.Injective fun x : BitVec 64 => x + 0x9E3779B97F4A7C15#64 :=
    add_left_injective _
  have hfirst : Function.Injective fun x : BitVec 64 => x * 0xBF58476D1CE4E5B9#64 :=
    injective_mul_right (d := 0x96DE1B173F119089#64) (by decide)
  have hsecond : Function.Injective fun x : BitVec 64 => x * 0x94D049BB133111EB#64 :=
    injective_mul_right (d := 0x319642B2D24D8EC3#64) (by decide)
  intro x y h
  apply hadd
  apply injective_xorShiftRight (k := 30) (by decide)
  apply hfirst
  apply injective_xorShiftRight (k := 27) (by decide)
  apply hsecond
  apply injective_xorShiftRight (k := 31) (by decide)
  exact h

/-- The key that the finalizer turns into zero. -/
def zeroKey : BitVec 64 := 0x61C8864680B583EB#64

/-- An id is the invalid one exactly when its key is the one that mixes to zero. -/
theorem isValid_deriveSpanId (flowId : FlowId) (i : Invocation) :
    (deriveSpanId flowId i).isValid ↔ spanKey flowId i ≠ zeroKey := by
  have hzero : List.replicate 8 0 = toLeBytes (splitmix64 zeroKey) := by decide
  simp only [SpanId.isValid, deriveSpanId, hzero, decide_eq_true_eq, ne_eq,
    toLeBytes_injective.eq_iff, splitmix64_injective.eq_iff]

/-- Two invocations have one id exactly when their sequences differ where their rotated
component ids do. -/
theorem deriveSpanId_eq_iff (flowId : FlowId) (i j : Invocation) :
    deriveSpanId flowId i = deriveSpanId flowId j ↔
      i.elementSequence ^^^ j.elementSequence =
        (BitVec.ofNat 64 i.componentId.id ^^^ BitVec.ofNat 64 j.componentId.id).rotateLeft 21 := by
  rw [deriveSpanId, deriveSpanId, SpanId.mk.injEq, toLeBytes_injective.eq_iff,
    splitmix64_injective.eq_iff, spanKey, spanKey, BitVec.xor_left_inj, rotateLeft_xor]
  set a := i.elementSequence
  set b := j.elementSequence
  set c := (BitVec.ofNat 64 i.componentId.id).rotateLeft 21
  set d := (BitVec.ofNat 64 j.componentId.id).rotateLeft 21
  rw [← BitVec.xor_eq_zero_iff, ← BitVec.xor_eq_zero_iff (x := a ^^^ b)]
  have hswap : a ^^^ c ^^^ (b ^^^ d) = a ^^^ b ^^^ (c ^^^ d) := by ac_rfl
  rw [hswap]

/-- Within the first `2 ^ 21` elements the rotation keeps the component ids clear of the
sequences, and the ids are distinct. -/
theorem deriveSpanId_injective_of_small {flowId : FlowId} {i j : Invocation}
    (hi : i.elementSequence.toNat < 2 ^ 21) (hj : j.elementSequence.toNat < 2 ^ 21)
    (hi' : i.componentId.id < 2 ^ 43) (hj' : j.componentId.id < 2 ^ 43)
    (h : deriveSpanId flowId i = deriveSpanId flowId j) : i = j := by
  obtain ⟨⟨a⟩, x⟩ := i
  obtain ⟨⟨b⟩, y⟩ := j
  simp only at hi hj hi' hj'
  have hbits := (deriveSpanId_eq_iff flowId _ _).mp h
  simp only at hbits
  -- A word below `2 ^ m` has no bit from the `m`-th on.
  have hhigh : ∀ (z : BitVec 64) {m n : ℕ}, z.toNat < 2 ^ m → m ≤ n → z.getLsbD n = false := by
    intro z m n hz hmn
    exact Nat.testBit_lt_two_pow (lt_of_lt_of_le hz (Nat.pow_le_pow_right (by decide) hmn))
  have hid : ∀ {c : ℕ}, c < 2 ^ 43 → (BitVec.ofNat 64 c).toNat < 2 ^ 43 := by
    intro c hc
    rw [BitVec.toNat_ofNat]
    exact lt_of_le_of_lt (Nat.mod_le _ _) hc
  have hbit : ∀ n < 64, (x ^^^ y).getLsbD n =
      ((BitVec.ofNat 64 a ^^^ BitVec.ofNat 64 b).rotateLeft 21).getLsbD n := by
    intro n _
    rw [hbits]
  have hcomponents : BitVec.ofNat 64 a = BitVec.ofNat 64 b := by
    apply BitVec.eq_of_getLsbD_eq
    intro n hn
    by_cases hlt : n < 43
    · have hn' := hbit (21 + n) (by omega)
      rw [BitVec.getLsbD_xor, hhigh x hi (by omega), hhigh y hj (by omega),
        BitVec.getLsbD_rotateLeft_of_le (by decide), decide_eq_false (by omega),
        decide_eq_true (by omega), Nat.add_sub_cancel_left, BitVec.getLsbD_xor] at hn'
      simpa using hn'
    · rw [hhigh _ (hid hi') (Nat.le_of_not_lt hlt), hhigh _ (hid hj') (Nat.le_of_not_lt hlt)]
  have hsequences : x = y := by
    apply BitVec.xor_eq_zero_iff.mp
    rw [hbits, hcomponents, BitVec.xor_self]
    decide
  have hab : a = b := by
    have hnat := congrArg BitVec.toNat hcomponents
    rwa [BitVec.toNat_ofNat, BitVec.toNat_ofNat, Nat.mod_eq_of_lt (by omega),
      Nat.mod_eq_of_lt (by omega)] at hnat
  rw [hsequences, hab]

/-! ## The ring buffer -/

/-- A span, as the buffer holds it. -/
structure CompactSpanRecord where
  spanId : SpanId
  parentSpanId : SpanId
  componentId : ComponentId
  startNs : ℕ
  endNs : ℕ
  statusCode : ℕ
  elementSequence : BitVec 64
  deriving DecidableEq, Repr

/-- The invocation that a span describes. -/
def CompactSpanRecord.invocation (r : CompactSpanRecord) : Invocation :=
  ⟨r.componentId, r.elementSequence⟩

/-- `CompactSpanRecord::zeroed`. -/
def CompactSpanRecord.zeroed : CompactSpanRecord :=
  ⟨⟨List.replicate 8 0⟩, ⟨List.replicate 8 0⟩, ⟨0⟩, 0, 0, 0, 0⟩

/-- A capacity that the configuration accepts. -/
abbrev RingCapacity := { n : ℕ // 8 ≤ n ∧ ∃ k, n = 2 ^ k }

/-- The buffer. -/
structure SpanRingBuffer where
  slots : List CompactSpanRecord
  writePos : ℕ
  isPowerOfTwo : ∃ k, slots.length = 2 ^ k

namespace SpanRingBuffer

/-- `SpanRingBuffer::new`. -/
def new (capacity : RingCapacity) : SpanRingBuffer where
  slots := List.replicate capacity .zeroed
  writePos := 0
  isPowerOfTwo := by
    rw [List.length_replicate]
    exact capacity.2.2

def mask (b : SpanRingBuffer) : ℕ := b.slots.length - 1

/-- `SpanRingBuffer::push`. -/
def push (b : SpanRingBuffer) (record : CompactSpanRecord) : SpanRingBuffer where
  slots := b.slots.set (b.writePos &&& b.mask) record
  writePos := (b.writePos + 1) % 2 ^ 64
  isPowerOfTwo := by
    rw [List.length_set]
    exact b.isPowerOfTwo

/-- The records, oldest first. -/
def records (b : SpanRingBuffer) : List CompactSpanRecord :=
  if b.writePos ≤ b.slots.length then b.slots.take b.writePos
  else b.slots.rotate (b.writePos &&& b.mask)

/-- `SpanRingBuffer::drain`. -/
def drain (b : SpanRingBuffer) : SpanRingBuffer × List CompactSpanRecord :=
  ({ b with writePos := 0 }, b.records)

/-- Every record that has been written has a property. -/
def Holds (R : CompactSpanRecord → Prop) (b : SpanRingBuffer) : Prop :=
  ∀ i r, i < b.writePos → b.slots[i]? = some r → R r

variable {R : CompactSpanRecord → Prop} {b : SpanRingBuffer}

/-- Only what has been written is drained. -/
theorem Holds.records (h : b.Holds R) : ∀ r ∈ b.records, R r := by
  intro r hr
  rw [SpanRingBuffer.records] at hr
  split at hr
  · obtain ⟨i, hi⟩ := List.mem_iff_getElem?.mp hr
    rw [List.getElem?_take] at hi
    split at hi
    · exact h i r ‹_› hi
    · cases hi
  · rw [List.mem_rotate] at hr
    obtain ⟨i, hi⟩ := List.mem_iff_getElem?.mp hr
    have hlt : i < b.slots.length := (List.getElem?_eq_some_iff.mp hi).1
    exact h i r (by omega) hi

/-- A push adds its record.  The slot it writes is the next one, as long as there is one. -/
theorem Holds.push (h : b.Holds R) {record : CompactSpanRecord} (hrecord : R record) :
    (b.push record).Holds R := by
  intro i r hi hr
  have hlt : i < b.writePos + 1 := lt_of_lt_of_le hi (Nat.mod_le _ _)
  rw [SpanRingBuffer.push, List.getElem?_set] at hr
  split at hr
  · split at hr
    · cases hr
      exact hrecord
    · cases hr
  · rename_i hne
    obtain ⟨k, hk⟩ := b.isPowerOfTwo
    have hlength : i < b.slots.length := (List.getElem?_eq_some_iff.mp hr).1
    apply h i r _ hr
    by_contra hge
    have hi : b.writePos = i := by omega
    rw [mask, hk, Nat.and_two_pow_sub_one_eq_mod, ← hk, hi, Nat.mod_eq_of_lt hlength] at hne
    exact hne rfl

end SpanRingBuffer

/-! ## The collector -/

/-- `ObservabilityLevel`. -/
inductive ObservabilityLevel where
  | off
  | production
  | diagnostic
  deriving DecidableEq, Repr

/-- What a flow's tracing reads of its context: the root span and whether head sampling has
selected the flow. -/
structure FlowTraceContext where
  spanId : SpanId
  sampled : Bool
  deriving DecidableEq, Repr

/-- A flow's tracing state. -/
structure FlowTraceState where
  context : FlowTraceContext
  spans : SpanRingBuffer

/-- The collector, as far as it traces.  A flow's metrics come and go with its trace state. -/
structure ObservabilityCollector where
  level : ObservabilityLevel
  capacity : RingCapacity
  traces : KeyMap FlowId FlowTraceState
  spansDropped : ℕ

/-- `status_code`. -/
def statusCode : InvocationStatus → ℕ
  | .ok => 0
  | .error _ => 1
  | .timeout => 2
  | .cancelled => 3

/-- A call of `record_element_span`. -/
structure ElementSpan where
  flowId : FlowId
  invocation : Invocation
  startNs : ℕ
  endNs : ℕ
  status : InvocationStatus

/-- The record of a span. -/
def ElementSpan.record (e : ElementSpan) (context : FlowTraceContext) : CompactSpanRecord where
  spanId := deriveSpanId e.flowId e.invocation
  parentSpanId := context.spanId
  componentId := e.invocation.componentId
  startNs := e.startNs
  endNs := e.endNs
  statusCode := statusCode e.status
  elementSequence := e.invocation.elementSequence

namespace ObservabilityCollector

/-- A collector without flows. -/
def new (level : ObservabilityLevel) (capacity : RingCapacity) : ObservabilityCollector :=
  ⟨level, capacity, ∅, 0⟩

/-- `register_flow_state`: a flow that is registered keeps its state. -/
def onFlowStart (s : ObservabilityCollector) (flowId : FlowId) (context : FlowTraceContext) :
    ObservabilityCollector :=
  if flowId ∈ s.traces then s
  else { s with traces := s.traces.insert flowId ⟨context, .new s.capacity⟩ }

/-- `record_element_span`. -/
def recordElementSpan (s : ObservabilityCollector) (e : ElementSpan) : ObservabilityCollector :=
  if s.level ≠ .diagnostic then s
  else
    match s.traces.lookup e.flowId with
    | none => { s with spansDropped := s.spansDropped + 1 }
    | some state =>
        if state.context.sampled = false then s
        else
          let state := { state with spans := state.spans.push (e.record state.context) }
          { s with traces := s.traces.insert e.flowId state }

/-- `drain_flow_spans`. -/
def drainFlowSpans (s : ObservabilityCollector) (flowId : FlowId) :
    ObservabilityCollector × List CompactSpanRecord :=
  match s.traces.lookup flowId with
  | none => (s, [])
  | some state =>
      let (spans, records) := state.spans.drain
      ({ s with traces := s.traces.insert flowId { state with spans := spans } }, records)

/-- What is asked of a collector. -/
inductive Action where
  | setLevel (level : ObservabilityLevel)
  | onFlowStart (flowId : FlowId) (context : FlowTraceContext)
  | deregisterFlow (flowId : FlowId)
  | recordElementSpan (e : ElementSpan)
  | drainFlowSpans (flowId : FlowId)

/-- One action. -/
def step (s : ObservabilityCollector) : Action → ObservabilityCollector
  | .setLevel level => { s with level := level }
  | .onFlowStart flowId context => s.onFlowStart flowId context
  | .deregisterFlow flowId => { s with traces := s.traces.erase flowId }
  | .recordElementSpan e => s.recordElementSpan e
  | .drainFlowSpans flowId => (s.drainFlowSpans flowId).1

/-- The spans of a flow that a sequence of actions exports. -/
def exported (flowId : FlowId) (s : ObservabilityCollector) : List Action → List CompactSpanRecord
  | [] => []
  | action :: actions =>
      let rest := exported flowId (s.step action) actions
      match action with
      | .drainFlowSpans drained =>
          if drained = flowId then (s.drainFlowSpans drained).2 ++ rest else rest
      | _ => rest

/-- A span of the flow would be retained. -/
def Traces (s : ObservabilityCollector) (flowId : FlowId) : Prop :=
  s.level = .diagnostic ∧ ∃ state ∈ s.traces.lookup flowId, state.context.sampled = true

instance (s : ObservabilityCollector) (flowId : FlowId) : Decidable (s.Traces flowId) :=
  inferInstanceAs (Decidable (_ ∧ _))

/-- The invocations of a flow for which a sequence of actions derives an id. -/
def traced (flowId : FlowId) (s : ObservabilityCollector) : List Action → List Invocation
  | [] => []
  | action :: actions =>
      let rest := traced flowId (s.step action) actions
      match action with
      | .recordElementSpan e =>
          if e.flowId = flowId ∧ s.Traces flowId then e.invocation :: rest else rest
      | _ => rest

/-! ## What is exported -/

variable {P : CompactSpanRecord → Prop} {flowId : FlowId} {s : ObservabilityCollector}

/-- Every span that is retained for a flow has a property. -/
def Retains (P : CompactSpanRecord → Prop) (flowId : FlowId) (s : ObservabilityCollector) : Prop :=
  ∀ state, s.traces.lookup flowId = some state → state.spans.Holds P

/-- Changing the state of a flow to one that has the property keeps it for every flow. -/
theorem Retains.insert (h : s.Retains P flowId) {other : FlowId} {state : FlowTraceState}
    (hstate : other = flowId → state.spans.Holds P) :
    ({ s with traces := s.traces.insert other state } : ObservabilityCollector).Retains P
      flowId := by
  intro state' hlookup
  by_cases heq : flowId = other
  · subst heq
    rw [AList.lookup_insert] at hlookup
    cases hlookup
    exact hstate rfl
  · rw [AList.lookup_insert_ne heq] at hlookup
    exact h state' hlookup

/-- The only spans that an action adds are those that it derives. -/
theorem Retains.step (h : s.Retains P flowId) (action : Action)
    (hrecord : ∀ e context, action = .recordElementSpan e → e.flowId = flowId →
      s.Traces flowId → P (e.record context)) : (s.step action).Retains P flowId := by
  cases action with
  | setLevel level => exact h
  | onFlowStart other context =>
    simp only [ObservabilityCollector.step, onFlowStart]
    split
    · exact h
    · apply h.insert
      rintro - i r hi
      exact absurd hi (Nat.not_lt_zero i)
  | deregisterFlow other =>
    intro state hlookup
    by_cases heq : flowId = other
    · subst heq
      simp [ObservabilityCollector.step] at hlookup
    · simp only [ObservabilityCollector.step, AList.lookup_erase_ne heq] at hlookup
      exact h state hlookup
  | recordElementSpan e =>
    simp only [ObservabilityCollector.step, recordElementSpan]
    split
    · exact h
    · rename_i hlevel
      split
      · exact h
      · rename_i state hlookup
        split
        · exact h
        · rename_i hsampled
          apply h.insert
          rintro rfl
          apply (h state hlookup).push
          apply hrecord e _ rfl rfl
          exact ⟨not_not.mp hlevel, state, hlookup, Bool.eq_true_of_not_eq_false hsampled⟩
  | drainFlowSpans other =>
    simp only [ObservabilityCollector.step, drainFlowSpans]
    split
    · exact h
    · apply h.insert
      rintro - i r hi
      exact absurd hi (Nat.not_lt_zero i)

/-- What a run exports of a flow has every property of the spans that were retained at its
start and of those that it derives. -/
theorem Retains.exported (h : s.Retains P flowId) (actions : List Action)
    (htraced : ∀ (e : ElementSpan) context, e.flowId = flowId →
      e.invocation ∈ traced flowId s actions → P (e.record context)) : ∀ r ∈ exported flowId s actions, P r := by
  induction actions generalizing s with
  | nil => exact fun r hr => absurd hr List.not_mem_nil
  | cons action actions ih =>
    have hstep : (s.step action).Retains P flowId := by
      apply h.step action
      rintro e context rfl hflow htraces
      apply htraced e context hflow
      rw [traced, if_pos ⟨hflow, htraces⟩]
      exact List.mem_cons_self
    have hrest : ∀ r ∈ ObservabilityCollector.exported flowId (s.step action) actions, P r := by
      apply ih hstep
      intro e context hflow hmem
      apply htraced e context hflow
      cases action with
      | recordElementSpan e' =>
        rw [traced]
        split
        · exact List.mem_cons_of_mem _ hmem
        · exact hmem
      | _ => exact hmem
    cases action with
    | drainFlowSpans drained =>
      rw [ObservabilityCollector.exported]
      split
      · rename_i heq
        subst heq
        intro r hr
        obtain hr | hr := List.mem_append.mp hr
        · rw [drainFlowSpans] at hr
          split at hr
          · cases hr
          · exact (h _ ‹_›).records r hr
        · exact hrest r hr
      · exact hrest
    | _ => exact hrest

/-- The ids of the invocations are valid and tell them apart. -/
def Identifies (flowId : FlowId) (invocations : List Invocation) : Prop :=
  (∀ i ∈ invocations, (deriveSpanId flowId i).isValid) ∧
    ∀ i ∈ invocations, ∀ j ∈ invocations, i ≠ j → deriveSpanId flowId i ≠ deriveSpanId flowId j

/-- No invocation has the key that mixes to zero, and no two of them differ in their sequences
exactly where they differ in their rotated component ids. -/
def KeysApart (flowId : FlowId) (invocations : List Invocation) : Prop :=
  (∀ i ∈ invocations, spanKey flowId i ≠ zeroKey) ∧
    ∀ i ∈ invocations, ∀ j ∈ invocations, i ≠ j → i.elementSequence ^^^ j.elementSequence ≠
      (BitVec.ofNat 64 i.componentId.id ^^^ BitVec.ofNat 64 j.componentId.id).rotateLeft 21

theorem identifies_iff (flowId : FlowId) (invocations : List Invocation) :
    Identifies flowId invocations ↔ KeysApart flowId invocations := by
  simp only [Identifies, KeysApart, isValid_deriveSpanId, ne_eq, deriveSpanId_eq_iff]

/-- **When span ids identify spans.**  In a run of the collector, the ids that it derives for a
flow are valid and distinct exactly when the keys of the invocations are apart; and then no two
spans in what it exports of the flow share an id unless they describe one invocation. -/
theorem spans_identified_iff (level : ObservabilityLevel) (capacity : RingCapacity)
    (flowId : FlowId) (actions : List Action) :
    (Identifies flowId (traced flowId (new level capacity) actions) ↔
      KeysApart flowId (traced flowId (new level capacity) actions)) ∧
    (KeysApart flowId (traced flowId (new level capacity) actions) →
      ∀ r ∈ exported flowId (new level capacity) actions, r.spanId.isValid ∧
        ∀ r' ∈ exported flowId (new level capacity) actions,
          r.spanId = r'.spanId → r.invocation = r'.invocation) := by
  refine ⟨identifies_iff _ _, fun hkeys => ?_⟩
  obtain ⟨hvalid, hdistinct⟩ := (identifies_iff _ _).mpr hkeys
  have hexported : ∀ r ∈ exported flowId (new level capacity) actions,
      r.spanId = deriveSpanId flowId r.invocation ∧
        r.invocation ∈ traced flowId (new level capacity) actions := by
    apply Retains.exported
    · intro state hlookup
      cases hlookup
    · rintro e context rfl hmem
      exact ⟨rfl, hmem⟩
  intro r hr
  obtain ⟨hid, hmem⟩ := hexported r hr
  refine ⟨?_, ?_⟩
  · rw [hid]
    exact hvalid _ hmem
  · intro r' hr' heq
    obtain ⟨hid', hmem'⟩ := hexported r' hr'
    by_contra hne
    apply hdistinct _ hmem _ hmem' hne
    rw [← hid, ← hid', heq]

/-- The spans of a flow: component 2 on its first element, component 3 on a much later one. -/
def laterElement : List Action :=
  [.onFlowStart ⟨1⟩ ⟨⟨List.replicate 8 1⟩, true⟩,
    .recordElementSpan ⟨⟨1⟩, ⟨⟨2⟩, 0⟩, 0, 0, .ok⟩, .drainFlowSpans ⟨1⟩,
    .recordElementSpan ⟨⟨1⟩, ⟨⟨3⟩, 2097152⟩, 0, 0, .ok⟩, .drainFlowSpans ⟨1⟩]

/-- Two spans of different invocations are exported under one id: the rotated component ids
differ in bit 21 alone, and so do the sequences. -/
theorem spans_of_different_components_share_id :
    (exported ⟨1⟩ (new .diagnostic ⟨8, le_rfl, 3, rfl⟩) laterElement).map
        CompactSpanRecord.invocation = [⟨⟨2⟩, 0⟩, ⟨⟨3⟩, 2097152⟩] ∧
      (exported ⟨1⟩ (new .diagnostic ⟨8, le_rfl, 3, rfl⟩) laterElement).map
        CompactSpanRecord.spanId = List.replicate 2 (deriveSpanId ⟨1⟩ ⟨⟨2⟩, 0⟩) ∧
      ¬ Identifies ⟨1⟩ (traced ⟨1⟩ (new .diagnostic ⟨8, le_rfl, 3, rfl⟩) laterElement) := by
  refine ⟨by decide, by decide, fun h => ?_⟩
  have htraced : traced ⟨1⟩ (new .diagnostic ⟨8, le_rfl, 3, rfl⟩) laterElement =
      [⟨⟨2⟩, 0⟩, ⟨⟨3⟩, 2097152⟩] := by decide
  have hdistinct := h.2 ⟨⟨2⟩, 0⟩ (by simp [htraced]) ⟨⟨3⟩, 2097152⟩ (by simp [htraced])
    (by decide)
  exact hdistinct (by decide)

end ObservabilityCollector

end Torvyn.Observability
