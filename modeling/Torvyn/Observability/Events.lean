/-
# Diagnostic events

The events that a collector is given go through a bounded channel to the recorder task, which keeps
the last of them in a buffer (`events/recorder.rs`, `emit_event` of `collector.rs`).  An emitter
never waits: what the channel has no room for is dropped, and counted a moment later.  In whatever
order the emitters and the recorder come, an event is recorded, under way or dropped, the order is
kept, and the buffer has the last of the recorded ones (`events_accounted`).
-/
import Torvyn.Data.GuardedRun
import Torvyn.Data.RingBuffer
import Torvyn.Types

namespace Torvyn.Observability

open RingBuffer

/-- A diagnostic event: the flow that it belongs to, and everything else. -/
structure DiagnosticEvent (Payload : Type) where
  flowId : Option FlowId
  payload : Payload

/-! ## The buffer -/

structure EventBuffer (Payload : Type) where
  events : List (DiagnosticEvent Payload)
  capacity : ℕ

namespace EventBuffer

variable {Payload : Type}

/-- `EventBuffer::new`. -/
def new (capacity : ℕ) : EventBuffer Payload := ⟨[], capacity⟩

/-- `EventBuffer::push`. -/
def push (b : EventBuffer Payload) (event : DiagnosticEvent Payload) : EventBuffer Payload :=
  let events := if b.capacity ≤ b.events.length then b.events.tail else b.events
  { b with events := events ++ [event] }

/-- `EventBuffer::recent`. -/
def recent (b : EventBuffer Payload) (count : ℕ) : List (DiagnosticEvent Payload) :=
  b.events.reverse.take count

/-- `EventBuffer::for_flow`. -/
def forFlow (b : EventBuffer Payload) (flowId : FlowId) : List (DiagnosticEvent Payload) :=
  b.events.filter fun event => event.flowId = some flowId

end EventBuffer

/-! ## The way of an event -/

/-- The channel, the recorder task and the buffer.  A sender whose `try_send` has failed counts
that afterwards. -/
structure EventPipeline (Payload : Type) where
  channel : List (DiagnosticEvent Payload)
  channelCapacity : ℕ
  inHand : Option (DiagnosticEvent Payload)
  buffer : EventBuffer Payload
  uncounted : ℕ
  eventsDropped : ℕ

namespace EventPipeline

variable {Payload : Type}

/-- The part of `ObservabilityCollector::new` that is about events. -/
def new (eventChannelCapacity : ℕ) : EventPipeline Payload :=
  ⟨[], eventChannelCapacity, none, .new eventChannelCapacity, 0, 0⟩

inductive Action (Payload : Type) where
  | emit (event : DiagnosticEvent Payload)
  | countDropped
  | receive
  | record

/-- The channel has no room for what is emitted. -/
def refuses (s : EventPipeline Payload) : Action Payload → Bool
  | .emit _ => s.channelCapacity ≤ s.channel.length
  | _ => false

/-- One step of an emitter or of the recorder.  Where the recorder would wait, nothing happens. -/
def step (s : EventPipeline Payload) : Action Payload → EventPipeline Payload
  | .emit event =>
      if s.refuses (.emit event) then { s with uncounted := s.uncounted + 1 }
      else { s with channel := s.channel ++ [event] }
  | .countDropped =>
      if s.uncounted = 0 then s
      else { s with
        uncounted := s.uncounted - 1
        eventsDropped := (s.eventsDropped + 1) % 2 ^ 64 }
  | .receive =>
      match s.inHand, s.channel with
      | none, event :: channel => { s with channel := channel, inHand := some event }
      | _, _ => s
  | .record =>
      match s.inHand with
      | some event => { s with inHand := none, buffer := s.buffer.push event }
      | none => s

/-- A run. -/
def after (s : EventPipeline Payload) (actions : List (Action Payload)) : EventPipeline Payload :=
  actions.foldl step s

def emitted? : Action Payload → Option (DiagnosticEvent Payload)
  | .emit event => some event
  | _ => none

/-- What has been emitted. -/
def emitted (actions : List (Action Payload)) : List (DiagnosticEvent Payload) :=
  actions.filterMap emitted?

/-- How many events a run has refused. -/
def refused (s : EventPipeline Payload) (actions : List (Action Payload)) : ℕ :=
  countSteps step refuses s actions

/-- The recorder takes some turns, and nothing is emitted meanwhile. -/
def recorderTurns (n : ℕ) : List (Action Payload) := (List.replicate n [.receive, .record]).flatten

end EventPipeline

/-! ## The buffer holds the last events -/

section Buffer

variable {Payload : Type} {b : EventBuffer Payload} {recorded : List (DiagnosticEvent Payload)}

/-- These events have been recorded.  The buffer has room for one event at least. -/
def EventBuffer.Holds (b : EventBuffer Payload) (recorded : List (DiagnosticEvent Payload)) :
    Prop := b.events = lastOf (max 1 b.capacity) recorded

theorem EventBuffer.Holds.push (h : b.Holds recorded) (event : DiagnosticEvent Payload) :
    (b.push event).Holds (recorded ++ [event]) := by
  unfold Holds lastOf at h ⊢
  have hlength : b.events.length = min recorded.length (max 1 b.capacity) := by
    rw [h, List.length_drop]
    omega
  show (if b.capacity ≤ b.events.length then b.events.tail else b.events) ++ [event] =
    (recorded ++ [event]).drop _
  rw [List.length_append, List.length_singleton, List.drop_append_of_le_length (by omega)]
  congr 1
  split_ifs with hfull
  · by_cases hshort : recorded.length < max 1 b.capacity
    · -- a buffer without room has had nothing to drop
      have hnil : recorded = [] := by
        apply List.eq_nil_of_length_eq_zero
        omega
      rw [h, hnil]
      simp
    · rw [h, List.tail_drop]
      congr 1
      show _ = recorded.length + 1 - max 1 b.capacity
      omega
  · rw [h]
    congr 1
    show _ = recorded.length + 1 - max 1 b.capacity
    omega

theorem EventBuffer.Holds.recent_eq (h : b.Holds recorded) (count : ℕ) :
    b.recent count = recorded.reverse.take (min count (max 1 b.capacity)) := by
  rw [recent, h, lastOf, ← List.take_reverse, List.take_take]

theorem EventBuffer.Holds.forFlow_suffix (h : b.Holds recorded) (flowId : FlowId) :
    b.forFlow flowId <:+ recorded.filter fun event => event.flowId = some flowId := by
  rw [forFlow, h]
  exact (List.drop_suffix _ _).filter _

end Buffer

/-! ## The account of a run -/

namespace EventPipeline

variable {Payload : Type} {s : EventPipeline Payload}
  {emits accepted recorded : List (DiagnosticEvent Payload)} {capacity drops : ℕ}

/-- What has become of the events that have been emitted. -/
structure Accounts (capacity : ℕ) (s : EventPipeline Payload)
    (emits accepted recorded : List (DiagnosticEvent Payload)) (drops : ℕ) : Prop where
  room : s.channelCapacity = capacity
  size : s.buffer.capacity = capacity
  sublist : accepted.Sublist emits
  underway : accepted = recorded ++ s.inHand.toList ++ s.channel
  held : s.buffer.Holds recorded
  fits : s.channel.length ≤ s.channelCapacity
  total : emits.length = accepted.length + drops
  uncounted_le : s.uncounted ≤ drops
  counted : s.eventsDropped = (drops - s.uncounted) % 2 ^ 64

/-- An event more has been recorded, or taken from the channel, or accepted, or refused. -/
theorem Accounts.step (h : Accounts capacity s emits accepted recorded drops)
    (action : Action Payload) :
    ∃ accepted' recorded', Accounts capacity (s.step action) (emits ++ (emitted? action).toList)
      accepted' recorded' (drops + if s.refuses action then 1 else 0) := by
  cases action with
  | emit event =>
      by_cases hfull : s.refuses (.emit event) = true
      · refine ⟨accepted, recorded, ?_⟩
        rw [if_pos hfull]
        have hstep : s.step (.emit event) = { s with uncounted := s.uncounted + 1 } := if_pos hfull
        rw [hstep]
        refine ⟨h.room, h.size, h.sublist.trans (List.sublist_append_left _ _), h.underway,
          h.held, h.fits, ?_, Nat.succ_le_succ h.uncounted_le, ?_⟩
        · have htotal := h.total
          simp only [emitted?, Option.toList_some, List.length_append, List.length_singleton]
          omega
        · show s.eventsDropped = (drops + 1 - (s.uncounted + 1)) % 2 ^ 64
          rw [Nat.add_sub_add_right]
          exact h.counted
      · refine ⟨accepted ++ [event], recorded, ?_⟩
        rw [if_neg hfull, Nat.add_zero]
        have hstep : s.step (.emit event) = { s with channel := s.channel ++ [event] } :=
          if_neg hfull
        rw [hstep]
        have hroom : s.channel.length < s.channelCapacity := by
          simpa [refuses] using hfull
        refine ⟨h.room, h.size, h.sublist.append (List.Sublist.refl _), ?_, h.held, ?_, ?_,
          h.uncounted_le, h.counted⟩
        · show accepted ++ [event] = recorded ++ s.inHand.toList ++ (s.channel ++ [event])
          rw [h.underway, List.append_assoc _ s.channel]
        · show (s.channel ++ [event]).length ≤ s.channelCapacity
          rw [List.length_append, List.length_singleton]
          exact hroom
        · have htotal := h.total
          simp only [emitted?, Option.toList_some, List.length_append, List.length_singleton]
          omega
  | countDropped =>
      refine ⟨accepted, recorded, ?_⟩
      simp only [emitted?, Option.toList_none, List.append_nil, refuses, Bool.false_eq_true,
        if_false, Nat.add_zero]
      unfold EventPipeline.step
      by_cases hnone : s.uncounted = 0
      · rw [if_pos hnone]
        exact h
      · rw [if_neg hnone]
        have hle := h.uncounted_le
        refine ⟨h.room, h.size, h.sublist, h.underway, h.held, h.fits, h.total, ?_, ?_⟩
        · show s.uncounted - 1 ≤ drops
          omega
        · show (s.eventsDropped + 1) % 2 ^ 64 = (drops - (s.uncounted - 1)) % 2 ^ 64
          rw [h.counted, Nat.mod_add_mod]
          congr 1
          omega
  | receive =>
      refine ⟨accepted, recorded, ?_⟩
      simp only [emitted?, Option.toList_none, List.append_nil, refuses, Bool.false_eq_true,
        if_false, Nat.add_zero]
      cases hhand : s.inHand with
      | some event =>
          have hstep : s.step .receive = s := by simp only [EventPipeline.step, hhand]
          rw [hstep]
          exact h
      | none =>
          cases hchannel : s.channel with
          | nil =>
              have hstep : s.step .receive = s := by
                simp only [EventPipeline.step, hhand, hchannel]
              rw [hstep]
              exact h
          | cons event channel =>
              have hstep : s.step .receive = { s with channel := channel, inHand := some event } :=
                by simp only [EventPipeline.step, hhand, hchannel]
              rw [hstep]
              have hunderway := h.underway
              have hfits := h.fits
              rw [hhand, hchannel] at hunderway
              rw [hchannel] at hfits
              refine ⟨h.room, h.size, h.sublist, ?_, h.held, (Nat.le_succ _).trans hfits,
                h.total, h.uncounted_le, h.counted⟩
              rw [hunderway]
              simp
  | record =>
      simp only [emitted?, Option.toList_none, List.append_nil, refuses, Bool.false_eq_true,
        if_false, Nat.add_zero]
      cases hhand : s.inHand with
      | none =>
          have hstep : s.step .record = s := by simp only [EventPipeline.step, hhand]
          rw [hstep]
          exact ⟨accepted, recorded, h⟩
      | some event =>
          have hstep : s.step .record =
              { s with inHand := none, buffer := s.buffer.push event } := by
            simp only [EventPipeline.step, hhand]
          rw [hstep]
          have hunderway := h.underway
          rw [hhand] at hunderway
          refine ⟨accepted, recorded ++ [event], h.room, h.size, h.sublist, ?_, h.held.push event,
            h.fits, h.total, h.uncounted_le, h.counted⟩
          rw [hunderway]
          simp

theorem Accounts.run (h : Accounts capacity s emits accepted recorded drops)
    (actions : List (Action Payload)) :
    ∃ accepted' recorded', Accounts capacity (s.after actions) (emits ++ emitted actions) accepted'
      recorded' (drops + s.refused actions) := by
  induction actions generalizing s emits accepted recorded drops with
  | nil =>
      refine ⟨accepted, recorded, ?_⟩
      rw [emitted, List.filterMap_nil, List.append_nil]
      exact h
  | cons action actions ih =>
      obtain ⟨accepted', recorded', hstep⟩ := h.step action
      obtain ⟨accepted'', recorded'', hrun⟩ := ih hstep
      refine ⟨accepted'', recorded'', ?_⟩
      have hemits : emits ++ (emitted? action).toList ++ emitted actions =
          emits ++ emitted (action :: actions) := by
        rw [List.append_assoc, emitted, emitted]
        cases haction : emitted? action with
        | none => rw [List.filterMap_cons_none haction]; rfl
        | some event => rw [List.filterMap_cons_some haction]; rfl
      rw [hemits, Nat.add_assoc] at hrun
      exact hrun

theorem accounts_new (capacity : ℕ) :
    Accounts capacity (new capacity : EventPipeline Payload) [] [] [] 0 :=
  ⟨rfl, rfl, List.Sublist.refl _, rfl, List.drop_nil.symm, Nat.zero_le _, rfl, Nat.le_refl _,
    rfl⟩

/-! ## The recorder catches up -/

/-- What has been accepted and is not recorded yet. -/
def backlog (s : EventPipeline Payload) : List (DiagnosticEvent Payload) :=
  s.inHand.toList ++ s.channel

/-- A turn of the recorder takes the next event from the backlog to the buffer. -/
theorem turn_eq {event : DiagnosticEvent Payload} {later : List (DiagnosticEvent Payload)}
    (h : s.backlog = event :: later) : (s.step .receive).step .record =
      { s with inHand := none, channel := later, buffer := s.buffer.push event } := by
  unfold backlog at h
  cases hhand : s.inHand with
  | some inHand =>
      rw [hhand] at h
      have hcons : inHand :: s.channel = event :: later := h
      obtain ⟨rfl, rfl⟩ := List.cons.inj hcons
      simp only [EventPipeline.step, hhand]
  | none =>
      rw [hhand] at h
      have hchannel : s.channel = event :: later := h
      simp only [EventPipeline.step, hhand, hchannel]

theorem turn_of_nil (h : s.backlog = []) : (s.step .receive).step .record = s := by
  obtain ⟨hhand, hchannel⟩ := List.append_eq_nil_iff.mp h
  have hnone : s.inHand = none := by
    cases hinHand : s.inHand with
    | none => rfl
    | some event =>
        rw [hinHand] at hhand
        cases hhand
  simp only [EventPipeline.step, hnone, hchannel]

/-- Left alone, the recorder gets through the backlog. -/
theorem holds_after_turns {n : ℕ} (hheld : s.buffer.Holds recorded) (hn : s.backlog.length ≤ n) :
    (s.after (recorderTurns n)).buffer.Holds (recorded ++ s.backlog) := by
  induction n generalizing s recorded with
  | zero =>
      rw [List.eq_nil_of_length_eq_zero (Nat.le_zero.mp hn), List.append_nil]
      exact hheld
  | succ n ih =>
      have hturn : s.after (recorderTurns (n + 1)) =
          ((s.step .receive).step .record).after (recorderTurns n) := by
        rw [recorderTurns, List.replicate_succ, List.flatten_cons]
        rfl
      rw [hturn]
      cases hbacklog : s.backlog with
      | nil =>
          rw [turn_of_nil hbacklog]
          have hrest := ih hheld (by rw [hbacklog]; exact Nat.zero_le n)
          rwa [hbacklog] at hrest
      | cons event later =>
          rw [turn_eq hbacklog]
          rw [hbacklog, List.length_cons] at hn
          have hrest := ih (s := { s with
            inHand := none
            channel := later
            buffer := s.buffer.push event }) (hheld.push event) (Nat.le_of_succ_le_succ hn)
          rwa [List.append_assoc] at hrest

/-- **Every event is accounted for**, in every order of steps.  The accepted events are those
recorded and those under way, in the order in which they were emitted; every other one is a drop,
counted or about to be; none is dropped exactly if there was always room; and the buffer has the
last of what has been recorded, and of all that has been accepted when the recorder has caught
up. -/
theorem events_accounted (capacity : ℕ) (actions : List (Action Payload)) :
    let start : EventPipeline Payload := new capacity
    let s := start.after actions
    let drops := start.refused actions
    ∃ accepted recorded, accepted.Sublist (emitted actions) ∧ accepted = recorded ++ s.backlog ∧
      accepted.length + drops = (emitted actions).length ∧
      (accepted = emitted actions ↔
        Guarded step (fun s action => s.refuses action = false) start actions) ∧
      s.channel.length ≤ capacity ∧
      s.uncounted ≤ drops ∧ s.eventsDropped = (drops - s.uncounted) % 2 ^ 64 ∧
      (∀ count, s.buffer.recent count = recorded.reverse.take (min count (max 1 capacity))) ∧
      (∀ flowId, s.buffer.forFlow flowId <:+
        recorded.filter fun event => event.flowId = some flowId) ∧
      ∀ n, capacity < n →
        (s.after (recorderTurns n)).buffer.events = lastOf (max 1 capacity) accepted := by
  intro start s drops
  obtain ⟨accepted, recorded, h⟩ := (accounts_new capacity).run actions
  rw [List.nil_append, Nat.zero_add] at h
  have hunderway : accepted = recorded ++ s.backlog := by
    rw [h.underway, List.append_assoc]
    rfl
  refine ⟨accepted, recorded, h.sublist, hunderway, h.total.symm, ?_, ?_, h.uncounted_le,
    h.counted, ?_, fun flowId => h.held.forFlow_suffix flowId, ?_⟩
  · have hnone : accepted = emitted actions ↔ drops = 0 := by
      constructor
      · intro hall
        have htotal : (emitted actions).length = accepted.length + drops := h.total
        rw [hall] at htotal
        omega
      · intro hzero
        apply h.sublist.eq_of_length
        rw [h.total, show start.refused actions = 0 from hzero, Nat.add_zero]
    rw [hnone]
    exact countSteps_eq_zero_iff
  · exact h.fits.trans (Nat.le_of_eq h.room)
  · intro count
    rw [← h.size]
    exact h.held.recent_eq count
  · intro n hn
    have hbacklog : s.backlog.length ≤ n := by
      have hfits : s.channel.length ≤ capacity := h.fits.trans (Nat.le_of_eq h.room)
      have hhand : s.inHand.toList.length ≤ 1 := by
        cases s.inHand with
        | none => exact Nat.zero_le 1
        | some event => exact Nat.le_refl 1
      rw [backlog, List.length_append]
      omega
    obtain ⟨_, _, hlater⟩ := h.run (recorderTurns n)
    have hturns := holds_after_turns h.held hbacklog
    rw [EventBuffer.Holds, hlater.size] at hturns
    rw [hunderway]
    exact hturns

end EventPipeline

end Torvyn.Observability
