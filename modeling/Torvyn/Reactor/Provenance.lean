/-
# Where elements come from

The log of a flow tells which element was handed to which component and what was pushed during
that call, and so from which source element each element is derived.  The reactor keeps the
origin in the element itself: its sequence number is fresh, and its origin sequence and its
timestamp are those of the source element, through any number of stages, and on every span.
-/
import Torvyn.Reactor.Record

namespace Torvyn.Reactor

/-! ## Reading the log -/

/-- The call of a component that is in progress after an event. -/
def FlowEvent.during (current : Option Invocation) : FlowEvent → Option Invocation
  | .invoked _ (.notifyBackpressure _) => none
  | .invoked _ call => some call
  | _ => current

/-- The call in progress after a log. -/
def callAfter (current : Option Invocation) (log : List FlowEvent) : Option Invocation :=
  log.foldl FlowEvent.during current

/-- The events of a log, each with the call during which it happened. -/
def attributed : Option Invocation → List FlowEvent → List (Option Invocation × FlowEvent)
  | _, [] => []
  | current, ev :: log => (ev.during current, ev) :: attributed (ev.during current) log

theorem attributed_append (current : Option Invocation) (log more : List FlowEvent) :
    attributed current (log ++ more) =
      attributed current log ++ attributed (callAfter current log) more := by
  induction log generalizing current with
  | nil => rfl
  | cons ev log ih => exact congrArg (_ :: ·) (ih _)

theorem mem_of_mem_attributed {current call : Option Invocation} {ev : FlowEvent}
    {log : List FlowEvent} (h : (call, ev) ∈ attributed current log) : ev ∈ log := by
  induction log generalizing current with
  | nil => cases h
  | cons ev' log ih =>
      rcases List.mem_cons.mp h with heq | hmem
      · rw [(Prod.mk.inj heq).2]
        exact List.mem_cons_self
      · exact List.mem_cons_of_mem _ (ih hmem)

theorem exists_mem_attributed (current : Option Invocation) {ev : FlowEvent}
    {log : List FlowEvent} (h : ev ∈ log) : ∃ call, (call, ev) ∈ attributed current log := by
  induction log generalizing current with
  | nil => cases h
  | cons ev' log ih =>
      rcases List.mem_cons.mp h with rfl | hmem
      · exact ⟨_, List.mem_cons_self⟩
      · obtain ⟨call, hcall⟩ := ih (ev'.during current) hmem
        exact ⟨call, List.mem_cons_of_mem _ hcall⟩

/-- The element of a push. -/
def FlowEvent.pushed? : FlowEvent → Option StreamElementRef
  | .pushed _ elem _ => some elem
  | _ => none

/-- The elements that have been pushed, onto whatever stream, accepted or not. -/
def pushes (log : List FlowEvent) : List StreamElementRef := log.filterMap FlowEvent.pushed?

/-- The element of an accepted push onto a stream. -/
def FlowEvent.enqueued? (id : StreamId) : FlowEvent → Option StreamElementRef
  | .pushed id' elem .ok => if id' = id then some elem else none
  | _ => none

/-- The elements that have been enqueued on a stream, in order. -/
def enqueued (id : StreamId) (log : List FlowEvent) : List StreamElementRef :=
  log.filterMap (FlowEvent.enqueued? id)

theorem mem_pushes {log : List FlowEvent} {elem : StreamElementRef} :
    elem ∈ pushes log ↔ ∃ id result, .pushed id elem result ∈ log := by
  rw [pushes, List.mem_filterMap]
  constructor
  · rintro ⟨ev, hev, heq⟩
    cases ev with
    | pushed id elem' result =>
        obtain rfl := Option.some.inj heq
        exact ⟨id, result, hev⟩
    | _ => cases heq
  · rintro ⟨id, result, hev⟩
    exact ⟨_, hev, rfl⟩

theorem mem_enqueued {log : List FlowEvent} {id : StreamId} {elem : StreamElementRef} :
    elem ∈ enqueued id log ↔ .pushed id elem .ok ∈ log := by
  rw [enqueued, List.mem_filterMap]
  constructor
  · rintro ⟨ev, hev, heq⟩
    unfold FlowEvent.enqueued? at heq
    split at heq
    · split_ifs at heq with hid
      obtain rfl := Option.some.inj heq
      rw [← hid]
      exact hev
    · cases heq
  · intro hev
    exact ⟨_, hev, if_pos rfl⟩

/-- What has been enqueued on a stream has been pushed, in the same order. -/
theorem enqueued_sublist (id : StreamId) (log : List FlowEvent) :
    (enqueued id log).Sublist (pushes log) := by
  induction log with
  | nil => exact List.Sublist.refl _
  | cons ev log ih =>
      have hpush : ∀ elem, ev.enqueued? id = some elem → ev.pushed? = some elem := by
        intro elem heq
        unfold FlowEvent.enqueued? at heq
        split at heq
        · split_ifs at heq
          exact heq
        · cases heq
      rw [enqueued, pushes, List.filterMap_cons, List.filterMap_cons]
      cases henq : ev.enqueued? id with
      | some elem =>
          rw [hpush elem henq]
          exact ih.cons_cons elem
      | none =>
          cases ev.pushed? with
          | some elem => exact ih.cons elem
          | none => exact ih

/-! ## Derivation -/

/-- The element that a call is about: the one that has been pulled, or the one that the
component has been handed. -/
def Handled (log : List FlowEvent) : Option Invocation → StreamElementRef → Prop
  | some (.pull answer), elem =>
      ∃ id result, (some (.pull answer), .pushed id elem result) ∈ attributed none log
  | some (.process input _), elem | some (.push input _), elem =>
      (∃ id, elem ∈ enqueued id log) ∧ elem.toStreamElement = input
  | _, _ => False

/-- An element is derived from itself if it has been pulled, and from what its input is derived
from if it is the answer of a component. -/
inductive DerivedFrom (log : List FlowEvent) : StreamElementRef → StreamElementRef → Prop
  | pulled {answer : Answer (Option OutputElement)} {elem : StreamElementRef} :
      Handled log (some (.pull answer)) elem → DerivedFrom log elem elem
  | answered {input : StreamElement} {answer : Answer ProcessResult} {id : StreamId}
      {elem parent root : StreamElementRef} {result : PushResult StreamElementRef} :
      (some (.process input answer), .pushed id elem result) ∈ attributed none log →
      Handled log (some (.process input answer)) parent →
      DerivedFrom log parent root → DerivedFrom log elem root

/-- What holds of the elements of a flow, by its log. -/
structure Provenance (d : FlowDriver) : Prop where
  /-- on every stream the sequence numbers increase -/
  increasing : ∀ id, ((enqueued id d.events).map (·.sequence)).Pairwise (· < ·)
  /-- what is queued has been enqueued, and components are handed what has been enqueued -/
  queued : ∀ s ∈ d.streams, ∀ elem ∈ s.queue.contents, elem ∈ enqueued s.id d.events
  processed : ∀ component input answer, .invoked component (.process input answer) ∈ d.events →
    ∃ elem, Handled d.events (some (.process input answer)) elem
  consumed : ∀ component input answer, .invoked component (.push input answer) ∈ d.events →
    ∃ elem, Handled d.events (some (.push input answer)) elem
  /-- every element is derived from a source element, and carries its origin and timestamp -/
  derived : ∀ elem ∈ pushes d.events, ∃ root, DerivedFrom d.events elem root
  origin : ∀ elem root, DerivedFrom d.events elem root →
    elem.originSequence = root.sequence ∧ elem.metadata.timestampNs = root.metadata.timestampNs
  /-- a span names the origin of the element that its invocation was about, whatever became of
  the invocation -/
  spans : ∀ call component seq startNs endNs status,
    (call, .recordElementSpan component seq startNs endNs status) ∈ attributed none d.events →
    ∃ elem root, Handled d.events call elem ∧ DerivedFrom d.events elem root ∧ seq = root.sequence

/-! ## The invariant of the log -/

/-- A call hands its component an element that has been enqueued, if it hands it one. -/
def HandsInput (log : List FlowEvent) : Invocation → Prop
  | .process input answer => ∃ elem, Handled log (some (.process input answer)) elem
  | .push input answer => ∃ elem, Handled log (some (.push input answer)) elem
  | _ => True

/-- An element that is pushed during a call continues what the call is about. -/
def Continues (log : List FlowEvent) : Option Invocation → StreamElementRef → Prop
  | some (.pull _), elem => elem.originSequence = elem.sequence
  | some (.process input answer), elem =>
      ∃ parent, Handled log (some (.process input answer)) parent ∧
        parent.sequence < elem.sequence ∧ elem.originSequence = parent.originSequence ∧
        elem.metadata.timestampNs = parent.metadata.timestampNs
  | _, _ => False

/-- What holds of a log, when `next` is the next sequence number. -/
structure TracedLog (log : List FlowEvent) (next : ℕ) : Prop where
  increasing : ((pushes log).map (·.sequence)).Pairwise (· < ·)
  below : ∀ elem ∈ pushes log, elem.sequence < next
  stamped : ∀ elem ∈ pushes log, elem.metadata.sequence = elem.sequence
  inputs : ∀ component call, .invoked component call ∈ log → HandsInput log call
  pushed : ∀ call id elem result, (call, .pushed id elem result) ∈ attributed none log →
    Continues log call elem
  spans : ∀ call component seq startNs endNs status,
    (call, .recordElementSpan component seq startNs endNs status) ∈ attributed none log →
    ∃ elem, Handled log call elem ∧ seq = elem.originSequence

section Log

variable {log more : List FlowEvent} {call : Option Invocation} {elem : StreamElementRef}

theorem enqueued_append (id : StreamId) (log more : List FlowEvent) :
    enqueued id (log ++ more) = enqueued id log ++ enqueued id more := List.filterMap_append

/-- What has been handled stays handled when the log grows. -/
theorem Handled.append (h : Handled log call elem) (more : List FlowEvent) :
    Handled (log ++ more) call elem := by
  have hmono : ∀ id, elem ∈ enqueued id log → elem ∈ enqueued id (log ++ more) := by
    intro id hmem
    rw [enqueued_append]
    exact List.mem_append_left _ hmem
  unfold Handled at h ⊢
  split at h
  · obtain ⟨id, result, hmem⟩ := h
    refine ⟨id, result, ?_⟩
    rw [attributed_append]
    exact List.mem_append_left _ hmem
  · obtain ⟨⟨id, hmem⟩, heq⟩ := h
    exact ⟨⟨id, hmono id hmem⟩, heq⟩
  · obtain ⟨⟨id, hmem⟩, heq⟩ := h
    exact ⟨⟨id, hmono id hmem⟩, heq⟩
  · exact h

theorem Handled.mem_pushes (h : Handled log call elem) : elem ∈ pushes log := by
  unfold Handled at h
  split at h
  · obtain ⟨id, result, hmem⟩ := h
    exact Reactor.mem_pushes.mpr ⟨id, result, mem_of_mem_attributed hmem⟩
  · obtain ⟨⟨id, hmem⟩, -⟩ := h
    exact (enqueued_sublist id log).subset hmem
  · obtain ⟨⟨id, hmem⟩, -⟩ := h
    exact (enqueued_sublist id log).subset hmem
  · exact absurd h id

theorem HandsInput.append {call : Invocation} (h : HandsInput log call) (more : List FlowEvent) :
    HandsInput (log ++ more) call := by
  cases call with
  | process input answer =>
      obtain ⟨elem, helem⟩ := h
      exact ⟨elem, helem.append more⟩
  | push input answer =>
      obtain ⟨elem, helem⟩ := h
      exact ⟨elem, helem.append more⟩
  | _ => trivial

theorem Continues.append (h : Continues log call elem) (more : List FlowEvent) :
    Continues (log ++ more) call elem := by
  unfold Continues at h ⊢
  split at h
  · exact h
  · obtain ⟨parent, hparent, hrest⟩ := h
    exact ⟨parent, hparent.append more, hrest⟩
  · exact h

/-- **One more event**: a push is stamped with a fresh sequence number and continues the call in
progress, an invocation hands over what has been enqueued, and a span names an origin. -/
theorem TracedLog.snoc {next next' : ℕ} {ev : FlowEvent} (h : TracedLog log next)
    (hle : next ≤ next')
    (hpush : ∀ id elem result, ev = .pushed id elem result →
      next ≤ elem.sequence ∧ elem.sequence < next' ∧ elem.metadata.sequence = elem.sequence ∧
        Continues log (callAfter none log) elem)
    (hinput : ∀ component call, ev = .invoked component call → HandsInput log call)
    (hspan : ∀ component seq startNs endNs status,
      ev = .recordElementSpan component seq startNs endNs status →
      ∃ elem, Handled log (callAfter none log) elem ∧ seq = elem.originSequence) :
    TracedLog (log ++ [ev]) next' := by
  have hpushes : pushes (log ++ [ev]) = pushes log ++ ev.pushed?.toList := by
    rw [pushes, List.filterMap_append]
    cases ev <;> rfl
  have hev : ∀ elem, elem ∈ ev.pushed?.toList → ∃ id result, ev = .pushed id elem result := by
    intro elem hmem
    cases ev with
    | pushed id elem' result =>
        obtain rfl := List.mem_singleton.mp hmem
        exact ⟨id, result, rfl⟩
    | _ => exact absurd hmem List.not_mem_nil
  have hattributed : ∀ call ev', (call, ev') ∈ attributed none (log ++ [ev]) →
      (call, ev') ∈ attributed none log ∨
        (ev' = ev ∧ call = ev.during (callAfter none log)) := by
    intro call ev' hmem
    rw [attributed_append] at hmem
    rcases List.mem_append.mp hmem with hmem | hmem
    · exact .inl hmem
    · obtain ⟨hcall, hev'⟩ := Prod.mk.inj (List.mem_singleton.mp hmem)
      exact .inr ⟨hev', hcall⟩
  constructor
  · rw [hpushes, List.map_append, List.pairwise_append]
    refine ⟨h.increasing, ?_, ?_⟩
    · cases ev <;> simp [FlowEvent.pushed?]
    · intro n hn n' hn'
      obtain ⟨elem, hmem, rfl⟩ := List.mem_map.mp hn
      obtain ⟨elem', hmem', rfl⟩ := List.mem_map.mp hn'
      obtain ⟨id, result, heq⟩ := hev elem' hmem'
      exact lt_of_lt_of_le (h.below elem hmem) (hpush id elem' result heq).1
  · intro elem hmem
    rw [hpushes] at hmem
    rcases List.mem_append.mp hmem with hmem | hmem
    · exact lt_of_lt_of_le (h.below elem hmem) hle
    · obtain ⟨id, result, heq⟩ := hev elem hmem
      exact (hpush id elem result heq).2.1
  · intro elem hmem
    rw [hpushes] at hmem
    rcases List.mem_append.mp hmem with hmem | hmem
    · exact h.stamped elem hmem
    · obtain ⟨id, result, heq⟩ := hev elem hmem
      exact (hpush id elem result heq).2.2.1
  · intro component call hmem
    rcases List.mem_append.mp hmem with hmem | hmem
    · exact (h.inputs component call hmem).append _
    · exact (hinput component call (List.mem_singleton.mp hmem).symm).append _
  · intro call id elem result hmem
    rcases hattributed call _ hmem with hmem | ⟨rfl, rfl⟩
    · exact (h.pushed call id elem result hmem).append _
    · exact (hpush id elem result rfl).2.2.2.append _
  · intro call component seq startNs endNs status hmem
    rcases hattributed call _ hmem with hmem | ⟨rfl, rfl⟩
    · obtain ⟨elem, helem, hseq⟩ := h.spans call component seq startNs endNs status hmem
      exact ⟨elem, helem.append _, hseq⟩
    · obtain ⟨elem, helem, hseq⟩ := hspan component seq startNs endNs status rfl
      exact ⟨elem, helem.append _, hseq⟩

/-- Events that speak of no element. -/
theorem TracedLog.append_quiet {next : ℕ} (h : TracedLog log next)
    (hmore : ∀ ev ∈ more, ev.isQuiet = true) : TracedLog (log ++ more) next := by
  induction more generalizing log with
  | nil => simpa using h
  | cons ev more ih =>
      obtain ⟨hev, hmore⟩ := List.forall_mem_cons.mp hmore
      have hone : TracedLog (log ++ [ev]) next := by
        refine h.snoc le_rfl ?_ ?_ ?_
        · rintro id elem result rfl
          cases hev
        · rintro component call rfl
          cases call with
          | notifyBackpressure signal => trivial
          | _ => cases hev
        · rintro component seq startNs endNs status rfl
          cases hev
      rw [← List.singleton_append, ← List.append_assoc]
      exact ih hone hmore

end Log

/-! ## The invariant of the driver -/

namespace FlowDriver

/-- The log is traced, what is queued has been enqueued, and outputs are streams. -/
structure Traced (d : FlowDriver) : Prop where
  log : TracedLog d.events d.nextGlobalSequence
  queued : ∀ s ∈ d.streams, ∀ elem ∈ s.queue.contents, elem ∈ enqueued s.id d.events
  indexed : ∀ v, ∀ o ∈ d.streamIndex.outputs v, o < d.streams.length

/-- The call in progress. -/
def inProgress (d : FlowDriver) : Option Invocation := callAfter none d.events

/-- The element in hand, if there is one, is the one that the call in progress is about. -/
def InHand (d : FlowDriver) : Prop :=
  ∀ seq, d.currentElementSequence = some seq →
    ∃ elem, Handled d.events d.inProgress elem ∧ seq = elem.originSequence

namespace Traced

variable {d d' : FlowDriver}

/-- One more event that is no push. -/
theorem snoc (h : Traced d) {ev : FlowEvent} (hpush : ev.pushed? = none)
    (hinput : ∀ component call, ev = .invoked component call → HandsInput d.events call)
    (hspan : ∀ component seq startNs endNs status,
      ev = .recordElementSpan component seq startNs endNs status →
      ∃ elem, Handled d.events d.inProgress elem ∧ seq = elem.originSequence) :
    Traced (d.log ev) where
  log := by
    refine h.log.snoc le_rfl ?_ hinput hspan
    rintro id elem result rfl
    cases hpush
  queued s hs elem helem := by
    have hmem := h.queued s hs elem helem
    show elem ∈ enqueued s.id (d.events ++ [ev])
    rw [enqueued_append]
    exact List.mem_append_left _ hmem
  indexed := h.indexed

/-- Nothing happens to any element. -/
theorem quiet (h : Traced d) (hquiet : Quiet d d') : Traced d' := by
  obtain ⟨more, hevents, hmore⟩ := hquiet.events
  refine ⟨?_, ?_, ?_⟩
  · rw [hevents, hquiet.sequence]
    exact h.log.append_quiet hmore
  · intro s' hs' elem helem
    obtain ⟨si, hsi⟩ := List.mem_iff_getElem?.mp hs'
    have hlt := (List.getElem?_eq_some_iff.mp hsi).1
    rw [hquiet.length_eq] at hlt
    obtain ⟨s'', hs'', hid, hqueue, -⟩ := hquiet.stream si _ (List.getElem?_eq_getElem hlt)
    obtain rfl := Option.some.inj (hsi.symm.trans hs'')
    rw [hqueue] at helem
    rw [hid, hevents, enqueued_append]
    exact List.mem_append_left _ (h.queued _ (List.getElem_mem hlt) elem helem)
  · intro v o ho
    rw [hquiet.streamIndex] at ho
    rw [hquiet.length_eq]
    exact h.indexed v o ho

/-- Taking an input: it is an element that has been enqueued. -/
theorem taking (h : Traced d) {si : ℕ} {s : StreamState} {elem : StreamElementRef}
    (hs : d.streams[si]? = some s) (hpos : 0 < s.queue.len) (helem : s.take.1 = some elem) :
    Traced (d.taking si s elem) ∧ elem ∈ enqueued s.id d.events := by
  obtain ⟨first, hpop, hcontents⟩ := BoundedQueue.pop_of_pos hpos
  obtain rfl : first = elem := by
    have hfirst : s.take.1 = some first := congrArg Prod.fst hpop
    exact Option.some.inj (hfirst.symm.trans helem)
  have hrest : s.take.2.queue = s.queue.dequeue hpos := congrArg Prod.snd hpop
  have hmem : s ∈ d.streams := List.mem_of_getElem? hs
  have hqueued : ∀ other ∈ s.queue.contents, other ∈ enqueued s.id d.events := h.queued s hmem
  rw [hcontents, List.forall_mem_cons] at hqueued
  refine ⟨⟨h.log, fun s' hs' other hother => ?_, fun v o ho => ?_⟩, hqueued.1⟩
  · rcases List.mem_or_eq_of_mem_set hs' with hs' | rfl
    · exact h.queued s' hs' other hother
    · rw [hrest] at hother
      exact hqueued.2 other hother
  · show o < (d.streams.set si s.take.2).length
    rw [List.length_set]
    exact h.indexed v o ho

/-- A push onto a stream: the element carries the next sequence number and continues the call
in progress.  It is in the queue only if it has been accepted. -/
theorem pushed (h : Traced d) (elem : StreamElementRef) (s' : StreamState) {si : ℕ}
    {s : StreamState} (hs : d.streams[si]? = some s) (hid : s'.id = s.id) (hqueue : s'.queue = (s.emit elem).2.queue)
    (hseq : elem.sequence = d.nextGlobalSequence) (hstamp : elem.metadata.sequence = elem.sequence)
    (hcontinues : Continues d.events d.inProgress elem)
    (hstreams : d'.streams = d.streams.set si s') (hindex : d'.streamIndex = d.streamIndex)
    (hnext : d'.nextGlobalSequence = d.nextGlobalSequence + 1)
    (hevents : d'.events = d.events ++ [.pushed s.id elem (s.emit elem).1]) : Traced d' := by
  refine ⟨?_, ?_, ?_⟩
  · rw [hevents, hnext]
    refine h.log.snoc (Nat.le_succ _) ?_ (by simp) (by simp)
    rintro id elem' result ⟨⟩
    exact ⟨hseq.ge, by omega, hstamp, hcontinues⟩
  · intro s'' hs'' other hother
    have hold : ∀ id, other ∈ enqueued id d.events → other ∈ enqueued id d'.events := by
      intro id hmem
      rw [hevents, enqueued_append]
      exact List.mem_append_left _ hmem
    rw [hstreams] at hs''
    rcases List.mem_or_eq_of_mem_set hs'' with hs'' | rfl
    · exact hold _ (h.queued s'' hs'' other hother)
    · have hmem : s ∈ d.streams := List.mem_of_getElem? hs
      have hcontents : (s.emit elem).2.queue.contents =
          if s.queue.isFull then s.queue.contents else s.queue.contents ++ [elem] :=
        BoundedQueue.contents_push _ _
      rw [hqueue, hcontents] at hother
      rw [hid]
      split_ifs at hother with hfull
      · exact hold _ (h.queued s hmem other hother)
      · rcases List.mem_append.mp hother with hother | hother
        · exact hold _ (h.queued s hmem other hother)
        · obtain rfl := List.mem_singleton.mp hother
          rw [mem_enqueued, hevents, StreamState.emit_fst_eq_ok_iff.mpr (by simpa using hfull)]
          exact List.mem_append_right _ List.mem_cons_self
  · intro v o ho
    rw [hindex] at ho
    rw [hstreams, List.length_set]
    exact h.indexed v o ho

/-- A push that has no stream to go to. -/
theorem skipped (h : Traced d) (hstreams : d'.streams = d.streams)
    (hindex : d'.streamIndex = d.streamIndex) (hevents : d'.events = d.events)
    (hnext : d'.nextGlobalSequence = d.nextGlobalSequence + 1) : Traced d' := by
  refine ⟨?_, ?_, ?_⟩
  · rw [hevents, hnext]
    exact ⟨h.log.increasing, fun elem hmem => (h.log.below elem hmem).trans (Nat.lt_succ_self _),
      h.log.stamped, h.log.inputs, h.log.pushed, h.log.spans⟩
  · rw [hstreams, hevents]
    exact h.queued
  · rw [hstreams, hindex]
    exact h.indexed

/-- Pushing what has been pulled: the element is its own origin. -/
theorem pushPulled (h : Traced d) (r : Round) (element : OutputElement)
    {answer : Answer (Option OutputElement)} {si : ℕ} (hsi : si < d.streams.length)
    (hcall : d.inProgress = some (.pull answer)) :
    Traced (d.pushPulled r element si) ∧ (d.pushPulled r element si).InHand := by
  have hs : d.streams[si]? = some d.streams[si] := List.getElem?_eq_getElem hsi
  set s := d.streams[si] with hsdef
  set elem := stamp d.nextGlobalSequence d.nextGlobalSequence r.timestampNs element with helem
  -- the push, before it is reported
  let pushedDriver : FlowDriver :=
    { d with
      nextGlobalSequence := d.nextGlobalSequence + 1
      currentElementSequence := some d.nextGlobalSequence
      streams := d.streams.set si
        (if s.queue.isFull then (s.emit elem).2 else (s.emit elem).2.recordEnqueue)
      events := d.events ++ [.pushed s.id elem (s.emit elem).1] }
  have htraced : Traced pushedDriver := by
    refine h.pushed elem _ hs ?_ ?_ rfl rfl ?_ rfl rfl rfl rfl
    · split_ifs <;> rfl
    · split_ifs <;> rfl
    · rw [hcall]
      rfl
  have hmore : Quiet pushedDriver (d.pushPulled r element si) := by
    rw [pushPulled_eq r element hs]
    refine .of_streams_eq (if s.queue.isFull then [] else
      [.recordElementTransfer s.id d.nextGlobalSequence ((s.emit elem).2.queue.len % 2 ^ 32)])
      rfl rfl rfl ?_ ?_
    · simp only [pushedDriver, List.append_assoc, List.cons_append, List.nil_append]
      rfl
    · split_ifs <;> simp [FlowEvent.isQuiet]
  refine ⟨htraced.quiet hmore, fun seq hseq => ?_⟩
  have hattributed : (some (.pull answer), .pushed s.id elem (s.emit elem).1) ∈
      attributed none pushedDriver.events := by
    show _ ∈ attributed none (d.events ++ [_])
    rw [attributed_append]
    refine List.mem_append_right _ ?_
    show _ ∈ [(callAfter none d.events, _)]
    rw [← hcall]
    exact List.mem_cons_self
  have hhandled : Handled pushedDriver.events (some (.pull answer)) elem := ⟨_, _, hattributed⟩
  obtain ⟨more, hevents, hquiet⟩ := hmore.events
  refine ⟨elem, ?_, ?_⟩
  · have hprogress : (d.pushPulled r element si).inProgress = some (.pull answer) := by
      rw [pushPulled_eq r element hs, inProgress, callAfter, List.foldl_append]
      show List.foldl _ (callAfter none d.events) _ = _
      rw [show callAfter none d.events = some (.pull answer) from hcall]
      split_ifs <;> rfl
    rw [hprogress, hevents]
    exact hhandled.append more
  · rw [pushPulled_eq r element hs] at hseq
    exact (Option.some.inj hseq).symm

/-- Pushing an answer: the element continues the input. -/
theorem pushOutput (h : Traced d) {input : StreamElementRef} (output : OutputElement)
    {answer : Answer ProcessResult} (si : ℕ)
    (hcall : d.inProgress = some (.process input.toStreamElement answer))
    (hinput : ∃ id, input ∈ enqueued id d.events) :
    Traced (d.pushOutput input output si) ∧
      (d.pushOutput input output si).inProgress = d.inProgress ∧
      ∃ more, (d.pushOutput input output si).events = d.events ++ more := by
  cases hs : d.streams[si]? with
  | none =>
      have heq : d.pushOutput input output si =
          { d with nextGlobalSequence := d.nextGlobalSequence + 1 } := by
        simp only [Reactor.FlowDriver.pushOutput, hs]
      rw [heq]
      exact ⟨h.skipped rfl rfl rfl rfl, rfl, [], (List.append_nil _).symm⟩
  | some s =>
      have hhandled : Handled d.events (some (.process input.toStreamElement answer)) input :=
        ⟨hinput, rfl⟩
      rw [pushOutput_eq input output hs]
      set elem := stamp d.nextGlobalSequence input.originSequence input.metadata.timestampNs output
      refine ⟨h.pushed elem (s.emit elem).2.recordEnqueue hs rfl rfl rfl rfl ?_ rfl rfl rfl rfl,
        ?_, _, rfl⟩
      · rw [hcall]
        exact ⟨input, hhandled, h.log.below input hhandled.mem_pushes, rfl, rfl⟩
      · rw [inProgress, callAfter, List.foldl_append]
        rfl

theorem pushAll {input : StreamElementRef} {answer : Answer ProcessResult}
    (ts : List (OutputElement × ℕ)) (h : Traced d)
    (hcall : d.inProgress = some (.process input.toStreamElement answer))
    (hinput : ∃ id, input ∈ enqueued id d.events) :
    Traced (d.pushAll input ts) ∧ (d.pushAll input ts).inProgress = d.inProgress ∧
      ∃ more, (d.pushAll input ts).events = d.events ++ more := by
  induction ts generalizing d with
  | nil => exact ⟨h, rfl, [], (List.append_nil _).symm⟩
  | cons t ts ih =>
      obtain ⟨hone, hprogress, more, hevents⟩ := h.pushOutput t.1 t.2 hcall hinput
      have hinput' : ∃ id, input ∈ enqueued id (d.pushOutput input t.1 t.2).events := by
        obtain ⟨id, hmem⟩ := hinput
        refine ⟨id, ?_⟩
        rw [hevents, enqueued_append]
        exact List.mem_append_left _ hmem
      obtain ⟨hall, hprogress', more', hevents'⟩ := ih hone (hprogress.trans hcall) hinput'
      refine ⟨hall, hprogress'.trans hprogress, more ++ more', ?_⟩
      show ((d.pushOutput input t.1 t.2).pushAll input ts).events = _
      rw [hevents', hevents, List.append_assoc]

theorem currentElementSequence_pushAll {input : StreamElementRef} (ts : List (OutputElement × ℕ))
    (d : FlowDriver) : (d.pushAll input ts).currentElementSequence = d.currentElementSequence := by
  induction ts generalizing d with
  | nil => rfl
  | cons t ts ih =>
      have hone : (d.pushOutput input t.1 t.2).currentElementSequence = d.currentElementSequence := by
        cases hs : d.streams[t.2]? with
        | none => simp only [Reactor.FlowDriver.pushOutput, hs]
        | some s => rw [pushOutput_eq input t.1 hs]
      exact (ih _).trans hone

/-- **The action of a stage** leaves the log traced, with the element of the action in hand. -/
theorem acted {r : Round} {e : StageExecution} (h : Traced d) (hfree : d.currentElementSequence = none)
    (hacted : Acted d r e d') : Traced d' ∧ d'.InHand := by
  have hnothing : ∀ d' : FlowDriver, d'.currentElementSequence = none → d'.InHand := by
    intro d' hnone seq hseq
    rw [hnone] at hseq
    cases hseq
  have hasked : ∀ answer, Traced (d.log (.invoked e.componentId (.pull answer))) := by
    refine fun answer => h.snoc rfl ?_ (by simp)
    rintro component call ⟨⟩
    trivial
  have hprogress : ∀ (d₁ : FlowDriver) (call : Invocation) (more : List FlowEvent),
      (FlowEvent.invoked e.componentId call).during none = some call →
      (∀ ev ∈ more, ∀ current, ev.during current = current) →
      callAfter none (d₁.events ++ .invoked e.componentId call :: more) = some call := by
    intro d₁ call more hcall hmore
    rw [callAfter, List.foldl_append, List.foldl_cons]
    have hstart : FlowEvent.during (List.foldl FlowEvent.during none d₁.events)
        (.invoked e.componentId call) = some call := by
      cases call <;> first | rfl | cases hcall
    rw [hstart]
    clear hstart
    induction more with
    | nil => rfl
    | cons ev more ih =>
        obtain ⟨hev, hmore⟩ := List.forall_mem_cons.mp hmore
        rw [List.foldl_cons, hev]
        exact ih hmore
  cases hacted with
  | starved => exact ⟨h, hnothing _ hfree⟩
  | asked answer => exact ⟨hasked answer, hnothing _ hfree⟩
  | exhausted sis => exact ⟨(hasked _).quiet (quiet_markComplete _ sis), hnothing _ hfree⟩
  | produced element si _ _ _ hsi =>
      exact (hasked _).pushPulled r element (h.indexed _ _ hsi) (hprogress d _ [] rfl (by simp))
  | processed si s elem answer ts id _ _ _ hs hpos helem =>
      obtain ⟨htaken, hmem⟩ := h.taking hs hpos helem
      have hasked : Traced ((d.taking si s elem).log
          (.invoked e.componentId (.process elem.toStreamElement answer))) := by
        refine htaken.snoc rfl ?_ (by simp)
        rintro component call ⟨⟩
        exact ⟨elem, ⟨_, hmem⟩, rfl⟩
      have hcall := hprogress (d.taking si s elem) (.process elem.toStreamElement answer) [] rfl (by simp)
      have hinput : ∃ id, elem ∈ enqueued id ((d.taking si s elem).log
          (.invoked e.componentId (.process elem.toStreamElement answer))).events := by
        refine ⟨s.id, ?_⟩
        show elem ∈ enqueued s.id (d.events ++ [_])
        rw [enqueued_append]
        exact List.mem_append_left _ hmem
      obtain ⟨hall, hsame, more, hevents⟩ := hasked.pushAll ts hcall hinput
      refine ⟨hall, fun seq hseq => ⟨elem, ?_, ?_⟩⟩
      · rw [hsame, hevents]
        refine Handled.append ?_ more
        unfold inProgress
        rw [FlowDriver.log, hcall]
        exact ⟨hinput, rfl⟩
      · rw [currentElementSequence_pushAll] at hseq
        exact (Option.some.inj hseq).symm
  | consumed si s elem answer latency _ _ hs hpos helem =>
      obtain ⟨htaken, hmem⟩ := h.taking hs hpos helem
      have hasked : Traced ((d.taking si s elem).log
          (.invoked e.componentId (.push elem.toStreamElement answer))) := by
        refine htaken.snoc rfl ?_ (by simp)
        rintro component call ⟨⟩
        exact ⟨elem, ⟨_, hmem⟩, rfl⟩
      have hreported : Traced { (d.taking si s elem) with
          events := d.events ++ .invoked e.componentId (.push elem.toStreamElement answer) ::
            latency.toList.map .recordFlowLatency } := by
        refine hasked.quiet (.of_streams_eq (latency.toList.map .recordFlowLatency)
          rfl rfl rfl ?_ ?_)
        · show d.events ++ _ = d.events ++ [_] ++ _
          rw [List.append_assoc]
          rfl
        · cases latency <;> simp [FlowEvent.isQuiet]
      refine ⟨hreported, fun seq hseq => ⟨elem, ?_, (Option.some.inj hseq).symm⟩⟩
      have hcall := hprogress d (.push elem.toStreamElement answer)
        (latency.toList.map .recordFlowLatency) rfl (by cases latency <;> simp [FlowEvent.during])
      unfold inProgress
      rw [hcall]
      refine ⟨⟨s.id, ?_⟩, rfl⟩
      show elem ∈ enqueued s.id (d.events ++ _)
      rw [enqueued_append]
      exact List.mem_append_left _ hmem

/-- Recording an execution: the span names the origin of the element in hand. -/
theorem recordExecution (h : Traced d) (hhand : d.InHand) (r : Round) (e : StageExecution)
    (result : Except FlowError Unit) : Traced (d.recordExecution r e result) := by
  obtain ⟨startNs, endNs, status, hevents⟩ := events_recordExecution d r e result
  have hreported : Traced (d.log (.recordInvocation e.componentId startNs endNs status)) :=
    h.snoc rfl (by simp) (by simp)
  have hframe : ∀ d₁ : FlowDriver, Traced d₁ →
      (d.recordExecution r e result).events = d₁.events → d₁.streams = d.streams →
      d₁.nextGlobalSequence = d.nextGlobalSequence → d₁.streamIndex = d.streamIndex →
      Traced (d.recordExecution r e result) := by
    intro d₁ h₁ hev hst hseq hidx
    refine h₁.quiet (.of_streams_eq [] ?_ ?_ ?_ ?_ (by simp))
    · rw [hst]
      exact (recordExecution_frame d r e result).1
    · rw [hidx]
      exact congrArg Context.streamIndex (recordExecution_frame d r e result).2.1
    · rw [hseq]
      unfold Reactor.FlowDriver.recordExecution
      simp only
      split <;> rfl
    · rw [hev, List.append_nil]
  cases hseq : d.currentElementSequence with
  | none =>
      rw [hseq] at hevents
      exact hframe _ hreported hevents rfl rfl rfl
  | some seq =>
      rw [hseq] at hevents
      have hspan : Traced ((d.log (.recordInvocation e.componentId startNs endNs status)).log
          (.recordElementSpan e.componentId seq startNs endNs status)) := by
        refine hreported.snoc rfl (by simp) ?_
        rintro component seq' startNs' endNs' status' ⟨⟩
        obtain ⟨elem, hhandled, hsame⟩ := hhand seq hseq
        refine ⟨elem, ?_, hsame⟩
        have hprogress : (d.log (.recordInvocation e.componentId startNs endNs status)).inProgress =
            d.inProgress := List.foldl_append
        rw [hprogress]
        exact hhandled.append _
      refine hframe _ hspan ?_ rfl rfl rfl
      rw [hevents]
      show _ = d.events ++ [_] ++ [_]
      rw [List.append_assoc]
      rfl

/-- Ending the run empties the queues. -/
theorem finish (h : Traced d) (r : Round) : Traced (d.finish r) := by
  obtain ⟨more, hevents, hmore, -⟩ := d.finish_events r
  have hstreams : (d.finish r).streams = d.streams.map StreamState.discardAll := rfl
  have hquiet : ∀ ev ∈ more, ev.isQuiet = true := by
    intro ev hev
    rcases hmore ev hev with ⟨s, -, -, rfl⟩ | ⟨_, _, rfl⟩ | ⟨_, rfl⟩ <;> rfl
  refine ⟨?_, ?_, ?_⟩
  · rw [hevents]
    exact h.log.append_quiet hquiet
  · intro s hs elem helem
    rw [hstreams] at hs
    obtain ⟨s, -, rfl⟩ := List.mem_map.mp hs
    have hlen : s.discardAll.queue.contents.length = 0 := by
      rw [BoundedQueue.length_contents]
      exact s.queue.drainAll_spec.2
    rw [List.length_eq_zero_iff.mp hlen] at helem
    cases helem
  · intro v o ho
    rw [hstreams, List.length_map]
    exact h.indexed v o ho

/-- **Every round leaves the log traced.** -/
theorem step (h : Traced d) (r : Round) : Traced (d.step r) := by
  have heffect := d.step_effect r
  generalize d.step r = d' at heffect ⊢
  cases heffect with
  | quiet d' _ _ hquiet => exact h.quiet hquiet
  | executed e c acted result d' _ hacted hquiet =>
      have hprepared : Traced (d.prepared c) := ⟨h.log, h.queued, h.indexed⟩
      obtain ⟨htraced, hhand⟩ := hprepared.acted rfl hacted
      exact (htraced.recordExecution hhand r e result).quiet hquiet
  | finished => exact h.finish r

theorem run (h : Traced d) (rounds : List Round) : Traced (d.run rounds) := by
  induction rounds generalizing d with
  | nil => exact h
  | cons r rounds ih => exact ih (h.step r)

end Traced

end FlowDriver

/-! ## Derivation from the log -/

section Derivation

variable {log : List FlowEvent} {next : ℕ} {elem elem' root : StreamElementRef}

/-- A pushed element is known by its sequence number. -/
theorem TracedLog.eq_of_sequence_eq (h : TracedLog log next) (hmem : elem ∈ pushes log)
    (hmem' : elem' ∈ pushes log) (hseq : elem.sequence = elem'.sequence) : elem = elem' := by
  have hnodup : ((pushes log).map (·.sequence)).Nodup := h.increasing.imp Nat.ne_of_lt
  exact List.inj_on_of_nodup_map hnodup hmem hmem' hseq

/-- The element of a call is determined by the call. -/
theorem TracedLog.handled_unique (h : TracedLog log next) {input : StreamElement}
    {answer : Answer ProcessResult} (hhandled : Handled log (some (.process input answer)) elem)
    (hhandled' : Handled log (some (.process input answer)) elem') : elem = elem' := by
  refine h.eq_of_sequence_eq hhandled.mem_pushes hhandled'.mem_pushes ?_
  rw [← h.stamped elem hhandled.mem_pushes, ← h.stamped elem' hhandled'.mem_pushes]
  exact congrArg (fun input : StreamElement => input.metadata.sequence)
    (hhandled.2.trans hhandled'.2.symm)

/-- **An element carries the origin and the timestamp of what it is derived from.** -/
theorem TracedLog.origin (h : TracedLog log next) (hderived : DerivedFrom log elem root) :
    elem.originSequence = root.sequence ∧
      elem.metadata.timestampNs = root.metadata.timestampNs := by
  induction hderived with
  | pulled hhandled =>
      obtain ⟨id, result, hmem⟩ := hhandled
      exact ⟨h.pushed _ id _ result hmem, rfl⟩
  | answered hmem hhandled _ ih =>
      obtain ⟨parent, hparent, -, horigin, htimestamp⟩ := h.pushed _ _ _ _ hmem
      obtain rfl := h.handled_unique hparent hhandled
      exact ⟨horigin.trans ih.1, htimestamp.trans ih.2⟩

/-- **Every element is derived from a source element.** -/
theorem TracedLog.derived (h : TracedLog log next) :
    ∀ elem ∈ pushes log, ∃ root, DerivedFrom log elem root := by
  intro elem hmem
  induction hseq : elem.sequence using Nat.strong_induction_on generalizing elem with
  | _ n ih =>
      obtain ⟨id, result, hpush⟩ := mem_pushes.mp hmem
      obtain ⟨call, hcall⟩ := exists_mem_attributed none hpush
      have hcontinues := h.pushed call id elem result hcall
      unfold Continues at hcontinues
      split at hcontinues
      · exact ⟨elem, .pulled ⟨id, result, hcall⟩⟩
      · obtain ⟨parent, hparent, hlt, -⟩ := hcontinues
        obtain ⟨root, hroot⟩ := ih parent.sequence (hseq ▸ hlt) parent hparent.mem_pushes rfl
        exact ⟨root, .answered hcall hparent hroot⟩
      · exact hcontinues.elim

end Derivation

/-- A traced log is one in which every element can be followed to its origin. -/
theorem FlowDriver.Traced.provenance {d : FlowDriver} (h : d.Traced) : Provenance d where
  increasing id := h.log.increasing.sublist ((enqueued_sublist id d.events).map _)
  queued := h.queued
  processed component input answer hmem := h.log.inputs component _ hmem
  consumed component input answer hmem := h.log.inputs component _ hmem
  derived := h.log.derived
  origin _ _ := h.log.origin
  spans call component seq startNs endNs status hmem := by
    obtain ⟨elem, hhandled, hseq⟩ := h.log.spans call component seq startNs endNs status hmem
    obtain ⟨root, hroot⟩ := h.log.derived elem hhandled.mem_pushes
    exact ⟨elem, root, hhandled, hroot, hseq.trans (h.log.origin hroot).1⟩

/-- At the start nothing has been logged. -/
theorem BuiltFlow.traced_start (f : BuiltFlow) : f.start.Traced where
  log := by
    refine ⟨?_, ?_, ?_, ?_, ?_, ?_⟩ <;>
      simp [BuiltFlow.start, FlowDriver.enterRunning, FlowDriver.new, FlowDriver.log, pushes,
        FlowEvent.pushed?, attributed, List.filterMap_cons]
  queued s hs elem helem := by
    obtain ⟨-, hspec⟩ := spawnStreamsFrom_spec f.built
    obtain ⟨si, hsi⟩ := List.mem_iff_getElem?.mp hs
    have hlen := (hspec si s hsi).2.2.1
    rw [← BoundedQueue.length_contents, List.length_eq_zero_iff] at hlen
    rw [hlen] at helem
    cases helem
  indexed v o ho := by
    have hlen : f.start.streams.length = f.config.topology.connections.length :=
      (spawnStreamsFrom_spec f.built).1
    rw [hlen]
    exact StreamIndex.lt_of_mem_outputs ho

/-- **Sequence and origin tracking**, for every topology and every run. -/
theorem provenance_run (f : BuiltFlow) (rounds : List Round) : Provenance (f.run rounds) :=
  (f.traced_start.run rounds).provenance

end Torvyn.Reactor
