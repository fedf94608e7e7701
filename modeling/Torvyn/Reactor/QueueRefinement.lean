/-
# The ring buffer and a bounded list

The operations of `queue.rs` on the bare fields, with everything that can fail in them: the
assertion of `new`, a slot index out of bounds, a remainder by zero and the two `expect`s.  Run on
a new queue, any sequence of operations fails nowhere and returns what a list of bounded length
returns (`run_refines`).  The proof goes through `BoundedQueue`, whose invariant rules the
failures out.
-/
import Torvyn.Reactor.Queue

namespace Torvyn.Reactor

/-! ## The fields alone -/

/-- The fields of a queue.  In the operations below `none` stands for a panic. -/
structure RingBuffer (α : Type) where
  buf : List (Option α)
  head : ℕ
  len : ℕ
  capacity : ℕ
  deriving DecidableEq, Repr

namespace RingBuffer

variable {α : Type}

/-- `new`, which asserts that the capacity is positive. -/
def new (capacity : ℕ) : Option (RingBuffer α) :=
  if 0 < capacity then some ⟨List.replicate capacity none, 0, 0, capacity⟩ else none

/-- A remainder: by zero it panics. -/
def wrap (q : RingBuffer α) (i : ℕ) : Option ℕ :=
  if q.capacity = 0 then none else some (i % q.capacity)

/-- Read a slot. -/
def load (q : RingBuffer α) (i : ℕ) : Option (Option α) := q.buf[i]?

/-- Overwrite a slot. -/
def store (q : RingBuffer α) (i : ℕ) (slot : Option α) : Option (RingBuffer α) :=
  if i < q.buf.length then some { q with buf := q.buf.set i slot } else none

/-- `tail`. -/
def tail (q : RingBuffer α) : Option ℕ := q.wrap (q.head + q.len)

/-- Store an element at the tail. -/
def append (q : RingBuffer α) (element : α) : Option (PushResult α × RingBuffer α) := do
  let tail ← q.tail
  let q ← q.store tail (some element)
  some (.ok, { q with len := q.len + 1 })

/-- `push`. -/
def push (q : RingBuffer α) (element : α) : Option (PushResult α × RingBuffer α) :=
  if q.len = q.capacity then some (.full element, q) else q.append element

/-- `push_with_policy`. -/
def pushWithPolicy (q : RingBuffer α) (element : α) (policy : BackpressurePolicy) :
    Option (PushResult α × RingBuffer α) :=
  if q.len < q.capacity then q.append element
  else
    match policy with
    | .blockProducer | .error => some (.full element, q)
    | .dropOldest => do
        -- the slot, and the `expect` that it is filled
        let dropped ← (← q.load q.head)
        let q ← q.store q.head (some element)
        let head ← q.wrap (q.head + 1)
        some (.droppedOldest dropped, { q with head := head })
    | .dropNewest => some (.droppedNewest element, q)

/-- `pop`. -/
def pop (q : RingBuffer α) : Option (Option α × RingBuffer α) :=
  if q.len = 0 then some (none, q)
  else do
    let element ← (← q.load q.head)
    let q ← q.store q.head none
    let head ← q.wrap (q.head + 1)
    some (some element, { q with head := head, len := q.len - 1 })

/-- `peek_front`. -/
def peekFront (q : RingBuffer α) : Option (Option α) :=
  if q.len = 0 then some none else q.load q.head

/-- The loop of `drain_all`; a loop that were still running when the fuel is used up counts as a
failure. -/
def drainLoop : ℕ → RingBuffer α → List α → Option (List α × RingBuffer α)
  | 0, _, _ => none
  | fuel + 1, q, result => do
      let (front, q) ← q.pop
      match front with
      | some element => drainLoop fuel q (result ++ [element])
      | none => some (result, q)

/-- `drain_all`. -/
def drainAll (q : RingBuffer α) : Option (List α × RingBuffer α) := drainLoop (q.len + 1) q []

/-- The elements in order, the oldest first. -/
def contents (q : RingBuffer α) : List α :=
  (List.range q.len).filterMap fun i => q.buf[(q.head + i) % q.capacity]?.join

end RingBuffer

/-! ## A list of bounded length -/

namespace Fifo

variable {α : Type}

/-- Append an element where there is room. -/
def push (capacity : ℕ) (l : List α) (element : α) : PushResult α × List α :=
  if l.length < capacity then (.ok, l ++ [element]) else (.full element, l)

/-- Append an element where there is room, and otherwise do what the policy says. -/
def pushWithPolicy (capacity : ℕ) (l : List α) (element : α) (policy : BackpressurePolicy) :
    PushResult α × List α :=
  if l.length < capacity then (.ok, l ++ [element])
  else
    match policy, l with
    | .dropOldest, oldest :: others => (.droppedOldest oldest, others ++ [element])
    | .dropNewest, l => (.droppedNewest element, l)
    | _, l => (.full element, l)

end Fifo

/-! ## Sequences of operations -/

/-- An operation on a queue. -/
inductive QueueOp (α : Type) where
  | push (element : α)
  | pushWithPolicy (element : α) (policy : BackpressurePolicy)
  | pop
  | peekFront
  | drainAll

/-- What an operation returns. -/
inductive QueueResult (α : Type) where
  | pushed (result : PushResult α)
  | front (element : Option α)
  | drained (elements : List α)
  deriving DecidableEq

section Run

variable {α : Type}

/-- An operation on the ring buffer. -/
def RingBuffer.perform (q : RingBuffer α) : QueueOp α → Option (QueueResult α × RingBuffer α)
  | .push element => (q.push element).map (Prod.map .pushed id)
  | .pushWithPolicy element policy => (q.pushWithPolicy element policy).map (Prod.map .pushed id)
  | .pop => q.pop.map (Prod.map .front id)
  | .peekFront => q.peekFront.map fun element => (.front element, q)
  | .drainAll => q.drainAll.map (Prod.map .drained id)

/-- An operation on the list. -/
def Fifo.perform (capacity : ℕ) (l : List α) : QueueOp α → QueueResult α × List α
  | .push element => Prod.map .pushed id (push capacity l element)
  | .pushWithPolicy element policy => Prod.map .pushed id (pushWithPolicy capacity l element policy)
  | .pop => (.front l.head?, l.tail)
  | .peekFront => (.front l.head?, l)
  | .drainAll => (.drained l, [])

/-- The results of a sequence of operations on a ring buffer, and the buffer after it. -/
def RingBuffer.run (q : RingBuffer α) :
    List (QueueOp α) → Option (List (QueueResult α) × RingBuffer α)
  | [] => some ([], q)
  | op :: ops => do
      let (result, q) ← q.perform op
      let (results, q) ← q.run ops
      some (result :: results, q)

/-- The results of a sequence of operations on a list, and the list after it. -/
def Fifo.run (capacity : ℕ) (l : List α) :
    List (QueueOp α) → List (QueueResult α) × List α
  | [] => ([], l)
  | op :: ops =>
      ((perform capacity l op).1 :: (run capacity (perform capacity l op).2 ops).1,
        (run capacity (perform capacity l op).2 ops).2)

end Run

/-! ## The operations do not fail -/

namespace BoundedQueue

variable {α : Type}

/-- The fields of a queue. -/
def fields (q : BoundedQueue α) : RingBuffer α := ⟨q.buf, q.head, q.len, q.capacity⟩

@[simp] theorem contents_fields (q : BoundedQueue α) : q.fields.contents = q.contents := rfl

theorem new_fields {capacity : ℕ} {q : BoundedQueue α} (h : BoundedQueue.new capacity = some q) :
    RingBuffer.new capacity = some q.fields := by
  unfold BoundedQueue.new at h
  split at h
  · rename_i hpos
    obtain rfl := Option.some.inj h
    exact if_pos hpos
  · cases h

/-- The capacity is positive, so a remainder by it is defined, whatever the other fields are. -/
theorem wrap_fields (q : BoundedQueue α) (buf : List (Option α)) (head len i : ℕ) :
    RingBuffer.wrap ⟨buf, head, len, q.capacity⟩ i = some (i % q.capacity) :=
  if_neg (Nat.pos_iff_ne_zero.mp q.capacity_pos)

theorem store_fields (q : BoundedQueue α) {i : ℕ} (hi : i < q.capacity) (slot : Option α) :
    q.fields.store i slot = some { q.fields with buf := q.buf.set i slot } := by
  apply if_pos
  show i < q.buf.length
  rw [q.buf_length]
  exact hi

/-- The head of a nonempty queue is filled. -/
theorem load_fields (q : BoundedQueue α) (h : 0 < q.len) :
    q.fields.load q.head = some (q.slot? 0) := by
  obtain ⟨a, ha⟩ := q.filled 0 h
  have hslot : q.slot? 0 = some a := by
    unfold slot?
    rw [ha]
    rfl
  rw [Nat.add_zero, Nat.mod_eq_of_lt q.head_lt] at ha
  rw [hslot]
  exact ha

theorem append_fields (q : BoundedQueue α) (element : α) (h : q.len < q.capacity) :
    q.fields.append element = some (.ok, (q.enqueue element h).fields) := by
  have htail : q.fields.tail = some q.tail := q.wrap_fields _ _ _ _
  have hstore := q.store_fields (i := q.tail) (Nat.mod_lt _ q.capacity_pos) (some element)
  unfold RingBuffer.append
  rw [htail, Option.bind_eq_bind, Option.bind_some, hstore]
  rfl

theorem push_fields (q : BoundedQueue α) (element : α) :
    q.fields.push element = some ((q.push element).1, (q.push element).2.fields) := by
  have hle := q.len_le
  unfold RingBuffer.push
  by_cases h : q.len < q.capacity
  · rw [if_neg (show q.fields.len ≠ q.fields.capacity from h.ne), q.append_fields element h,
      push_of_lt element h]
  · have hfull : q.len = q.capacity := by omega
    rw [if_pos (show q.fields.len = q.fields.capacity from hfull), push_of_full element hfull]

theorem pushWithPolicy_fields (q : BoundedQueue α) (element : α) (policy : BackpressurePolicy) :
    q.fields.pushWithPolicy element policy =
      some ((q.pushWithPolicy element policy).1, (q.pushWithPolicy element policy).2.fields) := by
  unfold RingBuffer.pushWithPolicy BoundedQueue.pushWithPolicy
  by_cases h : q.len < q.capacity
  · rw [dif_pos h, if_pos (show q.fields.len < q.fields.capacity from h),
      q.append_fields element h]
  · rw [dif_neg h, if_neg (show ¬ q.fields.len < q.fields.capacity from h)]
    cases policy with
    | dropOldest =>
        have hle := q.len_le
        have hcapacity := q.capacity_pos
        have hpos : 0 < q.len := by omega
        obtain ⟨oldest, holdest⟩ := Option.isSome_iff_exists.mp (q.slot?_isSome hpos)
        simp only [Option.bind_eq_bind, q.load_fields hpos, holdest, Option.bind_some,
          q.store_fields q.head_lt, show q.fields.head = q.head from rfl, Option.get_some]
        rw [show q.fields.capacity = q.capacity from rfl, q.wrap_fields]
        rfl
    | _ => rfl

theorem pop_fields (q : BoundedQueue α) :
    q.fields.pop = some (q.pop.1, q.pop.2.fields) := by
  unfold RingBuffer.pop
  by_cases h : 0 < q.len
  · obtain ⟨a, hpop, -⟩ := pop_of_pos h
    have hfront : q.slot? 0 = some a := by
      rw [pop, dif_pos h, Prod.mk.injEq] at hpop
      exact hpop.1
    rw [if_neg (show q.fields.len ≠ 0 from h.ne'), hpop]
    simp only [Option.bind_eq_bind, q.load_fields h, hfront, Option.bind_some,
      q.store_fields q.head_lt, show q.fields.head = q.head from rfl]
    rw [show q.fields.capacity = q.capacity from rfl, q.wrap_fields]
    rfl
  · have hempty : q.len = 0 := by omega
    rw [if_pos (show q.fields.len = 0 from hempty), pop_of_empty hempty]

theorem peekFront_fields (q : BoundedQueue α) : q.fields.peekFront = some q.peekFront := by
  unfold RingBuffer.peekFront peekFront
  by_cases h : 0 < q.len
  · rw [if_neg (show q.fields.len ≠ 0 from h.ne'), if_pos h]
    exact q.load_fields h
  · rw [if_pos (show q.fields.len = 0 by show q.len = 0; omega), if_neg h]

/-- The loop pops once for each element, and once more to see that the queue is empty. -/
theorem drainLoop_fields (q : BoundedQueue α) (result : List α) :
    RingBuffer.drainLoop (q.len + 1) q.fields result =
      some (result ++ (drainLoop q.len q).1, (drainLoop q.len q).2.fields) := by
  generalize hn : q.len = n
  induction n generalizing q result with
  | zero =>
      rw [RingBuffer.drainLoop, pop_fields, pop_of_empty hn, drainLoop, List.append_nil]
      rfl
  | succ n ih =>
      obtain ⟨a, hpop, -⟩ := pop_of_pos (q := q) (by omega)
      rw [RingBuffer.drainLoop, pop_fields, drainLoop, hpop]
      have hrest := ih (q.dequeue (by omega)) (result ++ [a]) (by rw [len_dequeue]; omega)
      simp only [List.append_assoc, List.singleton_append] at hrest
      exact hrest

theorem drainAll_fields (q : BoundedQueue α) :
    q.fields.drainAll = some (q.drainAll.1, q.drainAll.2.fields) :=
  q.drainLoop_fields []

/-! ## The operations do what the list does -/

theorem push_list (q : BoundedQueue α) (element : α) :
    Fifo.push q.capacity q.contents element =
      ((q.push element).1, (q.push element).2.contents) := by
  have hle := q.len_le
  unfold Fifo.push
  rw [length_contents]
  by_cases h : q.len < q.capacity
  · rw [if_pos h, push_of_lt element h, contents_enqueue]
  · rw [if_neg h, push_of_full element (by omega)]

theorem pushWithPolicy_list (q : BoundedQueue α) (element : α) (policy : BackpressurePolicy) :
    Fifo.pushWithPolicy q.capacity q.contents element policy =
      ((q.pushWithPolicy element policy).1, (q.pushWithPolicy element policy).2.contents) := by
  have hle := q.len_le
  unfold Fifo.pushWithPolicy BoundedQueue.pushWithPolicy
  rw [length_contents]
  by_cases h : q.len < q.capacity
  · rw [if_pos h, dif_pos h, contents_enqueue]
  · rw [if_neg h, dif_neg h]
    cases policy with
    | dropOldest =>
        have hcapacity := q.capacity_pos
        have hpos : 0 < q.len := by omega
        obtain ⟨oldest, hpop, hcontents⟩ := pop_of_pos hpos
        rw [pop, dif_pos hpos, Prod.mk.injEq] at hpop
        simp only [hpop.1, contents_replaceOldest, hcontents, Option.get_some, List.tail_cons]
    | _ => rfl

theorem pop_list (q : BoundedQueue α) : (q.contents.head?, q.contents.tail) =
    (q.pop.1, q.pop.2.contents) := by
  by_cases h : 0 < q.len
  · obtain ⟨a, hpop, hcontents⟩ := pop_of_pos h
    rw [hpop, hcontents, List.head?_cons, List.tail_cons]
  · have hempty : q.len = 0 := by omega
    have hnil : q.contents = [] := List.eq_nil_of_length_eq_zero (q.length_contents.trans hempty)
    rw [pop_of_empty hempty, hnil, List.head?_nil, List.tail_nil]

theorem drainAll_list (q : BoundedQueue α) : (q.contents, []) =
    (q.drainAll.1, q.drainAll.2.contents) := by
  obtain ⟨hresult, hempty⟩ := q.drainAll_spec
  have hnil : q.drainAll.2.contents = [] :=
    List.eq_nil_of_length_eq_zero ((length_contents _).trans hempty)
  rw [hresult, hnil]

/-- **One operation**: it fails nowhere, keeps the capacity, and does what it does on the list. -/
theorem perform_refines (q : BoundedQueue α) (op : QueueOp α) : ∃ result q',
    q.fields.perform op = some (result, fields q') ∧ q'.capacity = q.capacity ∧
      Fifo.perform q.capacity q.contents op = (result, q'.contents) := by
  cases op with
  | push element =>
      refine ⟨.pushed (q.push element).1, (q.push element).2, ?_, q.capacity_push element, ?_⟩
      · rw [RingBuffer.perform, push_fields]
        rfl
      · rw [Fifo.perform, push_list]
        rfl
  | pushWithPolicy element policy =>
      refine ⟨.pushed (q.pushWithPolicy element policy).1, (q.pushWithPolicy element policy).2, ?_,
        q.capacity_pushWithPolicy element policy, ?_⟩
      · rw [RingBuffer.perform, pushWithPolicy_fields]
        rfl
      · rw [Fifo.perform, pushWithPolicy_list]
        rfl
  | pop =>
      obtain ⟨hfront, hrest⟩ := Prod.mk.inj q.pop_list
      refine ⟨.front q.pop.1, q.pop.2, ?_, q.capacity_pop, ?_⟩
      · rw [RingBuffer.perform, pop_fields]
        rfl
      · rw [Fifo.perform, hfront, hrest]
  | peekFront =>
      refine ⟨.front q.peekFront, q, ?_, rfl, ?_⟩
      · rw [RingBuffer.perform, peekFront_fields]
        rfl
      · rw [Fifo.perform, peekFront_eq]
  | drainAll =>
      obtain ⟨hdrained, hrest⟩ := Prod.mk.inj q.drainAll_list
      refine ⟨.drained q.drainAll.1, q.drainAll.2, ?_, q.capacity_drainAll, ?_⟩
      · rw [RingBuffer.perform, drainAll_fields]
        rfl
      · rw [Fifo.perform, ← hdrained, ← hrest]

/-- Any sequence of operations, from any queue. -/
theorem run_fields (q : BoundedQueue α) (ops : List (QueueOp α)) : ∃ results q',
    q.fields.run ops = some (results, fields q') ∧ q'.capacity = q.capacity ∧
      Fifo.run q.capacity q.contents ops = (results, q'.contents) := by
  induction ops generalizing q with
  | nil => exact ⟨[], q, rfl, rfl, rfl⟩
  | cons op ops ih =>
      obtain ⟨result, q₁, hfields, hcapacity, hlist⟩ := q.perform_refines op
      obtain ⟨results, q₂, hrun, hcapacities, hruns⟩ := ih q₁
      rw [hcapacity] at hruns
      refine ⟨result :: results, q₂, ?_, hcapacities.trans hcapacity, ?_⟩
      · rw [RingBuffer.run, hfields]
        simp only [Option.bind_eq_bind, Option.bind_some, hrun]
      · rw [Fifo.run, hlist, hruns]

end BoundedQueue

namespace RingBuffer

/-- **The ring buffer refines the bounded list**: from an empty queue of any positive capacity, a
sequence of operations panics nowhere, returns what it returns on a list that starts empty, and
leaves the elements of that list. -/
theorem run_refines {α : Type} (capacity : ℕ) (hcapacity : 1 ≤ capacity) (ops : List (QueueOp α)) :
    ∃ results q, ((new capacity).bind fun q => q.run ops) = some (results, q) ∧
      Fifo.run capacity [] ops = (results, q.contents) ∧ q.contents.length ≤ capacity := by
  obtain ⟨empty, hnew⟩ : ∃ empty : BoundedQueue α, BoundedQueue.new capacity = some empty :=
    ⟨_, dif_pos hcapacity⟩
  have hempty : empty.capacity = capacity ∧ empty.contents = [] := by
    rw [BoundedQueue.new, dif_pos (show 0 < capacity from hcapacity)] at hnew
    obtain rfl := Option.some.inj hnew
    exact ⟨rfl, rfl⟩
  obtain ⟨results, q, hrun, hsame, hlist⟩ := empty.run_fields ops
  rw [hempty.1, hempty.2] at hlist
  refine ⟨results, q.fields, ?_, hlist, ?_⟩
  · rw [BoundedQueue.new_fields hnew, Option.bind_some, hrun]
  · rw [BoundedQueue.contents_fields, BoundedQueue.length_contents, ← hempty.1, ← hsame]
    exact q.len_le

/-- A queue of two slots whose contents wrap around, and which evicts twice. -/
theorem run_refines_two : ∃ results q,
    ((new 2).bind fun q => q.run [.push 1, .push 2, .pop, .pushWithPolicy 3 .dropOldest,
      .pushWithPolicy 4 .dropOldest, .pushWithPolicy 5 .dropNewest, .peekFront, .drainAll, .pop]) =
        some (results, q) ∧
      Fifo.run 2 [] [.push 1, .push 2, .pop, .pushWithPolicy 3 .dropOldest,
        .pushWithPolicy 4 .dropOldest, .pushWithPolicy 5 .dropNewest, .peekFront, .drainAll, .pop] =
          (results, q.contents) ∧ q.contents.length ≤ 2 :=
  run_refines 2 (by decide) _

end RingBuffer

end Torvyn.Reactor
