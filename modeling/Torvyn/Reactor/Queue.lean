/-
# The bounded queue

`BoundedQueue` of `torvyn-reactor/src/queue.rs`: a ring buffer of fixed capacity.
The structure carries the invariants that the source documents, so an operation
cannot build a queue that breaks them.  `contents` is the list a queue stands for,
and every operation is described by what it does to this list.
-/
import Torvyn.Types

namespace Torvyn.Reactor

/-! ## The ring buffer -/

/-- A FIFO ring buffer: the slots `head, head + 1, .., head + len - 1` (modulo the
capacity) are filled and the others are empty. -/
structure BoundedQueue (α : Type) where
  buf : List (Option α)
  head : ℕ
  len : ℕ
  capacity : ℕ
  capacity_pos : 0 < capacity
  buf_length : buf.length = capacity
  head_lt : head < capacity
  len_le : len ≤ capacity
  filled : ∀ i < len, ∃ a, buf[(head + i) % capacity]? = some (some a)
  vacant : ∀ i, len ≤ i → i < capacity → buf[(head + i) % capacity]? = some none

/-- The result of a push. -/
inductive PushResult (α : Type) where
  | ok
  | full (element : α)
  | droppedOldest (element : α)
  | droppedNewest (element : α)
  deriving DecidableEq, Repr

/-- Distinct offsets below the capacity address distinct slots. -/
theorem slot_inj {head i j cap : ℕ} (hi : i < cap) (hj : j < cap)
    (h : (head + i) % cap = (head + j) % cap) : i = j := by
  have hmod : i % cap = j % cap := Nat.ModEq.add_left_cancel' head h
  rwa [Nat.mod_eq_of_lt hi, Nat.mod_eq_of_lt hj] at hmod

namespace BoundedQueue

variable {α : Type}

/-- `BoundedQueue::new`, which panics on a capacity of zero. -/
def new (capacity : ℕ) : Option (BoundedQueue α) :=
  if h : 0 < capacity then
    some
      { buf := List.replicate capacity none
        head := 0
        len := 0
        capacity := capacity
        capacity_pos := h
        buf_length := List.length_replicate
        head_lt := h
        len_le := Nat.zero_le _
        filled := fun i hi => absurd hi (Nat.not_lt_zero i)
        vacant := fun i _ _ => by
          rw [List.getElem?_replicate, if_pos (Nat.mod_lt _ h)] }
  else none

/-- Whether the queue holds no element. -/
def isEmpty (q : BoundedQueue α) : Bool := q.len == 0

/-- Whether the queue is at capacity. -/
def isFull (q : BoundedQueue α) : Bool := q.len == q.capacity

/-- The slot the next element goes to. -/
def tail (q : BoundedQueue α) : ℕ := (q.head + q.len) % q.capacity

/-- Store an element at the tail of a queue that has room. -/
def enqueue (q : BoundedQueue α) (element : α) (h : q.len < q.capacity) : BoundedQueue α where
  buf := q.buf.set q.tail (some element)
  head := q.head
  len := q.len + 1
  capacity := q.capacity
  capacity_pos := q.capacity_pos
  buf_length := by rw [List.length_set, q.buf_length]
  head_lt := q.head_lt
  len_le := h
  filled := by
    intro i hi
    by_cases hlast : i = q.len
    · subst hlast
      refine ⟨element, List.getElem?_set_self ?_⟩
      rw [q.buf_length]
      exact Nat.mod_lt _ q.capacity_pos
    · have hne : q.tail ≠ (q.head + i) % q.capacity :=
        fun heq => hlast (slot_inj (by omega) h heq.symm)
      rw [List.getElem?_set_ne hne]
      exact q.filled i (by omega)
  vacant := by
    intro i hle hi
    have hne : q.tail ≠ (q.head + i) % q.capacity :=
      fun heq => absurd (slot_inj h hi heq) (by omega)
    rw [List.getElem?_set_ne hne]
    exact q.vacant i (by omega) hi

/-- `push`: an element that finds the queue full is handed back. -/
def push (q : BoundedQueue α) (element : α) : PushResult α × BoundedQueue α :=
  if h : q.len < q.capacity then (.ok, q.enqueue element h) else (.full element, q)

/-- Drop the element at the head of a nonempty queue and advance the head. -/
def dequeue (q : BoundedQueue α) (h : 0 < q.len) : BoundedQueue α where
  buf := q.buf.set q.head none
  head := (q.head + 1) % q.capacity
  len := q.len - 1
  capacity := q.capacity
  capacity_pos := q.capacity_pos
  buf_length := by rw [List.length_set, q.buf_length]
  head_lt := Nat.mod_lt _ q.capacity_pos
  len_le := le_trans (Nat.sub_le _ _) q.len_le
  filled := by
    intro i hi
    have hle := q.len_le
    rw [Nat.mod_add_mod, Nat.add_assoc, Nat.add_comm 1 i, List.getElem?_set_ne]
    · exact q.filled (i + 1) (by omega)
    · intro heq
      have hhead : (q.head + 0) % q.capacity = (q.head + (i + 1)) % q.capacity := by
        rw [Nat.add_zero, Nat.mod_eq_of_lt q.head_lt]
        exact heq
      exact absurd (slot_inj q.capacity_pos (by omega) hhead) (by omega)
  vacant := by
    intro i hle hi
    rw [Nat.mod_add_mod, Nat.add_assoc, Nat.add_comm 1 i]
    by_cases hlast : i + 1 = q.capacity
    · -- the slot just vacated
      rw [hlast, Nat.add_mod_right, Nat.mod_eq_of_lt q.head_lt, List.getElem?_set_self]
      rw [q.buf_length]
      exact q.head_lt
    · rw [List.getElem?_set_ne]
      · exact q.vacant (i + 1) (by omega) (by omega)
      · intro heq
        have hhead : (q.head + 0) % q.capacity = (q.head + (i + 1)) % q.capacity := by
          rw [Nat.add_zero, Nat.mod_eq_of_lt q.head_lt]
          exact heq
        exact absurd (slot_inj q.capacity_pos (by omega) hhead) (by omega)

/-- The element at the offset `i` from the head. -/
def slot? (q : BoundedQueue α) (i : ℕ) : Option α := q.buf[(q.head + i) % q.capacity]?.join

/-- `pop`.  A nonempty queue has an element at its head (`slot?_isSome`), so the
`expect` of the source cannot fail. -/
def pop (q : BoundedQueue α) : Option α × BoundedQueue α :=
  if h : 0 < q.len then (q.slot? 0, q.dequeue h) else (none, q)

/-- `peek_front`. -/
def peekFront (q : BoundedQueue α) : Option α := if 0 < q.len then q.slot? 0 else none

/-- The loop of `drain_all`. -/
def drainLoop : ℕ → BoundedQueue α → List α × BoundedQueue α
  | 0, q => ([], q)
  | n + 1, q =>
      match q.pop with
      | (none, q') => ([], q')
      | (some a, q') => (a :: (drainLoop n q').1, (drainLoop n q').2)

/-- `drain_all`: pop until the queue is empty. -/
def drainAll (q : BoundedQueue α) : List α × BoundedQueue α := drainLoop q.len q

/-! ## The list a queue stands for -/

/-- The elements in order, the oldest first. -/
def contents (q : BoundedQueue α) : List α := (List.range q.len).filterMap q.slot?

/-- The slots from the head up to the length are filled. -/
theorem slot?_isSome (q : BoundedQueue α) {i : ℕ} (hi : i < q.len) : (q.slot? i).isSome := by
  obtain ⟨a, ha⟩ := q.filled i hi
  simp [slot?, ha]

/-- The contents have the length of the queue. -/
@[simp] theorem length_contents (q : BoundedQueue α) : q.contents.length = q.len := by
  unfold contents
  rw [List.filterMap_length_eq_length.mpr, List.length_range]
  intro i hi
  exact q.slot?_isSome (List.mem_range.mp hi)

/-- An enqueued element comes last. -/
theorem contents_enqueue (q : BoundedQueue α) (element : α) (h : q.len < q.capacity) :
    (q.enqueue element h).contents = q.contents ++ [element] := by
  have hold : ∀ i ∈ List.range q.len, (q.enqueue element h).slot? i = q.slot? i := by
    intro i hi
    have hi := List.mem_range.mp hi
    have hne : q.tail ≠ (q.head + i) % q.capacity :=
      fun heq => absurd (slot_inj h (by omega) heq) (by omega)
    simp only [slot?, enqueue, List.getElem?_set_ne hne]
  have hnew : (q.enqueue element h).slot? q.len = some element := by
    have htail : q.tail < q.buf.length := by
      rw [q.buf_length]
      exact Nat.mod_lt _ q.capacity_pos
    show ((q.buf.set q.tail (some element))[q.tail]?).join = some element
    rw [List.getElem?_set_self htail]
    rfl
  show (List.range (q.len + 1)).filterMap _ = _
  rw [List.range_succ, List.filterMap_append, List.filterMap_congr hold]
  simp [contents, hnew]

/-- The dequeued element came first. -/
theorem contents_dequeue (q : BoundedQueue α) (h : 0 < q.len) :
    q.contents = (q.slot? 0).toList ++ (q.dequeue h).contents := by
  have hshift : ∀ i ∈ List.range (q.len - 1), (q.dequeue h).slot? i = q.slot? (i + 1) := by
    intro i hi
    have hi := List.mem_range.mp hi
    have hle := q.len_le
    have hne : q.head ≠ (q.head + (i + 1)) % q.capacity := by
      intro heq
      have hhead : (q.head + 0) % q.capacity = (q.head + (i + 1)) % q.capacity := by
        rw [Nat.add_zero, Nat.mod_eq_of_lt q.head_lt]
        exact heq
      exact absurd (slot_inj q.capacity_pos (by omega) hhead) (by omega)
    simp only [slot?, dequeue, Nat.mod_add_mod]
    rw [Nat.add_assoc, Nat.add_comm 1 i, List.getElem?_set_ne hne]
  obtain ⟨a, ha⟩ := Option.isSome_iff_exists.mp (q.slot?_isSome h)
  have hlen : q.len = (q.len - 1) + 1 := by omega
  unfold contents
  rw [hlen, List.range_succ_eq_map, List.filterMap_cons, ha, List.filterMap_map]
  show a :: _ = [a] ++ (List.range (q.len - 1)).filterMap _
  rw [List.singleton_append, List.filterMap_congr hshift]
  rfl

/-! ## The operations on the contents -/

@[simp] theorem len_enqueue (q : BoundedQueue α) (element : α) (h : q.len < q.capacity) :
    (q.enqueue element h).len = q.len + 1 := rfl

@[simp] theorem capacity_enqueue (q : BoundedQueue α) (element : α) (h : q.len < q.capacity) :
    (q.enqueue element h).capacity = q.capacity := rfl

@[simp] theorem len_dequeue (q : BoundedQueue α) (h : 0 < q.len) :
    (q.dequeue h).len = q.len - 1 := rfl

@[simp] theorem capacity_dequeue (q : BoundedQueue α) (h : 0 < q.len) :
    (q.dequeue h).capacity = q.capacity := rfl

theorem isEmpty_iff {q : BoundedQueue α} : q.isEmpty = true ↔ q.len = 0 := by
  simp [isEmpty]

theorem isFull_iff {q : BoundedQueue α} : q.isFull = true ↔ q.len = q.capacity := by
  simp [isFull]

/-- A push into a queue with room appends the element. -/
theorem push_of_lt {q : BoundedQueue α} (element : α) (h : q.len < q.capacity) :
    q.push element = (.ok, q.enqueue element h) := by
  rw [push, dif_pos h]

/-- A push into a full queue hands the element back and changes nothing. -/
theorem push_of_full {q : BoundedQueue α} (element : α) (h : q.len = q.capacity) :
    q.push element = (.full element, q) := by
  rw [push, dif_neg (by omega)]

/-- A push succeeds exactly when the queue is not full. -/
theorem push_fst_eq_ok_iff {q : BoundedQueue α} {element : α} :
    (q.push element).1 = .ok ↔ q.isFull = false := by
  have hle := q.len_le
  rw [← Bool.not_eq_true, isFull_iff]
  by_cases h : q.len < q.capacity
  · simp [push_of_lt element h]
    omega
  · have hfull : q.len = q.capacity := by omega
    simp [push_of_full element hfull, hfull]

/-- A push never changes the capacity. -/
@[simp] theorem capacity_push (q : BoundedQueue α) (element : α) :
    (q.push element).2.capacity = q.capacity := by
  unfold push
  split <;> rfl

/-- The contents after a push. -/
theorem contents_push (q : BoundedQueue α) (element : α) :
    (q.push element).2.contents =
      if q.isFull then q.contents else q.contents ++ [element] := by
  have hle := q.len_le
  by_cases h : q.len < q.capacity
  · rw [push_of_lt element h, contents_enqueue, if_neg]
    rw [isFull_iff]
    omega
  · have hfull : q.len = q.capacity := by omega
    rw [push_of_full element hfull, if_pos (isFull_iff.mpr hfull)]

/-- A pop from a nonempty queue returns the first element and leaves the others. -/
theorem pop_of_pos {q : BoundedQueue α} (h : 0 < q.len) :
    ∃ a, q.pop = (some a, q.dequeue h) ∧ q.contents = a :: (q.dequeue h).contents := by
  obtain ⟨a, ha⟩ := Option.isSome_iff_exists.mp (q.slot?_isSome h)
  refine ⟨a, by rw [pop, dif_pos h, ha], ?_⟩
  rw [contents_dequeue q h, ha]
  rfl

/-- A pop from an empty queue returns nothing. -/
theorem pop_of_empty {q : BoundedQueue α} (h : q.len = 0) : q.pop = (none, q) := by
  rw [pop, dif_neg (by omega)]

/-- Peeking shows the first element. -/
theorem peekFront_eq (q : BoundedQueue α) : q.peekFront = q.contents.head? := by
  by_cases h : 0 < q.len
  · obtain ⟨a, hpop, hcontents⟩ := pop_of_pos h
    rw [pop, dif_pos h, Prod.mk.injEq] at hpop
    rw [peekFront, if_pos h, hpop.1, hcontents, List.head?_cons]
  · have hnil : q.contents = [] := by
      apply List.eq_nil_of_length_eq_zero
      rw [length_contents]
      omega
    rw [peekFront, if_neg h, hnil, List.head?_nil]

/-- A pop never changes the capacity. -/
@[simp] theorem capacity_pop (q : BoundedQueue α) : q.pop.2.capacity = q.capacity := by
  unfold pop
  split <;> rfl

/-- Draining returns the contents and leaves the queue empty. -/
theorem drainAll_spec (q : BoundedQueue α) :
    q.drainAll.1 = q.contents ∧ q.drainAll.2.len = 0 := by
  suffices h : ∀ n, ∀ q : BoundedQueue α, q.len = n →
      (drainLoop n q).1 = q.contents ∧ (drainLoop n q).2.len = 0 from h q.len q rfl
  intro n
  induction n with
  | zero =>
      intro q hq
      have hlen := q.length_contents
      rw [hq] at hlen
      exact ⟨(List.eq_nil_of_length_eq_zero hlen).symm, hq⟩
  | succ n ih =>
      intro q hq
      obtain ⟨a, hpop, hcontents⟩ := pop_of_pos (q := q) (by omega)
      obtain ⟨hrest, hempty⟩ := ih (q.dequeue (by omega)) (by rw [len_dequeue]; omega)
      rw [drainLoop, hpop]
      exact ⟨by simp only [hrest, hcontents], hempty⟩

/-- Draining keeps the capacity. -/
@[simp] theorem capacity_drainAll (q : BoundedQueue α) : q.drainAll.2.capacity = q.capacity := by
  suffices h : ∀ n, ∀ q : BoundedQueue α, (drainLoop n q).2.capacity = q.capacity from h q.len q
  intro n
  induction n with
  | zero => exact fun q => rfl
  | succ n ih =>
      intro q
      by_cases hpos : 0 < q.len
      · obtain ⟨a, hpop, -⟩ := pop_of_pos hpos
        rw [drainLoop, hpop]
        exact ih _
      · rw [drainLoop, pop_of_empty (by omega)]

/-! ## Pushing under a backpressure policy -/

/-- Put an element in the place of the oldest one of a full queue, and advance the head. -/
def replaceOldest (q : BoundedQueue α) (element : α) (h : q.len = q.capacity) :
    BoundedQueue α where
  buf := q.buf.set q.head (some element)
  head := (q.head + 1) % q.capacity
  len := q.len
  capacity := q.capacity
  capacity_pos := q.capacity_pos
  buf_length := by rw [List.length_set, q.buf_length]
  head_lt := Nat.mod_lt _ q.capacity_pos
  len_le := q.len_le
  filled := by
    intro i hi
    rw [Nat.mod_add_mod, Nat.add_assoc, Nat.add_comm 1 i]
    by_cases hlast : i + 1 = q.capacity
    · -- the slot of the oldest element, which is now the last one
      rw [hlast, Nat.add_mod_right, Nat.mod_eq_of_lt q.head_lt]
      refine ⟨element, List.getElem?_set_self ?_⟩
      rw [q.buf_length]
      exact q.head_lt
    · rw [List.getElem?_set_ne]
      · exact q.filled (i + 1) (by omega)
      · intro heq
        have hhead : (q.head + 0) % q.capacity = (q.head + (i + 1)) % q.capacity := by
          rw [Nat.add_zero, Nat.mod_eq_of_lt q.head_lt]
          exact heq
        exact absurd (slot_inj q.capacity_pos (by omega) hhead) (by omega)
  vacant := fun i hle hi => absurd hle (by omega)

/-- `push_with_policy`.  The head slot of a full queue is filled (`slot?_isSome`), so the
`expect` of the source cannot fail. -/
def pushWithPolicy (q : BoundedQueue α) (element : α) (policy : BackpressurePolicy) :
    PushResult α × BoundedQueue α :=
  if h : q.len < q.capacity then (.ok, q.enqueue element h)
  else
    have hfull : q.len = q.capacity := by
      have hle := q.len_le
      omega
    match policy with
    | .blockProducer | .error => (.full element, q)
    | .dropOldest =>
        have hpos : 0 < q.len := by
          have hcapacity := q.capacity_pos
          omega
        (.droppedOldest ((q.slot? 0).get (q.slot?_isSome hpos)), q.replaceOldest element hfull)
    | .dropNewest => (.droppedNewest element, q)

/-- The oldest element goes and the new one comes last. -/
theorem contents_replaceOldest (q : BoundedQueue α) (element : α) (h : q.len = q.capacity) :
    (q.replaceOldest element h).contents = q.contents.tail ++ [element] := by
  have hcapacity := q.capacity_pos
  have hpos : 0 < q.len := by omega
  have hroom : (q.dequeue hpos).len < (q.dequeue hpos).capacity := by
    show q.len - 1 < q.capacity
    omega
  obtain ⟨a, -, hcontents⟩ := pop_of_pos hpos
  -- the tail of the dequeued queue is the slot that has just become free
  have htail : (q.dequeue hpos).tail = q.head := by
    show ((q.head + 1) % q.capacity + (q.len - 1)) % q.capacity = q.head
    rw [Nat.mod_add_mod, show q.head + 1 + (q.len - 1) = q.head + q.capacity by omega,
      Nat.add_mod_right, Nat.mod_eq_of_lt q.head_lt]
  have heq : q.replaceOldest element h = (q.dequeue hpos).enqueue element hroom := by
    have hbuf : q.buf.set q.head (some element) =
        (q.buf.set q.head none).set (q.dequeue hpos).tail (some element) := by
      rw [htail, List.set_set]
    have hlen : q.len = q.len - 1 + 1 := by omega
    unfold replaceOldest enqueue
    simp only [mk.injEq]
    exact ⟨hbuf, rfl, hlen, rfl⟩
  rw [heq, contents_enqueue, hcontents, List.tail_cons]

/-- The contents after a push under a policy. -/
theorem contents_pushWithPolicy (q : BoundedQueue α) (element : α) (policy : BackpressurePolicy) :
    (q.pushWithPolicy element policy).2.contents =
      if q.isFull = false then q.contents ++ [element]
      else if policy = .dropOldest then q.contents.tail ++ [element] else q.contents := by
  have hle := q.len_le
  by_cases h : q.len < q.capacity
  · have hroom : q.isFull = false := by
      rw [← Bool.not_eq_true, isFull_iff]
      omega
    rw [pushWithPolicy, dif_pos h, if_pos hroom, contents_enqueue]
  · have hfull : q.isFull = true := by
      rw [isFull_iff]
      omega
    rw [pushWithPolicy, dif_neg h, hfull, if_neg (by simp)]
    cases policy with
    | dropOldest => exact contents_replaceOldest q element (by omega)
    | _ => rfl

/-- A push under a policy never changes the capacity. -/
@[simp] theorem capacity_pushWithPolicy (q : BoundedQueue α) (element : α)
    (policy : BackpressurePolicy) : (q.pushWithPolicy element policy).2.capacity = q.capacity := by
  unfold pushWithPolicy
  split
  · rfl
  · cases policy <;> rfl

end BoundedQueue

end Torvyn.Reactor
