/-
# The free stack under concurrency

The free list of a pool is a Treiber stack: `pop` and `push` of `pool.rs` are loops of atomic
steps, and the pool is used outside the lock of the manager, so the steps of any number of
threads interleave. The head is a slot index packed with a tag that every successful swap of
the head increments.

As long as fewer than 2^32 swaps happen during one operation, the tag tells a head that has
changed from one that has not. Then every slot is on the free list, held by one thread, or
being pushed by one thread.
-/
import Mathlib.Logic.Relation
import Torvyn.Resources.Pool

namespace Torvyn

namespace FreeStack

/-! ## The packed head -/

/-- The slot index of a packed head. -/
def headIndex (head : ℕ) : ℕ := head % 2 ^ 32

/-- The tag of a packed head. -/
def headTag (head : ℕ) : ℕ := (head >>> 32) % 2 ^ 32

/-- Pack a tag and a slot index. -/
def makeHead (tag index : ℕ) : ℕ := (tag <<< 32) ||| index

@[simp] theorem headIndex_makeHead {tag index : ℕ} (h : index < 2 ^ 32) :
    headIndex (makeHead tag index) = index := by
  rw [headIndex, makeHead, Nat.or_mod_two_pow, Nat.shiftLeft_eq, Nat.mul_mod_left,
    Nat.mod_eq_of_lt h, Nat.zero_or]

@[simp] theorem headTag_makeHead {tag index : ℕ} (htag : tag < 2 ^ 32) (h : index < 2 ^ 32) :
    headTag (makeHead tag index) = tag := by
  have hindex : index >>> 32 = 0 := by
    rw [Nat.shiftRight_eq_div_pow, Nat.div_eq_of_lt h]
  rw [headTag, makeHead, Nat.shiftRight_or_distrib, hindex, Nat.or_zero, Nat.shiftLeft_shiftRight,
    Nat.mod_eq_of_lt htag]

/-! ## Threads and their steps -/

/-- Where a thread is in `pop` or `push`, with what it has read so far. -/
inductive Pc where
  | idle
  /-- about to load the head -/
  | popLoad
  /-- about to load the link of the head's slot -/
  | popNext (head : ℕ)
  /-- about to swap the head for the link -/
  | popSwap (head next : ℕ)
  /-- about to count the slot as taken -/
  | popCount
  /-- about to load the head -/
  | pushLoad (i : ℕ)
  /-- about to store the head's index as the link of the slot -/
  | pushStore (i head : ℕ)
  /-- about to swap the head for the slot -/
  | pushSwap (i head : ℕ)
  /-- about to count the slot as available -/
  | pushCount
  deriving DecidableEq, Repr

/-- The slot that is being pushed. -/
def Pc.pushing : Pc → Option ℕ
  | .pushLoad i | .pushStore i _ | .pushSwap i _ => some i
  | _ => none

/-- The shared words of a pool, and the threads with the slots that they hold. The number of
swaps of the head so far, and for each thread that number at the start of its operation, are
ghosts that no step reads. -/
structure State (Thread : Type*) where
  freeTop : ℕ
  nextFree : ℕ → ℕ
  available : ℕ
  pc : Thread → Pc
  held : Thread → Finset ℕ
  swings : ℕ
  started : Thread → ℕ

variable {Thread : Type*}

section Steps

variable [DecidableEq Thread]

namespace State

/-- A thread goes on to another point of its operation. -/
def goto (t : Thread) (pc : Pc) (s : State Thread) : State Thread :=
  { s with pc := Function.update s.pc t pc }

/-- A thread starts an operation. -/
def start (t : Thread) (pc : Pc) (s : State Thread) : State Thread :=
  { s.goto t pc with started := Function.update s.started t s.swings }

end State

/-- One atomic step of a thread. A weak compare-and-swap may fail although the head is the
expected one. -/
inductive Step (s : State Thread) : State Thread → Prop where
  | popStart (t : Thread) : s.pc t = .idle → Step s (s.start t .popLoad)
  /-- the stack is empty: `pop` returns nothing -/
  | popEmpty (t : Thread) : s.pc t = .popLoad →
      headIndex s.freeTop = stackEmpty → Step s (s.goto t .idle)
  | popLoad (t : Thread) : s.pc t = .popLoad →
      headIndex s.freeTop ≠ stackEmpty → Step s (s.goto t (.popNext s.freeTop))
  | popNext (t : Thread) (head : ℕ) : s.pc t = .popNext head →
      Step s (s.goto t (.popSwap head (s.nextFree (headIndex head))))
  | popRetry (t : Thread) (head next : ℕ) : s.pc t = .popSwap head next →
      Step s (s.goto t .popLoad)
  | popSwap (t : Thread) (head next : ℕ) : s.pc t = .popSwap head next →
      s.freeTop = head →
      Step s
        { s.goto t .popCount with
          freeTop := makeHead ((headTag head + 1) % 2 ^ 32) next
          held := Function.update s.held t (insert (headIndex head) (s.held t))
          swings := s.swings + 1 }
  /-- `pop` returns the slot -/
  | popCount (t : Thread) : s.pc t = .popCount →
      Step s { s.goto t .idle with available := (s.available + 2 ^ 32 - 1) % 2 ^ 32 }
  /-- a thread pushes a slot that it holds -/
  | pushStart (t : Thread) (i : ℕ) : s.pc t = .idle → i ∈ s.held t →
      Step s { s.start t (.pushLoad i) with
        held := Function.update s.held t ((s.held t).erase i) }
  | pushLoad (t : Thread) (i : ℕ) : s.pc t = .pushLoad i →
      Step s (s.goto t (.pushStore i s.freeTop))
  | pushStore (t : Thread) (i head : ℕ) : s.pc t = .pushStore i head →
      Step s { s.goto t (.pushSwap i head) with
        nextFree := Function.update s.nextFree i (headIndex head) }
  | pushRetry (t : Thread) (i head : ℕ) : s.pc t = .pushSwap i head →
      Step s (s.goto t (.pushLoad i))
  | pushSwap (t : Thread) (i head : ℕ) : s.pc t = .pushSwap i head →
      s.freeTop = head →
      Step s
        { s.goto t .pushCount with
          freeTop := makeHead ((headTag head + 1) % 2 ^ 32) i
          swings := s.swings + 1 }
  /-- `push` returns -/
  | pushCount (t : Thread) : s.pc t = .pushCount →
      Step s { s.goto t .idle with available := (s.available + 1) % 2 ^ 32 }

/-- The number of slots of a pool. A pool that is not preallocated has none. -/
def slotCount (config : TierConfig) : ℕ :=
  if config.preallocate then config.poolSize.toNat else 0

/-- The state of a new pool: its slots are linked in order, and no thread has one. -/
def State.new (config : TierConfig) : State Thread where
  freeTop :=
    makeHead 0 (if config.preallocate ∧ 0 < config.poolSize.toNat then 0 else stackEmpty)
  nextFree i := if i + 1 < config.poolSize.toNat then i + 1 else stackEmpty
  available := if config.preallocate then config.poolSize.toNat else 0
  pc _ := .idle
  held _ := ∅
  swings := 0
  started _ := 0

end Steps

/-- Fewer than 2^32 swaps of the head have happened during each operation in progress. -/
def Fresh (s : State Thread) : Prop :=
  ∀ t, s.pc t ≠ .idle → s.swings - s.started t < 2 ^ 32

/-- The states that threads reach, in any interleaving, while no operation lasts for 2^32
swaps of the head. -/
def Reachable [DecidableEq Thread] (config : TierConfig) : State Thread → Prop :=
  Relation.ReflTransGen (fun s s' => Step s s' ∧ Fresh s') (State.new config)

/-! ## The invariant -/

namespace State

/-- The link of a slot. -/
def next (n : ℕ) (s : State Thread) (i : ℕ) : Option ℕ :=
  if i < n then some (s.nextFree i) else none

/-- A slot belongs to a thread that holds it or is pushing it. -/
def Has (s : State Thread) (t : Thread) (i : ℕ) : Prop :=
  i ∈ s.held t ∨ (s.pc t).pushing = some i

/-- A thread has read the head when `v` swaps had been made; if none has been made since,
then `P` holds. -/
def Read (s : State Thread) (t : Thread) (head : ℕ) (P : Prop) : Prop :=
  ∃ v, s.started t ≤ v ∧ v ≤ s.swings ∧ headTag head = v % 2 ^ 32 ∧ (v = s.swings → P)

/-- What a thread knows of the shared words. -/
def Knows (n : ℕ) (s : State Thread) (t : Thread) : Prop :=
  match s.pc t with
  | .popNext head =>
    s.Read t head (s.freeTop = head) ∧ headIndex head < n
  | .popSwap head next =>
    s.Read t head (s.freeTop = head ∧ s.nextFree (headIndex head) = next) ∧ headIndex head < n
  | .pushStore _ head => s.Read t head (s.freeTop = head)
  | .pushSwap i head => s.Read t head (s.freeTop = head) ∧ s.nextFree i = headIndex head
  | _ => True

end State

/-- The free list is `l`; each slot is on it or belongs to one thread; the tag counts the
swaps, and the threads `taken` and `returned` have yet to count theirs. -/
structure Invariant (n : ℕ) (s : State Thread) (l : List ℕ) (taken returned : Finset Thread) :
    Prop where
  free : FreeList (s.next n) stackEmpty (headIndex s.freeTop) l
  tag : headTag s.freeTop = s.swings % 2 ^ 32
  unique : ∀ t u i, s.Has t i → s.Has u i → t = u
  once : ∀ t i, (s.pc t).pushing = some i → i ∉ s.held t
  has : ∀ i, (∃ t, s.Has t i) ↔ i < n ∧ i ∉ l
  started : ∀ t, s.pc t ≠ .idle → s.started t ≤ s.swings
  knows : ∀ t, s.Knows n t
  mem_taken : ∀ t, t ∈ taken ↔ s.pc t = .popCount
  mem_returned : ∀ t, t ∈ returned ↔ s.pc t = .pushCount
  count : (s.available + returned.card) % 2 ^ 32 = (l.length + taken.card) % 2 ^ 32
  range : s.available < 2 ^ 32

/-- A step of thread `t` leaves the other threads where they are. -/
structure Moves (t : Thread) (s s' : State Thread) : Prop where
  pc : ∀ u, u ≠ t → s'.pc u = s.pc u
  started : ∀ u, u ≠ t → s'.started u = s.started u

section Moves

variable [DecidableEq Thread]

theorem Moves.goto (t : Thread) (pc : Pc) (s : State Thread) : Moves t s (s.goto t pc) :=
  ⟨fun _ hu => Function.update_of_ne hu _ _, fun _ _ => rfl⟩

theorem Moves.start (t : Thread) (pc : Pc) (s : State Thread) : Moves t s (s.start t pc) :=
  ⟨fun _ hu => Function.update_of_ne hu _ _, fun _ hu => Function.update_of_ne hu _ _⟩

@[simp] theorem goto_pc (t : Thread) (pc : Pc) (s : State Thread) : (s.goto t pc).pc t = pc :=
  Function.update_self _ _ _

@[simp] theorem start_pc (t : Thread) (pc : Pc) (s : State Thread) : (s.start t pc).pc t = pc :=
  Function.update_self _ _ _

end Moves

section Reads

variable {n : ℕ} {s s' : State Thread} {t : Thread} {head : ℕ} {P P' : Prop}

/-- What is read now is what is there. -/
theorem State.Read.now (hstarted : s.started t ≤ s.swings)
    (htag : headTag s.freeTop = s.swings % 2 ^ 32) (hP : P) : s.Read t s.freeTop P :=
  ⟨s.swings, hstarted, le_refl _, htag, fun _ => hP⟩

/-- A step that swaps no head keeps what has been read. -/
theorem State.Read.keep (h : s.Read t head P) (hstarted : s'.started t = s.started t)
    (hswings : s'.swings = s.swings) (hP : P → P') : s'.Read t head P' := by
  obtain ⟨v, hle, hle', htag, hnow⟩ := h
  refine ⟨v, hstarted ▸ hle, hswings ▸ hle', htag, fun hv => hP (hnow ?_)⟩
  rw [hv, hswings]

/-- After a swap, what has been read is out of date. -/
theorem State.Read.outdate (h : s.Read t head P) (hstarted : s'.started t = s.started t)
    (hswings : s'.swings = s.swings + 1) : s'.Read t head P' := by
  obtain ⟨v, hle, hle', htag, -⟩ := h
  exact ⟨v, hstarted ▸ hle, by omega, htag, fun hv => by omega⟩

/-- **The tag tells whether the head has changed**: a swap that finds the head that was read
finds it unchanged since. -/
theorem State.Read.current (h : s.Read t head P) (htag : headTag s.freeTop = s.swings % 2 ^ 32)
    (heq : s.freeTop = head) (hfresh : s.swings - s.started t < 2 ^ 32) : P := by
  obtain ⟨v, hle, hle', htag', hnow⟩ := h
  rw [← heq, htag] at htag'
  exact hnow (by omega)

/-- A step of another thread that swaps no head keeps what a thread knows. -/
theorem State.Knows.keep {u : Thread} {l : List ℕ} (h : s.Knows n u) (hmoves : Moves t s s')
    (hu : u ≠ t) (hn : n ≤ stackEmpty)
    (hfree : FreeList (s.next n) stackEmpty (headIndex s.freeTop) l)
    (hswings : s'.swings = s.swings) (htop : s'.freeTop = s.freeTop)
    (hnext : ∀ i, i ∈ l ∨ (s.pc u).pushing = some i → s'.nextFree i = s.nextFree i) :
    s'.Knows n u := by
  have hstarted := hmoves.started u hu
  unfold State.Knows at h ⊢
  rw [hmoves.pc u hu]
  cases hpc : s.pc u with
  | popNext head =>
    rw [hpc] at h
    refine ⟨h.1.keep hstarted hswings fun heq => ?_, h.2⟩
    rw [htop, heq]
  | popSwap head next =>
    rw [hpc] at h
    refine ⟨h.1.keep hstarted hswings fun ⟨heq, hlink⟩ => ⟨by rw [htop, heq], ?_⟩, h.2⟩
    -- the slot that was read is still the first one of the free list
    have hne : headIndex s.freeTop ≠ stackEmpty := by
      have hlt := h.2
      rw [← heq] at hlt
      omega
    obtain ⟨j, rest, -, rfl, -⟩ := hfree.pop hne
    rw [← heq] at hlink ⊢
    rw [hnext _ (.inl List.mem_cons_self), hlink]
  | pushStore i head =>
    rw [hpc] at h
    refine h.keep hstarted hswings fun heq => ?_
    rw [htop, heq]
  | pushSwap i head =>
    rw [hpc] at h
    refine ⟨h.1.keep hstarted hswings fun heq => by rw [htop, heq], ?_⟩
    rw [hnext i (.inr (by rw [hpc]; rfl)), h.2]
  | _ => trivial

/-- A swap by another thread keeps what a thread knows. -/
theorem State.Knows.outdate {u : Thread} (h : s.Knows n u) (hmoves : Moves t s s') (hu : u ≠ t)
    (hswings : s'.swings = s.swings + 1) (hnext : s'.nextFree = s.nextFree) : s'.Knows n u := by
  have hstarted := hmoves.started u hu
  unfold State.Knows at h ⊢
  rw [hmoves.pc u hu]
  cases hpc : s.pc u with
  | popNext head =>
    rw [hpc] at h
    exact ⟨h.1.outdate hstarted hswings, h.2⟩
  | popSwap head next =>
    rw [hpc] at h
    exact ⟨h.1.outdate hstarted hswings, h.2⟩
  | pushStore i head =>
    rw [hpc] at h
    exact h.outdate hstarted hswings
  | pushSwap i head =>
    rw [hpc] at h
    exact ⟨h.1.outdate hstarted hswings, by rw [hnext, h.2]⟩
  | _ => trivial

end Reads

namespace Invariant

variable {n : ℕ} {s s' : State Thread} {l : List ℕ} {taken returned : Finset Thread} {t : Thread}

/-- A thread goes on without touching the shared words or its slots. -/
theorem move (h : Invariant n s l taken returned) (hn : n ≤ stackEmpty) (hmoves : Moves t s s')
    (htop : s'.freeTop = s.freeTop) (hnext : s'.nextFree = s.nextFree)
    (havailable : s'.available = s.available) (hheld : s'.held = s.held)
    (hswings : s'.swings = s.swings) (hpushing : (s'.pc t).pushing = (s.pc t).pushing)
    (hbefore : s.pc t ≠ .popCount ∧ s.pc t ≠ .pushCount)
    (hafter : s'.pc t ≠ .popCount ∧ s'.pc t ≠ .pushCount)
    (hstarted : s'.pc t ≠ .idle → s'.started t ≤ s'.swings) (hknows : s'.Knows n t) :
    Invariant n s' l taken returned := by
  have hpush : ∀ u, (s'.pc u).pushing = (s.pc u).pushing := by
    intro u
    by_cases hu : u = t
    · rw [hu, hpushing]
    · rw [hmoves.pc u hu]
  have hhas : ∀ u i, s'.Has u i ↔ s.Has u i := by
    intro u i
    simp only [State.Has, hheld, hpush]
  have hat : ∀ u pc, s'.pc t ≠ pc → s.pc t ≠ pc → (s'.pc u = pc ↔ s.pc u = pc) := by
    intro u pc h' h
    by_cases hu : u = t
    · subst hu
      exact iff_of_false h' h
    · rw [hmoves.pc u hu]
  refine ⟨?_, ?_, ?_, ?_, ?_, ?_, ?_, ?_, ?_, ?_, ?_⟩
  · rw [htop]
    refine h.free.congr fun i _ => ?_
    rw [State.next, State.next, hnext]
  · rw [htop, hswings, h.tag]
  · intro u v i hu hv
    exact h.unique u v i ((hhas u i).1 hu) ((hhas v i).1 hv)
  · intro u i hu
    rw [hheld]
    exact h.once u i ((hpush u).symm.trans hu)
  · intro i
    simp only [hhas]
    exact h.has i
  · intro u hu
    by_cases heq : u = t
    · subst heq
      exact hstarted hu
    · rw [hmoves.pc u heq] at hu
      rw [hmoves.started u heq, hswings]
      exact h.started u hu
  · intro u
    by_cases heq : u = t
    · subst heq
      exact hknows
    · exact (h.knows u).keep hmoves heq hn h.free hswings htop fun i _ => by rw [hnext]
  · intro u
    rw [h.mem_taken, hat u _ hafter.1 hbefore.1]
  · intro u
    rw [h.mem_returned, hat u _ hafter.2 hbefore.2]
  · rw [havailable, h.count]
  · rw [havailable]
    exact h.range

/-- The slots of the free list are slots of the pool. -/
theorem lt_of_mem (h : Invariant n s l taken returned) {i : ℕ} (hi : i ∈ l) : i < n := by
  have hlinked := h.free.chain.linked i hi
  unfold State.next at hlinked
  split_ifs at hlinked with hlt
  · exact hlt
  · cases hlinked

/-- A slot of a thread is a slot of the pool that is not free. -/
theorem not_free (h : Invariant n s l taken returned) {i : ℕ} (hi : s.Has t i) : i < n ∧ i ∉ l :=
  (h.has i).1 ⟨t, hi⟩

/-- The index of the head is that of a slot or the sentinel. -/
theorem link_lt {head : ℕ} {rest : List ℕ} (hn : n ≤ stackEmpty)
    (hfree : FreeList (s.next n) stackEmpty head rest) : head < 2 ^ 32 := by
  by_cases hempty : head = stackEmpty
  · rw [hempty]
    decide
  · obtain ⟨j, _, hj, -, -⟩ := hfree.pop hempty
    unfold State.next at hj
    split_ifs at hj with hlt
    unfold stackEmpty at hn
    omega

/-- A new pool has all of its slots on the free list. -/
theorem new (config : TierConfig) :
    Invariant (slotCount config) (State.new config : State Thread)
      (List.range' 0 (slotCount config)) ∅ ∅ := by
  have hsize : config.poolSize.toNat ≤ stackEmpty := by
    have := config.poolSize.toNat_lt
    unfold stackEmpty
    omega
  have htop : (if config.preallocate ∧ 0 < config.poolSize.toNat then 0 else stackEmpty) =
      if 0 < slotCount config then 0 else stackEmpty := by
    unfold slotCount
    cases config.preallocate <;> simp
  have hlt : (if 0 < slotCount config then 0 else stackEmpty) < 2 ^ 32 := by
    split_ifs <;> decide
  have hcount : slotCount config ≤ stackEmpty := by
    unfold slotCount
    split_ifs <;> omega
  have hhas : ∀ t i, ¬(State.new config : State Thread).Has t i := by
    rintro t i (h | h)
    · exact Finset.notMem_empty i h
    · cases h
  refine ⟨?_, ?_, ?_, ?_, ?_, ?_, ?_, ?_, ?_, ?_, ?_⟩
  · show FreeList _ _ (headIndex (makeHead 0 _)) _
    rw [htop, headIndex_makeHead hlt]
    refine FreeList.range' _ 0 hcount fun i _ hi => ?_
    rw [State.next, if_pos hi]
    unfold slotCount at hi ⊢
    split_ifs at hi ⊢ <;> simp_all [State.new]
  · show headTag (makeHead 0 _) = 0 % 2 ^ 32
    rw [htop, headTag_makeHead (by decide) hlt, Nat.zero_mod]
  · intro t u i ht
    exact absurd ht (hhas t i)
  · intro t i ht
    cases ht
  · intro i
    simp [hhas, List.mem_range']
  · intro t ht
    exact absurd rfl ht
  · intro t
    trivial
  · intro t
    simp [State.new]
  · intro t
    simp [State.new]
  · show ((if config.preallocate then config.poolSize.toNat else 0) + 0) % _ = _
    simp [slotCount]
  · show (if config.preallocate then config.poolSize.toNat else 0) < _
    have := config.poolSize.toNat_lt
    split_ifs <;> omega

variable [DecidableEq Thread]

/-- The swap of `pop` takes the first slot of the free list. -/
theorem popSwap (h : Invariant n s l taken returned) (hn : n ≤ stackEmpty) {head next : ℕ}
    (hpc : s.pc t = .popSwap head next) (htop : s.freeTop = head)
    (hfresh : s.swings - s.started t < 2 ^ 32) :
    ∃ rest, Invariant n
      { s.goto t .popCount with
        freeTop := makeHead ((headTag head + 1) % 2 ^ 32) next
        held := Function.update s.held t (insert (headIndex head) (s.held t))
        swings := s.swings + 1 } rest (insert t taken) returned := by
  have hknows := h.knows t
  rw [State.Knows, hpc] at hknows
  obtain ⟨hread, hlt⟩ := hknows
  -- the head has not changed since it was read, so its link is the one that was read
  obtain ⟨-, hlink⟩ := hread.current h.tag htop hfresh
  have hne : headIndex s.freeTop ≠ stackEmpty := by
    rw [htop]
    omega
  obtain ⟨j, rest, hj, rfl, hnot, hrest⟩ := h.free.pop hne
  rw [htop] at hj hnot
  obtain rfl : next = j := by
    rw [State.next, if_pos hlt, hlink] at hj
    exact Option.some.inj hj
  have hnext := link_lt hn hrest
  set s' : State Thread :=
    { s.goto t .popCount with
      freeTop := makeHead ((headTag head + 1) % 2 ^ 32) next
      held := Function.update s.held t (insert (headIndex head) (s.held t))
      swings := s.swings + 1 } with hs'
  have hmoves : Moves t s s' := ⟨(Moves.goto t _ s).pc, fun _ _ => rfl⟩
  have hself : s'.pc t = .popCount := goto_pc t _ s
  have hheld : s'.held t = insert (headIndex head) (s.held t) := Function.update_self _ _ _
  have hfree : ∀ u, ¬s.Has u (headIndex head) := by
    intro u hu
    apply (h.not_free hu).2
    rw [htop]
    exact List.mem_cons_self
  have hhas : ∀ u i, s'.Has u i ↔ s.Has u i ∨ (u = t ∧ i = headIndex head) := by
    intro u i
    by_cases hu : u = t
    · subst hu
      rw [State.Has, State.Has, hself, hpc, hheld, Finset.mem_insert]
      simp only [Pc.pushing, reduceCtorEq, or_false, true_and]
      exact or_comm
    · have hheld' : s'.held u = s.held u := Function.update_of_ne hu _ _
      rw [State.Has, State.Has, hmoves.pc u hu, hheld']
      simp [hu]
  refine ⟨rest, ?_, ?_, ?_, ?_, ?_, ?_, ?_, ?_, ?_, ?_, h.range⟩
  · show FreeList (s.next n) _ (headIndex (makeHead _ next)) rest
    rw [headIndex_makeHead hnext]
    exact hrest
  · show headTag (makeHead _ next) = (s.swings + 1) % 2 ^ 32
    rw [headTag_makeHead (Nat.mod_lt _ (by decide)) hnext, ← htop, h.tag]
    omega
  · intro u v i hu hv
    rcases (hhas u i).1 hu with hold | ⟨rfl, rfl⟩
    · rcases (hhas v i).1 hv with hold' | ⟨rfl, rfl⟩
      · exact h.unique u v i hold hold'
      · exact absurd hold (hfree u)
    · rcases (hhas v _).1 hv with hold' | ⟨rfl, -⟩
      · exact absurd hold' (hfree v)
      · rfl
  · intro u i hu
    by_cases heq : u = t
    · subst heq
      rw [hself] at hu
      cases hu
    · rw [hmoves.pc u heq] at hu
      show i ∉ Function.update s.held t _ u
      rw [Function.update_of_ne heq]
      exact h.once u i hu
  · intro i
    simp only [hhas, exists_or, exists_eq_left, h.has i, List.mem_cons, not_or, htop]
    constructor
    · rintro (⟨hi, -, hi'⟩ | ⟨rfl⟩)
      · exact ⟨hi, hi'⟩
      · exact ⟨hlt, hnot⟩
    · rintro ⟨hi, hi'⟩
      by_cases heq : i = headIndex head
      · exact .inr heq
      · exact .inl ⟨hi, heq, hi'⟩
  · intro u hu
    by_cases heq : u = t
    · subst heq
      have hle := h.started u (by rw [hpc]; simp)
      show s.started u ≤ s.swings + 1
      omega
    · rw [hmoves.pc u heq] at hu
      have hle := h.started u hu
      show s.started u ≤ s.swings + 1
      omega
  · intro u
    by_cases heq : u = t
    · subst heq
      rw [State.Knows, hself]
      trivial
    · exact (h.knows u).outdate hmoves heq rfl rfl
  · intro u
    by_cases heq : u = t
    · subst heq
      simp [hself]
    · rw [Finset.mem_insert, hmoves.pc u heq, h.mem_taken]
      simp [heq]
  · intro u
    by_cases heq : u = t
    · subst heq
      simp [h.mem_returned, hself, hpc]
    · rw [hmoves.pc u heq, h.mem_returned]
  · have hnotin : t ∉ taken := by simp [h.mem_taken, hpc]
    have hcount := h.count
    rw [List.length_cons] at hcount
    rw [Finset.card_insert_of_notMem hnotin]
    show (s.available + returned.card) % 2 ^ 32 = _
    omega

/-- The swap of `push` puts the slot in front of the free list. -/
theorem pushSwap (h : Invariant n s l taken returned) (hn : n ≤ stackEmpty) {i head : ℕ}
    (hpc : s.pc t = .pushSwap i head) (htop : s.freeTop = head) :
    Invariant n
      { s.goto t .pushCount with
        freeTop := makeHead ((headTag head + 1) % 2 ^ 32) i
        swings := s.swings + 1 } (i :: l) taken (insert t returned) := by
  have hknows := h.knows t
  rw [State.Knows, hpc] at hknows
  obtain ⟨-, hlink⟩ := hknows
  have hpush : (s.pc t).pushing = some i := by rw [hpc]; rfl
  obtain ⟨hlt, hnot⟩ := h.not_free (t := t) (.inr hpush)
  have hi : i < 2 ^ 32 := by
    unfold stackEmpty at hn
    omega
  set s' : State Thread :=
    { s.goto t .pushCount with
      freeTop := makeHead ((headTag head + 1) % 2 ^ 32) i
      swings := s.swings + 1 } with hs'
  have hmoves : Moves t s s' := ⟨(Moves.goto t _ s).pc, fun _ _ => rfl⟩
  have hself : s'.pc t = .pushCount := goto_pc t _ s
  have hhas : ∀ u j, s'.Has u j ↔ s.Has u j ∧ ¬(u = t ∧ j = i) := by
    intro u j
    by_cases hu : u = t
    · subst hu
      have hheld := h.once u i hpush
      rw [State.Has, State.Has, hself, hpc]
      simp only [Pc.pushing, reduceCtorEq, or_false, true_and, Option.some.injEq]
      constructor
      · intro hj
        exact ⟨.inl hj, fun heq => hheld (heq ▸ hj)⟩
      · rintro ⟨hj | hj, hne⟩
        · exact hj
        · exact absurd hj.symm hne
    · simp only [State.Has, hmoves.pc u hu, hu, false_and, not_false_eq_true, and_true]
      rfl
  refine ⟨?_, ?_, ?_, ?_, ?_, ?_, ?_, ?_, ?_, ?_, h.range⟩
  · show FreeList (s.next n) _ (headIndex (makeHead _ i)) (i :: l)
    rw [headIndex_makeHead hi]
    refine h.free.push hnot (by omega) ?_ fun _ _ => rfl
    rw [State.next, if_pos hlt, hlink, htop]
  · show headTag (makeHead _ i) = (s.swings + 1) % 2 ^ 32
    rw [headTag_makeHead (Nat.mod_lt _ (by decide)) hi, ← htop, h.tag]
    omega
  · intro u v j hu hv
    exact h.unique u v j ((hhas u j).1 hu).1 ((hhas v j).1 hv).1
  · intro u j hu
    by_cases heq : u = t
    · subst heq
      rw [hself] at hu
      cases hu
    · rw [hmoves.pc u heq] at hu
      exact h.once u j hu
  · intro j
    rw [List.mem_cons, not_or, and_left_comm, ← h.has j]
    constructor
    · rintro ⟨u, hu⟩
      obtain ⟨hold, hne⟩ := (hhas u j).1 hu
      refine ⟨fun heq => hne ⟨?_, heq⟩, u, hold⟩
      subst heq
      exact h.unique u t j hold (.inr hpush)
    · rintro ⟨hne, u, hu⟩
      exact ⟨u, (hhas u j).2 ⟨hu, fun heq => hne heq.2⟩⟩
  · intro u hu
    by_cases heq : u = t
    · subst heq
      have hle := h.started u (by rw [hpc]; simp)
      show s.started u ≤ s.swings + 1
      omega
    · rw [hmoves.pc u heq] at hu
      have hle := h.started u hu
      show s.started u ≤ s.swings + 1
      omega
  · intro u
    by_cases heq : u = t
    · subst heq
      rw [State.Knows, hself]
      trivial
    · exact (h.knows u).outdate hmoves heq rfl rfl
  · intro u
    by_cases heq : u = t
    · subst heq
      simp [h.mem_taken, hself, hpc]
    · rw [hmoves.pc u heq, h.mem_taken]
  · intro u
    by_cases heq : u = t
    · subst heq
      simp [hself]
    · rw [Finset.mem_insert, hmoves.pc u heq, h.mem_returned]
      simp [heq]
  · have hnotin : t ∉ returned := by simp [h.mem_returned, hpc]
    have hcount := h.count
    rw [Finset.card_insert_of_notMem hnotin, List.length_cons]
    show (s.available + (returned.card + 1)) % 2 ^ 32 = _
    omega

/-- A slot that a thread starts to push stays the thread's own. -/
theorem pushStart (h : Invariant n s l taken returned) (hn : n ≤ stackEmpty) {i : ℕ}
    (hpc : s.pc t = .idle) (hi : i ∈ s.held t) :
    Invariant n
      { s.start t (.pushLoad i) with
        held := Function.update s.held t ((s.held t).erase i) } l taken returned := by
  set s' : State Thread :=
    { s.start t (.pushLoad i) with
      held := Function.update s.held t ((s.held t).erase i) } with hs'
  have hmoves : Moves t s s' := ⟨(Moves.start t (.pushLoad i) s).pc, (Moves.start t (.pushLoad i) s).started⟩
  have hself : s'.pc t = .pushLoad i := start_pc t _ s
  have hheld : s'.held t = (s.held t).erase i := Function.update_self _ _ _
  have hhas : ∀ u j, s'.Has u j ↔ s.Has u j := by
    intro u j
    by_cases hu : u = t
    · subst hu
      rw [State.Has, State.Has, hself, hpc, hheld, Finset.mem_erase]
      simp only [Pc.pushing, reduceCtorEq, or_false, Option.some.injEq]
      constructor
      · rintro (⟨-, hj⟩ | rfl)
        · exact hj
        · exact hi
      · intro hj
        by_cases heq : j = i
        · exact .inr heq.symm
        · exact .inl ⟨heq, hj⟩
    · have hheld' : s'.held u = s.held u := Function.update_of_ne hu _ _
      rw [State.Has, State.Has, hmoves.pc u hu, hheld']
  have hat : ∀ u pc, pc ≠ .idle → pc ≠ .pushLoad i → (s'.pc u = pc ↔ s.pc u = pc) := by
    intro u pc hidle hload
    by_cases hu : u = t
    · subst hu
      rw [hself, hpc]
      exact iff_of_false hload.symm hidle.symm
    · rw [hmoves.pc u hu]
  refine ⟨h.free, h.tag, ?_, ?_, ?_, ?_, ?_, ?_, ?_, h.count, h.range⟩
  · intro u v j hu hv
    exact h.unique u v j ((hhas u j).1 hu) ((hhas v j).1 hv)
  · intro u j hu
    by_cases heq : u = t
    · subst heq
      rw [hself] at hu
      obtain rfl : i = j := Option.some.inj hu
      rw [hheld]
      exact Finset.notMem_erase _ _
    · rw [hmoves.pc u heq] at hu
      show j ∉ Function.update s.held t _ u
      rw [Function.update_of_ne heq]
      exact h.once u j hu
  · intro j
    simp only [hhas]
    exact h.has j
  · intro u hu
    by_cases heq : u = t
    · subst heq
      show Function.update s.started u s.swings u ≤ s.swings
      rw [Function.update_self]
    · rw [hmoves.pc u heq] at hu
      rw [hmoves.started u heq]
      exact h.started u hu
  · intro u
    by_cases heq : u = t
    · subst heq
      rw [State.Knows, hself]
      trivial
    · exact (h.knows u).keep hmoves heq hn h.free rfl rfl fun _ _ => rfl
  · intro u
    rw [h.mem_taken, hat u .popCount (by simp) (by simp)]
  · intro u
    rw [h.mem_returned, hat u .pushCount (by simp) (by simp)]

/-- The link of a slot that is being pushed is not on the free list. -/
theorem pushStore (h : Invariant n s l taken returned) (hn : n ≤ stackEmpty) {i head : ℕ}
    (hpc : s.pc t = .pushStore i head) :
    Invariant n
      { s.goto t (.pushSwap i head) with
        nextFree := Function.update s.nextFree i (headIndex head) } l taken returned := by
  have hknows := h.knows t
  rw [State.Knows, hpc] at hknows
  have hpush : (s.pc t).pushing = some i := by rw [hpc]; rfl
  obtain ⟨-, hnot⟩ := h.not_free (t := t) (.inr hpush)
  set s' : State Thread :=
    { s.goto t (.pushSwap i head) with
      nextFree := Function.update s.nextFree i (headIndex head) } with hs'
  have hmoves : Moves t s s' := ⟨(Moves.goto t _ s).pc, fun _ _ => rfl⟩
  have hself : s'.pc t = .pushSwap i head := goto_pc t _ s
  have hpushing : ∀ u, (s'.pc u).pushing = (s.pc u).pushing := by
    intro u
    by_cases hu : u = t
    · subst hu
      rw [hself, hpc]
      rfl
    · rw [hmoves.pc u hu]
  have hhas : ∀ u j, s'.Has u j ↔ s.Has u j := by
    intro u j
    rw [State.Has, State.Has, hpushing]
    exact Iff.rfl
  have hat : ∀ u pc, pc ≠ .pushStore i head → pc ≠ .pushSwap i head →
      (s'.pc u = pc ↔ s.pc u = pc) := by
    intro u pc hstore hswap
    by_cases hu : u = t
    · subst hu
      rw [hself, hpc]
      exact iff_of_false hswap.symm hstore.symm
    · rw [hmoves.pc u hu]
  refine ⟨?_, h.tag, ?_, ?_, ?_, ?_, ?_, ?_, ?_, h.count, h.range⟩
  · refine h.free.congr fun j hj => ?_
    have hne : j ≠ i := fun heq => hnot (heq ▸ hj)
    simp only [State.next, hs', Function.update_of_ne hne]
  · intro u v j hu hv
    exact h.unique u v j ((hhas u j).1 hu) ((hhas v j).1 hv)
  · intro u j hu
    exact h.once u j ((hpushing u).symm.trans hu)
  · intro j
    simp only [hhas]
    exact h.has j
  · intro u hu
    by_cases heq : u = t
    · subst heq
      exact h.started u (by rw [hpc]; simp)
    · rw [hmoves.pc u heq] at hu
      exact h.started u hu
  · intro u
    by_cases heq : u = t
    · subst heq
      rw [State.Knows, hself]
      exact ⟨hknows.keep rfl rfl id, Function.update_self _ _ _⟩
    · refine (h.knows u).keep hmoves heq hn h.free rfl rfl fun j hj => ?_
      refine Function.update_of_ne ?_ _ _
      rintro rfl
      rcases hj with hj | hj
      · exact hnot hj
      · exact heq (h.unique u t j (.inr hj) (.inr hpush))
  · intro u
    rw [h.mem_taken, hat u .popCount (by simp) (by simp)]
  · intro u
    rw [h.mem_returned, hat u .pushCount (by simp) (by simp)]

/-- A thread counts its slot and is done. -/
theorem finish (h : Invariant n s l taken returned) (hn : n ≤ stackEmpty) {available : ℕ}
    {taken' returned' : Finset Thread} (hpc : s.pc t = .popCount ∨ s.pc t = .pushCount)
    (htaken : ∀ u, u ∈ taken' ↔ u ∈ taken ∧ u ≠ t)
    (hreturned : ∀ u, u ∈ returned' ↔ u ∈ returned ∧ u ≠ t)
    (hcount : (available + returned'.card) % 2 ^ 32 = (l.length + taken'.card) % 2 ^ 32)
    (hrange : available < 2 ^ 32) :
    Invariant n { s.goto t .idle with available := available } l taken' returned' := by
  set s' : State Thread := { s.goto t .idle with available := available } with hs'
  have hmoves : Moves t s s' := ⟨(Moves.goto t .idle s).pc, fun _ _ => rfl⟩
  have hself : s'.pc t = .idle := goto_pc t .idle s
  have hpushing : ∀ u, (s'.pc u).pushing = (s.pc u).pushing := by
    intro u
    by_cases hu : u = t
    · subst hu
      rw [hself]
      rcases hpc with hpc | hpc <;> rw [hpc] <;> rfl
    · rw [hmoves.pc u hu]
  have hhas : ∀ u j, s'.Has u j ↔ s.Has u j := by
    intro u j
    rw [State.Has, State.Has, hpushing]
    exact Iff.rfl
  refine ⟨h.free, h.tag, ?_, ?_, ?_, ?_, ?_, ?_, ?_, hcount, hrange⟩
  · intro u v j hu hv
    exact h.unique u v j ((hhas u j).1 hu) ((hhas v j).1 hv)
  · intro u j hu
    exact h.once u j ((hpushing u).symm.trans hu)
  · intro j
    simp only [hhas]
    exact h.has j
  · intro u hu
    by_cases heq : u = t
    · subst heq
      exact absurd hself hu
    · rw [hmoves.pc u heq] at hu
      exact h.started u hu
  · intro u
    by_cases heq : u = t
    · subst heq
      rw [State.Knows, hself]
      trivial
    · exact (h.knows u).keep hmoves heq hn h.free rfl rfl fun _ _ => rfl
  · intro u
    rw [htaken]
    by_cases heq : u = t
    · subst heq
      simp [hself]
    · rw [hmoves.pc u heq, h.mem_taken]
      exact and_iff_left heq
  · intro u
    rw [hreturned]
    by_cases heq : u = t
    · subst heq
      simp [hself]
    · rw [hmoves.pc u heq, h.mem_returned]
      exact and_iff_left heq

/-- `pop` takes one from the available slots. -/
theorem popCount (h : Invariant n s l taken returned) (hn : n ≤ stackEmpty)
    (hpc : s.pc t = .popCount) :
    Invariant n { s.goto t .idle with available := (s.available + 2 ^ 32 - 1) % 2 ^ 32 } l
      (taken.erase t) returned := by
  have hmem : t ∈ taken := (h.mem_taken t).2 hpc
  have hnot : t ∉ returned := by simp [h.mem_returned, hpc]
  refine h.finish hn (.inl hpc) (fun u => ?_) (fun u => ?_) ?_ (Nat.mod_lt _ (by decide))
  · rw [Finset.mem_erase, and_comm]
  · exact ⟨fun hu => ⟨hu, fun heq => hnot (heq ▸ hu)⟩, fun hu => hu.1⟩
  · have hcount := h.count
    have hcard := Finset.card_erase_of_mem hmem
    have hpos := Finset.card_pos.2 ⟨t, hmem⟩
    omega

/-- `push` adds one to the available slots. -/
theorem pushCount (h : Invariant n s l taken returned) (hn : n ≤ stackEmpty)
    (hpc : s.pc t = .pushCount) :
    Invariant n { s.goto t .idle with available := (s.available + 1) % 2 ^ 32 } l taken
      (returned.erase t) := by
  have hmem : t ∈ returned := (h.mem_returned t).2 hpc
  have hnot : t ∉ taken := by simp [h.mem_taken, hpc]
  refine h.finish hn (.inr hpc) (fun u => ?_) (fun u => ?_) ?_ (Nat.mod_lt _ (by decide))
  · exact ⟨fun hu => ⟨hu, fun heq => hnot (heq ▸ hu)⟩, fun hu => hu.1⟩
  · rw [Finset.mem_erase, and_comm]
  · have hcount := h.count
    have hcard := Finset.card_erase_of_mem hmem
    have hpos := Finset.card_pos.2 ⟨t, hmem⟩
    omega

/-- **Every atomic step keeps the invariant**, for some free list. -/
theorem step (h : Invariant n s l taken returned) (hn : n ≤ stackEmpty) (hfresh : Fresh s)
    (hstep : Step s s') : ∃ l' taken' returned', Invariant n s' l' taken' returned' := by
  cases hstep with
  | popStart t hpc =>
    refine ⟨l, taken, returned, h.move hn (.start t .popLoad s) rfl rfl rfl rfl rfl ?_ ?_ ?_ ?_ ?_⟩
    · rw [start_pc, hpc]
      rfl
    · simp [hpc]
    · simp
    · intro _
      show Function.update s.started t s.swings t ≤ s.swings
      rw [Function.update_self]
    · rw [State.Knows, start_pc]
      trivial
  | popEmpty t hpc hempty =>
    refine ⟨l, taken, returned, h.move hn (.goto t .idle s) rfl rfl rfl rfl rfl ?_ ?_ ?_ ?_ ?_⟩
    · rw [goto_pc, hpc]
      rfl
    · simp [hpc]
    · simp
    · intro hidle
      exact absurd (goto_pc t .idle s) hidle
    · rw [State.Knows, goto_pc]
      trivial
  | popLoad t hpc hne =>
    have hstarted := h.started t (by simp [hpc])
    refine ⟨l, taken, returned, h.move hn (.goto t (.popNext s.freeTop) s) rfl rfl rfl rfl rfl
      ?_ ?_ ?_ (fun _ => hstarted) ?_⟩
    · rw [goto_pc, hpc]
      rfl
    · simp [hpc]
    · simp
    · rw [State.Knows, goto_pc]
      refine ⟨State.Read.now hstarted h.tag rfl, ?_⟩
      obtain ⟨j, rest, -, rfl, -⟩ := h.free.pop hne
      exact h.lt_of_mem List.mem_cons_self
  | popNext t head hpc =>
    have hstarted := h.started t (by simp [hpc])
    have hknows := h.knows t
    rw [State.Knows, hpc] at hknows
    refine ⟨l, taken, returned, h.move hn (.goto t _ s) rfl rfl rfl rfl rfl ?_ ?_ ?_
      (fun _ => hstarted) ?_⟩
    · rw [goto_pc, hpc]
      rfl
    · simp [hpc]
    · simp
    · rw [State.Knows, goto_pc]
      exact ⟨hknows.1.keep rfl rfl fun heq => ⟨heq, rfl⟩, hknows.2⟩
  | popRetry t head next hpc =>
    have hstarted := h.started t (by simp [hpc])
    refine ⟨l, taken, returned, h.move hn (.goto t .popLoad s) rfl rfl rfl rfl rfl ?_ ?_ ?_
      (fun _ => hstarted) ?_⟩
    · rw [goto_pc, hpc]
      rfl
    · simp [hpc]
    · simp
    · rw [State.Knows, goto_pc]
      trivial
  | popSwap t head next hpc htop =>
    obtain ⟨rest, hrest⟩ := h.popSwap hn hpc htop (hfresh t (by simp [hpc]))
    exact ⟨rest, _, _, hrest⟩
  | popCount t hpc => exact ⟨l, _, _, h.popCount hn hpc⟩
  | pushStart t i hpc hi => exact ⟨l, _, _, h.pushStart hn hpc hi⟩
  | pushLoad t i hpc =>
    have hstarted := h.started t (by simp [hpc])
    refine ⟨l, taken, returned, h.move hn (.goto t (.pushStore i s.freeTop) s) rfl rfl rfl rfl rfl
      ?_ ?_ ?_ (fun _ => hstarted) ?_⟩
    · rw [goto_pc, hpc]
      rfl
    · simp [hpc]
    · simp
    · rw [State.Knows, goto_pc]
      exact State.Read.now hstarted h.tag rfl
  | pushStore t i head hpc => exact ⟨l, _, _, h.pushStore hn hpc⟩
  | pushRetry t i head hpc =>
    have hstarted := h.started t (by simp [hpc])
    refine ⟨l, taken, returned, h.move hn (.goto t (.pushLoad i) s) rfl rfl rfl rfl rfl ?_ ?_ ?_
      (fun _ => hstarted) ?_⟩
    · rw [goto_pc, hpc]
      rfl
    · simp [hpc]
    · simp
    · rw [State.Knows, goto_pc]
      trivial
  | pushSwap t i head hpc htop => exact ⟨_, _, _, h.pushSwap hn hpc htop⟩
  | pushCount t hpc => exact ⟨l, _, _, h.pushCount hn hpc⟩

end Invariant

/-! ## Linearity -/

/-- Every slot is in one place: no two threads hold the same slot, and the free list, which
has no cycle, consists of the slots that no thread holds or is pushing. When all threads are
idle, the available slots have been counted. -/
structure Linear (n : ℕ) (s : State Thread) : Prop where
  exclusive : ∀ t u i, i ∈ s.held t → i ∈ s.held u → t = u
  free : ∃ l, FreeList (s.next n) stackEmpty (headIndex s.freeTop) l ∧
    ∀ i, i ∈ l ↔ i < n ∧ (∀ t, i ∉ s.held t) ∧ ∀ t, (s.pc t).pushing ≠ some i
  quiescent : (∀ t, s.pc t = .idle) →
    s.available + {i | ∃ t, i ∈ s.held t}.ncard = n

theorem Invariant.linear {n : ℕ} {s : State Thread} {l : List ℕ} {taken returned : Finset Thread}
    (h : Invariant n s l taken returned) (hn : n ≤ stackEmpty) : Linear n s where
  exclusive t u i ht hu := h.unique t u i (.inl ht) (.inl hu)
  free := by
    refine ⟨l, h.free, fun i => ⟨fun hi => ?_, fun ⟨hlt, hheld, hpush⟩ => ?_⟩⟩
    · have hnot : ∀ t, ¬s.Has t i := fun t ht => (h.not_free ht).2 hi
      exact ⟨h.lt_of_mem hi, fun t ht => hnot t (.inl ht), fun t ht => hnot t (.inr ht)⟩
    · by_contra hnot
      obtain ⟨t, ht | ht⟩ := (h.has i).2 ⟨hlt, hnot⟩
      · exact hheld t ht
      · exact hpush t ht
  quiescent hidle := by
    have htaken : taken = ∅ := by
      rw [Finset.eq_empty_iff_forall_notMem]
      intro t ht
      cases (hidle t).symm.trans ((h.mem_taken t).1 ht)
    have hreturned : returned = ∅ := by
      rw [Finset.eq_empty_iff_forall_notMem]
      intro t ht
      cases (hidle t).symm.trans ((h.mem_returned t).1 ht)
    -- the held slots are those that are not free
    have hheld : {i | ∃ t, i ∈ s.held t} = (Finset.range n \ l.toFinset : Finset ℕ) := by
      ext i
      rw [Finset.mem_coe, Finset.mem_sdiff, Finset.mem_range, List.mem_toFinset, ← h.has i]
      simp [State.Has, hidle, Pc.pushing]
    have hsub : l.toFinset ⊆ Finset.range n := by
      intro i hi
      exact Finset.mem_range.2 (h.lt_of_mem (List.mem_toFinset.1 hi))
    have hcard : l.length ≤ n := by
      have hle := Finset.card_le_card hsub
      rwa [List.toFinset_card_of_nodup h.free.nodup, Finset.card_range] at hle
    rw [hheld, Set.ncard_coe_finset, Finset.card_sdiff_of_subset hsub, Finset.card_range,
      List.toFinset_card_of_nodup h.free.nodup]
    have hcount := h.count
    have hrange := h.range
    rw [htaken, hreturned, Finset.card_empty] at hcount
    unfold stackEmpty at hn
    omega

variable [DecidableEq Thread]

theorem slotCount_le (config : TierConfig) : slotCount config ≤ stackEmpty := by
  have hsize := config.poolSize.toNat_lt
  unfold slotCount stackEmpty
  split_ifs <;> omega

/-- One more step. -/
theorem Reachable.step {config : TierConfig} {s s' : State Thread} (h : Reachable config s)
    (hstep : Step s s') (hfresh : Fresh s') : Reachable config s' :=
  h.tail ⟨hstep, hfresh⟩

/-- **The free stack is linear in every interleaving.** -/
theorem linear_of_reachable {config : TierConfig} {s : State Thread} (h : Reachable config s) :
    Linear (slotCount config) s := by
  have hn := slotCount_le config
  have hinv : (∃ l taken returned, Invariant (slotCount config) s l taken returned) ∧ Fresh s := by
    induction h with
    | refl => exact ⟨⟨_, _, _, Invariant.new config⟩, fun t ht => absurd rfl ht⟩
    | tail _ hstep ih =>
      obtain ⟨⟨l, taken, returned, hinv⟩, hfresh⟩ := ih
      exact ⟨hinv.step hn hfresh hstep.1, hstep.2⟩
  obtain ⟨⟨l, taken, returned, hinv⟩, -⟩ := hinv
  exact hinv.linear hn

/-- Two slots. -/
def twoSlots : TierConfig := ⟨.small, 2, true⟩

/-- A thread pops a slot while another one is about to. -/
theorem linear_pop :
    ∃ s : State Bool, Reachable twoSlots s ∧ 0 ∈ s.held true ∧ s.pc false = .popNext 0 ∧
      Linear 2 s := by
  let s₁ : State Bool := (State.new twoSlots).start false .popLoad
  let s₂ := s₁.goto false (.popNext s₁.freeTop)
  let s₃ := s₂.start true .popLoad
  let s₄ := s₃.goto true (.popNext s₃.freeTop)
  let s₅ := s₄.goto true (.popSwap s₄.freeTop (s₄.nextFree (headIndex s₄.freeTop)))
  have h₁ : Reachable twoSlots s₁ :=
    Reachable.step .refl (.popStart false rfl) (by unfold Fresh; decide)
  have h₂ : Reachable twoSlots s₂ :=
    h₁.step (.popLoad false rfl (by decide)) (by unfold Fresh; decide)
  have h₃ : Reachable twoSlots s₃ := h₂.step (.popStart true rfl) (by unfold Fresh; decide)
  have h₄ : Reachable twoSlots s₄ :=
    h₃.step (.popLoad true rfl (by decide)) (by unfold Fresh; decide)
  have h₅ : Reachable twoSlots s₅ :=
    h₄.step (.popNext true s₄.freeTop rfl) (by unfold Fresh; decide)
  have h₆ := h₅.step (.popSwap true _ _ rfl rfl) (by unfold Fresh; decide)
  exact ⟨_, h₆, by decide, rfl, linear_of_reachable h₆⟩

end FreeStack

end Torvyn
