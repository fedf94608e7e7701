/-
# A flat heap

Memory is one byte per address, and the heap records the blocks that are allocated in it.
The allocator is a parameter: all that is known of it is that a new block overlaps no
allocated one. Writing outside every block is possible, and changes whatever is there.
-/
import Mathlib

namespace Torvyn

/-! ## Blocks -/

/-- A range of addresses. -/
structure Block where
  start : ℕ
  size : ℕ
  deriving DecidableEq, Repr

namespace Block

/-- The two ranges share no address. -/
def Disjoint (a b : Block) : Prop :=
  a.start + a.size ≤ b.start ∨ b.start + b.size ≤ a.start

/-- The address lies in the range. -/
def Covers (b : Block) (address : ℕ) : Prop :=
  b.start ≤ address ∧ address < b.start + b.size

instance (b : Block) (address : ℕ) : Decidable (b.Covers address) := by
  unfold Covers
  infer_instance

theorem Disjoint.symm {a b : Block} (h : a.Disjoint b) : b.Disjoint a := by
  unfold Disjoint at *
  omega

instance : Std.Symm Block.Disjoint := ⟨fun _ _ => Disjoint.symm⟩

/-- Two disjoint ranges that are not empty start at different addresses. -/
theorem Disjoint.start_ne {a b : Block} (h : a.Disjoint b) (ha : 0 < a.size)
    (hb : 0 < b.size) : a.start ≠ b.start := by
  unfold Disjoint at h
  omega

theorem Disjoint.not_covers {a b : Block} (h : a.Disjoint b) {address : ℕ}
    (ha : a.Covers address) : ¬b.Covers address := by
  unfold Disjoint at h
  unfold Covers at *
  omega

end Block

/-! ## The heap and its operations -/

/-- The bytes of memory and the blocks allocated in it. -/
structure Heap where
  memory : ℕ → UInt8
  blocks : List Block

/-- Where a new block goes, `none` when memory is exhausted. -/
structure Allocator where
  place : Heap → ℕ → Option ℕ
  fresh : ∀ {heap : Heap} {size start : ℕ}, place heap size = some start →
    ∀ b ∈ heap.blocks, Block.Disjoint ⟨start, size⟩ b

/-- The first address after all of the blocks. -/
def Block.top (blocks : List Block) : ℕ :=
  blocks.foldr (fun b top => max (b.start + b.size) top) 0

theorem Block.end_le_top {blocks : List Block} {b : Block} (hb : b ∈ blocks) :
    b.start + b.size ≤ Block.top blocks := by
  induction blocks with
  | nil => cases hb
  | cons c rest ih =>
    rcases List.mem_cons.1 hb with rfl | hb
    · exact le_max_left _ _
    · exact (ih hb).trans (le_max_right _ _)

/-- The allocator that places each block after all others. -/
def Allocator.bump : Allocator where
  place heap _ := some (Block.top heap.blocks)
  fresh h b hb := by
    obtain rfl := Option.some.inj h
    exact .inr (Block.end_le_top hb)

namespace Heap

/-- Memory in which nothing is allocated. -/
def empty : Heap where
  memory _ := 0
  blocks := []

/-- Set `count` bytes from `start` on to `byte`. -/
def fill (heap : Heap) (start count : ℕ) (byte : UInt8) : Heap :=
  { heap with
    memory := fun a => if start ≤ a ∧ a < start + count then byte else heap.memory a }

/-- Copy `data` to `start`. -/
def store (heap : Heap) (start : ℕ) (data : List UInt8) : Heap :=
  { heap with
    memory := fun a => if start ≤ a then (data[a - start]?).getD (heap.memory a)
      else heap.memory a }

/-- The `count` bytes from `start` on. -/
def load (heap : Heap) (start count : ℕ) : List UInt8 :=
  (List.range count).map fun i => heap.memory (start + i)

/-- A new block whose bytes are all zero. -/
def allocZeroed (alloc : Allocator) (size : ℕ) (heap : Heap) : Option (ℕ × Heap) :=
  match alloc.place heap size with
  | none => none
  | some start =>
    some (start, { heap.fill start size 0 with blocks := ⟨start, size⟩ :: heap.blocks })

/-- Give a block back. -/
def dealloc (start size : ℕ) (heap : Heap) : Heap :=
  { heap with blocks := heap.blocks.erase ⟨start, size⟩ }

@[simp] theorem fill_blocks (heap : Heap) (start count : ℕ) (byte : UInt8) :
    (heap.fill start count byte).blocks = heap.blocks := rfl

@[simp] theorem store_blocks (heap : Heap) (start : ℕ) (data : List UInt8) :
    (heap.store start data).blocks = heap.blocks := rfl

@[simp] theorem dealloc_memory (heap : Heap) (start size : ℕ) :
    (heap.dealloc start size).memory = heap.memory := rfl

/-- Filling leaves every address outside the range alone. -/
theorem fill_memory_of_not_mem {heap : Heap} {start count : ℕ} {byte : UInt8} {a : ℕ}
    (h : a < start ∨ start + count ≤ a) : (heap.fill start count byte).memory a = heap.memory a := by
  simp only [fill]
  rw [if_neg (by omega)]

theorem fill_memory_of_mem {heap : Heap} {start count : ℕ} {byte : UInt8} {a : ℕ}
    (h : start ≤ a) (h' : a < start + count) : (heap.fill start count byte).memory a = byte := by
  simp only [fill]
  rw [if_pos ⟨h, h'⟩]

/-- Storing leaves every address outside the range alone. -/
theorem store_memory_of_not_mem {heap : Heap} {start : ℕ} {data : List UInt8} {a : ℕ}
    (h : a < start ∨ start + data.length ≤ a) :
    (heap.store start data).memory a = heap.memory a := by
  simp only [store]
  split
  · rw [List.getElem?_eq_none (by omega)]
    rfl
  · rfl

/-! ## Well-formed heaps -/

/-- No two blocks overlap, and none is empty. -/
structure WellFormed (heap : Heap) : Prop where
  disjoint : heap.blocks.Pairwise Block.Disjoint
  pos : ∀ b ∈ heap.blocks, 0 < b.size

theorem WellFormed.empty : WellFormed .empty :=
  ⟨List.Pairwise.nil, by simp [Heap.empty]⟩

/-- The blocks are pairwise different. -/
theorem WellFormed.nodup {heap : Heap} (h : heap.WellFormed) : heap.blocks.Nodup := by
  refine (List.Pairwise.and_mem.1 h.disjoint).imp ?_
  rintro a b ⟨ha, hb, hab⟩ rfl
  exact hab.start_ne (h.pos a ha) (h.pos a hb) rfl

/-- Being well formed is about the blocks only. -/
theorem WellFormed.of_blocks_eq {heap heap' : Heap} (h : heap.WellFormed)
    (hb : heap'.blocks = heap.blocks) : heap'.WellFormed :=
  ⟨hb ▸ h.disjoint, hb ▸ h.pos⟩

/-- Two blocks of a well-formed heap are disjoint or equal. -/
theorem WellFormed.disjoint_of_ne {heap : Heap} (h : heap.WellFormed) {a b : Block}
    (ha : a ∈ heap.blocks) (hb : b ∈ heap.blocks) (hne : a ≠ b) : a.Disjoint b :=
  h.disjoint.forall ha hb hne

/-- A block of a well-formed heap is known by its start. -/
theorem WellFormed.eq_of_start_eq {heap : Heap} (h : heap.WellFormed) {a b : Block}
    (ha : a ∈ heap.blocks) (hb : b ∈ heap.blocks) (hstart : a.start = b.start) : a = b := by
  by_contra hne
  exact (h.disjoint_of_ne ha hb hne).start_ne (h.pos a ha) (h.pos b hb) hstart

/-- `heap'` is `heap` with the further blocks `added`: they are zeroed, they overlap no other
block, and the bytes of the old blocks are kept. -/
structure ExtendedBy (heap heap' : Heap) (added : List Block) : Prop where
  wellFormed : heap'.WellFormed
  blocks : heap'.blocks = added ++ heap.blocks
  zero : ∀ b ∈ added, ∀ a, b.Covers a → heap'.memory a = 0
  kept : ∀ b ∈ heap.blocks, ∀ a, b.Covers a → heap'.memory a = heap.memory a

theorem ExtendedBy.refl {heap : Heap} (h : heap.WellFormed) : ExtendedBy heap heap [] :=
  ⟨h, rfl, by simp, fun _ _ _ _ => rfl⟩

theorem ExtendedBy.trans {heap heap' heap'' : Heap} {added added' : List Block}
    (h : ExtendedBy heap heap' added) (h' : ExtendedBy heap' heap'' added') :
    ExtendedBy heap heap'' (added' ++ added) := by
  refine ⟨h'.wellFormed, ?_, fun b hb a ha => ?_, fun b hb a ha => ?_⟩
  · rw [h'.blocks, h.blocks, List.append_assoc]
  · rcases List.mem_append.1 hb with hb | hb
    · exact h'.zero b hb a ha
    · rw [h'.kept b (h.blocks ▸ List.mem_append_left _ hb) a ha, h.zero b hb a ha]
  · rw [h'.kept b (h.blocks ▸ List.mem_append_right _ hb) a ha, h.kept b hb a ha]

/-- An allocation extends the heap by one block. -/
theorem WellFormed.allocZeroed {alloc : Allocator} {size start : ℕ} {heap heap' : Heap}
    (h : heap.WellFormed) (hsize : 0 < size)
    (halloc : heap.allocZeroed alloc size = some (start, heap')) :
    ExtendedBy heap heap' [⟨start, size⟩] := by
  unfold Heap.allocZeroed at halloc
  split at halloc
  · cases halloc
  · rename_i start' hplace
    obtain ⟨rfl, rfl⟩ := Prod.mk.inj (Option.some.inj halloc)
    have hfresh := alloc.fresh hplace
    refine ⟨⟨?_, ?_⟩, rfl, ?_, ?_⟩
    · exact List.pairwise_cons.2 ⟨hfresh, h.disjoint⟩
    · exact List.forall_mem_cons.2 ⟨hsize, h.pos⟩
    · intro b hb a ha
      obtain rfl := List.mem_singleton.1 hb
      exact fill_memory_of_mem ha.1 ha.2
    · intro b hb a ha
      have hout := (hfresh b hb).symm.not_covers ha
      simp only [Block.Covers] at hout
      exact fill_memory_of_not_mem (by omega)

/-- Giving a block back keeps the heap well formed. -/
theorem WellFormed.dealloc {heap : Heap} (h : heap.WellFormed) (start size : ℕ) :
    (heap.dealloc start size).WellFormed :=
  ⟨h.disjoint.sublist List.erase_sublist, fun b hb => h.pos b (List.mem_of_mem_erase hb)⟩

/-- The other blocks stay allocated. -/
theorem mem_dealloc {heap : Heap} {start size : ℕ} {b : Block} (hb : b ∈ heap.blocks)
    (hne : b ≠ ⟨start, size⟩) : b ∈ (heap.dealloc start size).blocks :=
  (List.mem_erase_of_ne hne).2 hb

end Heap

end Torvyn
